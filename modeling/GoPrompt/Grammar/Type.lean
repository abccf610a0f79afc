import GoPrompt.Grammar.Levels

/-! Types and signatures. -/

namespace GoPrompt.Grammar

open Parse

variable (deeper : Deeper)

def startsType : TokenKind → Bool
  | .identifier => true
  | .operator operator => [.mul, .leftBracket, .leftParen, .arrow].contains operator
  | .keyword keyword => [.map, .chan, .func, .struct, .interface].contains keyword
  | _ => false

def atType : Parse Bool := do return (← peekKind 0).any startsType

/-- One name, or more of them separated by commas. -/
def nameList : Parse Unit := do
  expectName
  repeatUntil do
    if ← eatOperator .comma then
      expectName
      return false
    else return true

/-- A name, or a name qualified by another one. -/
def typeName : Parse Shape := do
  expectName
  if ← eatOperator .period then
    expectName
    return .qualifiedName
  else return .identifier

/-- An array or slice type. Its length may be left to a composite literal (`[...]T`) where one follows. -/
def arrayType (literalFollows : Bool) : Parse Shape := do
  expectOperator .leftBracket
  match ← peekOperator 0 with
  | some .rightBracket => pure ()
  | some .ellipsis => if literalFollows then bump else discard (deeper.expression .free)
  | _ => discard (deeper.expression .free)
  expectOperator .rightBracket
  discard deeper.type
  return .literalType

def mapType : Parse Shape := do
  expectKeyword .map
  expectOperator .leftBracket
  discard deeper.type
  expectOperator .rightBracket
  discard deeper.type
  return .literalType

/-- Members, each read by `item`, separated by semicolons and up to the operator that closes them. -/
def semicolonList (closer : Operator) (item : Parse Unit) : Parse Unit :=
  repeatUntil do
    match ← peekKind 0 with
    | some (.semicolon _) =>
      bump
      return false
    | kind =>
      if kind = some (.operator closer) then return true
      else
        item
        match ← peekKind 0 with
        | some (.semicolon _) =>
          bump
          return false
        | kind => if kind = some (.operator closer) then return true else rejectNext [";", closer.lexeme]

/-- Items, each read by `item`, separated by commas and up to the operator that closes them. -/
def commaList (closer : Operator) (item : Parse Unit) : Parse Unit :=
  repeatUntil do
    if ← atOperator closer then return true
    else
      item
      match ← peekOperator 0 with
      | some .comma =>
        bump
        return false
      | operator => if operator = some closer then return true else rejectNext [",", closer.lexeme]

/-- One parameter, with or without a name; whether all of a list have one is not checked. -/
def parameter : Parse Unit := do
  if ← eatOperator .ellipsis then discard deeper.type
  else if (← peekKind 0) ≠ some .identifier then discard deeper.type
  else
    match ← peekOperator 1 with
    | some .period => discard deeper.type
    | some .comma | some .rightParen => bump
    | some .ellipsis =>
      bump
      bump
      discard deeper.type
    | _ =>
      bump
      if (← peekKind 0).isSome then discard deeper.type

def parameters : Parse Unit := do
  expectOperator .leftParen
  commaList .rightParen (parameter deeper)
  expectOperator .rightParen

def result : Parse Unit := do
  if ← atOperator .leftParen then parameters deeper
  else if ← atType then discard deeper.type

/-- The parameters and the optional result of a function. -/
def signature : Parse Unit := do
  parameters deeper
  result deeper

/-- One line of a struct type: an embedded type, or names with their type, and perhaps a tag. -/
def field : Parse Unit := do
  match ← peekKind 0 with
  | some (.operator .mul) =>
    bump
    discard typeName
  | some .identifier =>
    match ← peekKind 1 with
    | some (.operator .period) => discard typeName
    | some (.semicolon _) | some (.operator .rightBrace) | some (.literal .string) => bump
    | _ =>
      nameList
      discard deeper.type
  | _ => rejectNext ["field name", "embedded type"]
  if (← peekKind 0) = some (.literal .string) then bump

def structType : Parse Shape := do
  expectKeyword .struct
  expectOperator .leftBrace
  semicolonList .rightBrace (field deeper)
  expectOperator .rightBrace
  return .literalType

/-- A union of types, each of them possibly approximate: `~int | string`. -/
def typeUnion : Parse Unit :=
  repeatUntil do
    discard (eatOperator .tilde)
    discard deeper.type
    return !(← eatOperator .or)

/-- A line of an interface type: a method, an embedded type, or a union. -/
def interfaceElement : Parse Unit := do
  if (← peekKind 0) = some .identifier then
    if (← peekOperator 1) = some .leftParen then
      bump
      signature deeper
    else typeUnion deeper
  else typeUnion deeper

def interfaceType : Parse Shape := do
  expectKeyword .interface
  expectOperator .leftBrace
  semicolonList .rightBrace (interfaceElement deeper)
  expectOperator .rightBrace
  return .other

/-- A type whose own level is already entered. -/
def typeBody : Parse Shape := do
  match ← peek 0 with
  | none => endOfInput ["type"]
  | some token =>
    match token.kind with
    | .identifier => typeName
    | .operator .mul =>
      bump
      discard deeper.type
      return .other
    | .operator .leftParen =>
      bump
      discard deeper.type
      expectOperator .rightParen
      return .other
    | .operator .leftBracket => arrayType deeper false
    | .operator .arrow =>
      bump
      expectKeyword .chan
      discard deeper.type
      return .other
    | .keyword .chan =>
      bump
      discard (eatOperator .arrow)
      discard deeper.type
      return .other
    | .keyword .map => mapType deeper
    | .keyword .func =>
      bump
      signature deeper
      return .other
    | .keyword .struct => structType deeper
    | .keyword .interface => interfaceType deeper
    | _ => unexpected token ["type"]

/-- One type, or more of them separated by commas. -/
def typeList : Parse Unit := do
  discard deeper.type
  repeatUntil do
    if ← eatOperator .comma then
      discard deeper.type
      return false
    else return true

end GoPrompt.Grammar
