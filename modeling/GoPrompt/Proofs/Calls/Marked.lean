import GoPrompt.Grammar.Expression

/-! The grammar once more, with the calls of its functions marked, up to expressions. It is written for any
computations that can mark a call and repeat themselves: for parsing, where the marks mean nothing, and for whatever
measures the calls. -/

namespace GoPrompt

open Parse

/-- Computations that mark the calls of grammar functions and repeat themselves. -/
class Calling (m : Type → Type) where
  call {α : Type} : m α → m α
  iterate {α β : Type} : (α → m (Turn α β)) → α → m β

/-- To parsing a mark means nothing. -/
instance : Calling Parse where
  call body := body
  iterate := Parse.iterate

namespace Marked

open Calling
open Grammar (Place Context ExpressionList)

variable {m : Type → Type} [Monad m] [MonadLiftT Parse m] [Calling m]

def repeatUntil (isDone : m Bool) : m Unit :=
  iterate (fun () => do return if ← isDone then .done () else .again ()) ()

/-- The readers of the constructs that start a level of their own. -/
structure Readers (m : Type → Type) where
  expression : Place → m Expression
  unary : Place → m Expression
  type : m Shape
  literalValue : m Unit
  statement : Context → m Statement
  ifStatement : m Unit

section types

def atType : m Bool := call (liftM Grammar.atType)

def nameList : m Unit := call do
  expectName
  repeatUntil do
    if ← eatOperator .comma then
      expectName
      return false
    else return true

def typeName : m Shape := call do
  expectName
  if ← eatOperator .period then
    expectName
    return .qualifiedName
  else return .identifier

def semicolonList (closer : Operator) (item : m Unit) : m Unit := call <|
  repeatUntil do
    match ← peekKind 0 with
    | some (.semicolon _) =>
      bump
      return false
    | kind =>
      if kind = some (.operator closer) then return true
      else
        item
        match ← peekKind 0 with
        | some (.semicolon _) =>
          bump
          return false
        | kind => if kind = some (.operator closer) then return true else rejectNext [";", closer.lexeme]

def commaList (closer : Operator) (item : m Unit) : m Unit := call <|
  repeatUntil do
    if ← atOperator closer then return true
    else
      item
      match ← peekOperator 0 with
      | some .comma =>
        bump
        return false
      | operator => if operator = some closer then return true else rejectNext [",", closer.lexeme]

variable (readers : Readers m)

def arrayType (literalFollows : Bool) : m Shape := call do
  expectOperator .leftBracket
  match ← peekOperator 0 with
  | some .rightBracket => pure ()
  | some .ellipsis => if literalFollows then bump else discard (readers.expression .free)
  | _ => discard (readers.expression .free)
  expectOperator .rightBracket
  discard readers.type
  return .literalType

def mapType : m Shape := call do
  expectKeyword .map
  expectOperator .leftBracket
  discard readers.type
  expectOperator .rightBracket
  discard readers.type
  return .literalType

def parameter : m Unit := call do
  if ← eatOperator .ellipsis then discard readers.type
  else if (← peekKind 0) ≠ some .identifier then discard readers.type
  else
    match ← peekOperator 1 with
    | some .period => discard readers.type
    | some .comma | some .rightParen => bump
    | some .ellipsis =>
      bump
      bump
      discard readers.type
    | _ =>
      bump
      if (← peekKind 0).isSome then discard readers.type

def parameters : m Unit := call do
  expectOperator .leftParen
  commaList .rightParen (parameter readers)
  expectOperator .rightParen

def result : m Unit := call do
  if ← atOperator .leftParen then parameters readers
  else if ← atType then discard readers.type

def signature : m Unit := call do
  parameters readers
  result readers

def field : m Unit := call do
  match ← peekKind 0 with
  | some (.operator .mul) =>
    bump
    discard typeName
  | some .identifier =>
    match ← peekKind 1 with
    | some (.operator .period) => discard typeName
    | some (.semicolon _) | some (.operator .rightBrace) | some (.literal .string) => bump
    | _ =>
      nameList
      discard readers.type
  | _ => rejectNext ["field name", "embedded type"]
  if (← peekKind 0) = some (.literal .string) then bump

def structType : m Shape := call do
  expectKeyword .struct
  expectOperator .leftBrace
  semicolonList .rightBrace (field readers)
  expectOperator .rightBrace
  return .literalType

def typeUnion : m Unit := call <|
  repeatUntil do
    discard (liftM (eatOperator .tilde) : m Bool)
    discard readers.type
    return !(← eatOperator .or)

def interfaceElement : m Unit := call do
  if (← peekKind 0) = some .identifier then
    if (← peekOperator 1) = some .leftParen then
      bump
      signature readers
    else typeUnion readers
  else typeUnion readers

def interfaceType : m Shape := call do
  expectKeyword .interface
  expectOperator .leftBrace
  semicolonList .rightBrace (interfaceElement readers)
  expectOperator .rightBrace
  return .other

def typeBody : m Shape := call do
  match ← peek 0 with
  | none => endOfInput ["type"]
  | some token =>
    match token.kind with
    | .identifier => typeName
    | .operator .mul =>
      bump
      discard readers.type
      return .other
    | .operator .leftParen =>
      bump
      discard readers.type
      expectOperator .rightParen
      return .other
    | .operator .leftBracket => arrayType readers false
    | .operator .arrow =>
      bump
      expectKeyword .chan
      discard readers.type
      return .other
    | .keyword .chan =>
      bump
      discard (liftM (eatOperator .arrow) : m Bool)
      discard readers.type
      return .other
    | .keyword .map => mapType readers
    | .keyword .func =>
      bump
      signature readers
      return .other
    | .keyword .struct => structType readers
    | .keyword .interface => interfaceType readers
    | _ => unexpected token ["type"]

def typeList : m Unit := call do
  discard readers.type
  repeatUntil do
    if ← eatOperator .comma then
      discard readers.type
      return false
    else return true

end types

section blocks

variable (readers : Readers m)

def statementList : m Unit := call <|
  repeatUntil do
    match ← peek 0 with
    | none => endOfInput [Operator.rightBrace.lexeme]
    | some token =>
      if Grammar.endsStatementList token.kind then return true
      else if isSemicolon token.kind then
        bump
        return false
      else
        discard (readers.statement .block)
        match ← peekKind 0 with
        | some (.semicolon _) =>
          bump
          return false
        | some (.operator .rightBrace) => return true
        | _ => rejectNext [";", Operator.rightBrace.lexeme]

def block : m Unit := call do
  expectOperator .leftBrace
  statementList readers
  expectOperator .rightBrace

def optionalBlock : m Unit := call do
  if ← atOperator .leftBrace then block readers

end blocks

section expressions

variable (readers : Readers m)

def literalElement : m Unit := call do
  if ← atOperator .leftBrace then readers.literalValue
  else discard (readers.expression .free)

def literalValue : m Unit := call do
  expectOperator .leftBrace
  commaList .rightBrace do
    literalElement readers
    if ← eatOperator .colon then literalElement readers
  expectOperator .rightBrace

def selector (base : Shape) : m Shape := call do
  match ← peekKind 0 with
  | some .identifier =>
    bump
    return if base = .identifier then .qualifiedName else .other
  | some (.operator .leftParen) =>
    bump
    let shape ←
      if ← atKeyword .type then do
        bump
        pure Shape.typeGuard
      else do
        discard readers.type
        pure Shape.other
    expectOperator .rightParen
    return shape
  | _ => rejectNext ["name", "("]

def sliceBounds : Nat → m Unit
  | 0 => return
  | colons + 1 => do
    if ← eatOperator .colon then
      if !(← atOperator .colon) then
        if !(← atOperator .rightBracket) then discard (readers.expression .free)
      sliceBounds colons

def indexOrSlice : m Unit := call do
  if !(← atOperator .colon) then discard (readers.expression .free)
  sliceBounds readers 2

def callArguments : m Unit := call <|
  commaList .rightParen do
    discard (readers.expression .free)
    discard (liftM (eatOperator .ellipsis) : m Bool)

def suffix (place : Place) (shape : Shape) (operator : Operator) : m (Option Shape) := call do
  match operator with
  | .period =>
    bump
    return some (← selector readers shape)
  | .leftBracket =>
    bump
    indexOrSlice readers
    expectOperator .rightBracket
    return some .other
  | .leftParen =>
    bump
    callArguments readers
    expectOperator .rightParen
    return some .other
  | .leftBrace =>
    if shape.takesLiteralBody ∧ (place = .free ∨ ¬ shape.isTypeName) then
      literalValue readers
      return some .other
    else return none
  | _ => return none

def suffixes (place : Place) (operand : Expression) : m Expression := call <|
  iterate (fun (expression : Expression) => do
    match ← peekOperator 0 with
    | none => return .done expression
    | some operator =>
      match ← suffix readers place expression.shape operator with
      | none => return .done expression
      | some shape => return .again ⟨shape, ← spanFrom expression.span⟩) operand

def operandShape (token : Token) : m Shape := call do
  match token.kind with
  | .literal _ =>
    bump
    return .other
  | .identifier =>
    bump
    return .identifier
  | .operator .leftParen =>
    bump
    discard (readers.expression .free)
    expectOperator .rightParen
    return .other
  | .operator .leftBracket => arrayType readers true
  | .keyword .map => mapType readers
  | .keyword .struct => structType readers
  | .keyword .chan | .keyword .interface =>
    discard readers.type
    return .other
  | .keyword .func =>
    bump
    signature readers
    optionalBlock readers
    return .other
  | _ => unexpected token ["expression"]

def operand : m Expression := call do
  match ← peek 0 with
  | none => endOfInput ["expression"]
  | some token =>
    let shape ← operandShape readers token
    return ⟨shape, ← spanFrom token.span⟩

def primary (place : Place) : m Expression := call do suffixes readers place (← operand readers)

def unaryBody (place : Place) : m Expression := call do
  match ← peek 0 with
  | none => endOfInput ["expression"]
  | some token =>
    if token.operator?.any Grammar.isUnary then
      bump
      let operand ← readers.unary place
      return ⟨.other, token.span.merge operand.span⟩
    else if token.operator? = some .arrow then
      bump
      if ← atKeyword .chan then
        bump
        discard readers.type
        suffixes readers place ⟨.other, ← spanFrom token.span⟩
      else
        let operand ← readers.unary place
        return ⟨.other, token.span.merge operand.span⟩
    else primary readers place

def binaryTail (place : Place) (tightness : Nat) (left : Expression) : m Expression := call <|
  iterate (fun (left : Expression) => do
    match ← peekOperator 0 with
    | none => return .done left
    | some operator =>
      if binds : operator.precedence = 0 ∨ operator.precedence < tightness then return .done left
      else
        bump
        let right ← call do
          let operand ← readers.unary place
          binaryTail place (operator.precedence + 1) operand
        return .again ⟨.other, left.span.merge right.span⟩) left
termination_by 6 - tightness
decreasing_by
  have := operator.precedence_le
  omega

def binary (place : Place) (tightness : Nat) : m Expression := call do
  binaryTail readers place tightness (← readers.unary place)

def expressionFrom (place : Place) (operand : Expression) : m Expression := call do
  binaryTail readers place 1 (← suffixes readers place operand)

def expressionListFrom (place : Place) (first : Expression) : m Grammar.ExpressionList := call <|
  iterate (fun (list : Grammar.ExpressionList) => do
    if ← eatOperator .comma then
      let last ← readers.expression place
      return .again { list with count := list.count + 1, last := last }
    else return .done list) ⟨1, first, first⟩

def expressionList (place : Place) : m Grammar.ExpressionList := call do
  expressionListFrom readers place (← readers.expression place)

end expressions

end Marked

end GoPrompt
