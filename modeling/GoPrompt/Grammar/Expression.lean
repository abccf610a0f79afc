import GoPrompt.Grammar.Block
import GoPrompt.Grammar.Type

/-! Expressions. Binary operators are read by precedence climbing over the five levels of the language.
A star is a binary operator or part of a type, never a unary operator. -/

namespace GoPrompt.Grammar

open Parse

variable (deeper : Deeper)

/-- An element of a composite literal; a nested literal may leave out its type. -/
def literalElement : Parse Unit := do
  if ← atOperator .leftBrace then deeper.literalValue
  else discard (deeper.expression .free)

/-- The body of a composite literal: elements, each perhaps with a key, in braces. -/
def literalValue : Parse Unit := do
  expectOperator .leftBrace
  commaList .rightBrace do
    literalElement deeper
    if ← eatOperator .colon then literalElement deeper
  expectOperator .rightBrace

/-- What follows a point: a name, a type assertion, or the guard of a type switch. The guard is read
anywhere, and the statement around it decides whether it stands where it may. -/
def selector (base : Shape) : Parse Shape := do
  match ← peekKind 0 with
  | some .identifier =>
    bump
    return if base = .identifier then .qualifiedName else .other
  | some (.operator .leftParen) =>
    bump
    let shape ←
      if ← atKeyword .type then do
        bump
        pure Shape.typeGuard
      else do
        discard deeper.type
        pure Shape.other
    expectOperator .rightParen
    return shape
  | _ => rejectNext ["name", "("]

/-- Up to `colons` more bounds of a slice expression, each behind a colon and each optional. -/
def sliceBounds : Nat → Parse Unit
  | 0 => return
  | colons + 1 => do
    if ← eatOperator .colon then
      if !(← atOperator .colon) then
        if !(← atOperator .rightBracket) then discard (deeper.expression .free)
      sliceBounds colons

/-- What stands in the brackets of an index or slice expression. -/
def indexOrSlice : Parse Unit := do
  if !(← atOperator .colon) then discard (deeper.expression .free)
  sliceBounds deeper 2

def callArguments : Parse Unit :=
  commaList .rightParen do
    discard (deeper.expression .free)
    discard (eatOperator .ellipsis)

/-- Reads what an operator appends to an operand of the given shape, and answers the shape of the
whole, or nothing if the operator does not belong to the operand. -/
def suffix (place : Place) (shape : Shape) (operator : Operator) : Parse (Option Shape) := do
  match operator with
  | .period =>
    bump
    return some (← selector deeper shape)
  | .leftBracket =>
    bump
    indexOrSlice deeper
    expectOperator .rightBracket
    return some .other
  | .leftParen =>
    bump
    callArguments deeper
    expectOperator .rightParen
    return some .other
  | .leftBrace =>
    if shape.takesLiteralBody ∧ (place = .free ∨ ¬ shape.isTypeName) then
      literalValue deeper
      return some .other
    else return none
  | _ => return none

/-- Selectors, indices, calls, assertions and literal bodies behind an operand. -/
def suffixes (place : Place) (operand : Expression) : Parse Expression :=
  iterate (fun (expression : Expression) => do
    match ← peekOperator 0 with
    | none => return .done expression
    | some operator =>
      match ← suffix deeper place expression.shape operator with
      | none => return .done expression
      | some shape => return .again ⟨shape, ← spanFrom expression.span⟩) operand

def operandShape (token : Token) : Parse Shape := do
  match token.kind with
  | .literal _ =>
    bump
    return .other
  | .identifier =>
    bump
    return .identifier
  | .operator .leftParen =>
    bump
    discard (deeper.expression .free)
    expectOperator .rightParen
    return .other
  | .operator .leftBracket => arrayType deeper true
  | .keyword .map => mapType deeper
  | .keyword .struct => structType deeper
  | .keyword .chan | .keyword .interface =>
    discard deeper.type
    return .other
  | .keyword .func =>
    bump
    signature deeper
    optionalBlock deeper
    return .other
  | _ => unexpected token ["expression"]

def operand : Parse Expression := do
  match ← peek 0 with
  | none => endOfInput ["expression"]
  | some token =>
    let shape ← operandShape deeper token
    return ⟨shape, ← spanFrom token.span⟩

def primary (place : Place) : Parse Expression := do suffixes deeper place (← operand deeper)

def isUnary (operator : Operator) : Bool := [.add, .sub, .not, .xor, .and].contains operator

/-- A unary expression whose own level is already entered. -/
def unaryBody (place : Place) : Parse Expression := do
  match ← peek 0 with
  | none => endOfInput ["expression"]
  | some token =>
    if token.operator?.any isUnary then
      bump
      let operand ← deeper.unary place
      return ⟨.other, token.span.merge operand.span⟩
    else if token.operator? = some .arrow then
      bump
      if ← atKeyword .chan then
        bump
        discard deeper.type
        suffixes deeper place ⟨.other, ← spanFrom token.span⟩
      else
        let operand ← deeper.unary place
        return ⟨.other, token.span.merge operand.span⟩
    else primary deeper place

/-- Goes on behind a left operand with the operators that bind at least as tightly as `tightness`. -/
def binaryTail (place : Place) (tightness : Nat) (left : Expression) : Parse Expression :=
  iterate (fun (left : Expression) => do
    match ← peekOperator 0 with
    | none => return .done left
    | some operator =>
      if binds : operator.precedence = 0 ∨ operator.precedence < tightness then return .done left
      else
        bump
        let operand ← deeper.unary place
        let right ← binaryTail place (operator.precedence + 1) operand
        return .again ⟨.other, left.span.merge right.span⟩) left
termination_by 6 - tightness
decreasing_by
  have := operator.precedence_le
  omega

/-- An expression whose operators bind at least as tightly as `tightness`. -/
def binary (place : Place) (tightness : Nat) : Parse Expression := do
  binaryTail deeper place tightness (← deeper.unary place)

/-- Goes on with an expression whose first operand is already read. -/
def expressionFrom (place : Place) (operand : Expression) : Parse Expression := do
  binaryTail deeper place 1 (← suffixes deeper place operand)

/-- The number of expressions in a list, with its first and last one. -/
structure ExpressionList where
  count : Nat
  first : Expression
  last : Expression
  deriving DecidableEq, Repr

def expressionListFrom (place : Place) (first : Expression) : Parse ExpressionList :=
  iterate (fun (list : ExpressionList) => do
    if ← eatOperator .comma then
      let last ← deeper.expression place
      return .again { list with count := list.count + 1, last := last }
    else return .done list) ⟨1, first, first⟩

def expressionList (place : Place) : Parse ExpressionList := do
  expressionListFrom deeper place (← deeper.expression place)

end GoPrompt.Grammar
