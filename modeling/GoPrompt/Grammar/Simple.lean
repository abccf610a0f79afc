import GoPrompt.Grammar.Declaration

/-! Simple statements: expressions, sends, increments, assignments and short declarations, and, where a
whole statement is expected, labeled statements. -/

namespace GoPrompt.Grammar

open Parse

variable (deeper : Deeper)

/-- What a simple statement may be where it stands. -/
inductive SimpleMode where
  /-- A statement of its own, which may have a label. -/
  | statement
  /-- A clause of a control statement. -/
  | clause
  /-- The first clause of a `for` statement, which may be a range. -/
  | forClause
  deriving DecidableEq, Repr

structure SimpleStatement where
  kind : StatementKind
  /-- The shape of the last expression. -/
  last : Option Shape := none
  isRange : Bool := false
  deriving DecidableEq, Repr

namespace SimpleStatement

def isTypeSwitchGuard (statement : SimpleStatement) : Bool :=
  (statement.kind = .expression || statement.kind = .shortVarDecl) && statement.last = some .typeGuard

end SimpleStatement

def labeledStatement : Parse Unit := do
  match ← peekKind 0 with
  | none => endOfInput ["statement"]
  | some (.semicolon _) | some (.operator .rightBrace) => return
  | some _ => discard (deeper.statement .block)

/-- The rest of a range clause, behind its keyword. -/
def rangeClause (place : Place) : Parse SimpleStatement := do
  bump
  discard (deeper.expression place)
  return { kind := .for, isRange := true }

/-- The right side of a definition or assignment, behind its operator. -/
def rightSide (place : Place) (mayRange : Bool) (kind : StatementKind) : Parse SimpleStatement := do
  let isRange ← if mayRange then atKeyword .range else pure false
  if isRange then rangeClause deeper place
  else
    let values ← expressionList deeper place
    return { kind := kind, last := some values.last.shape }

/-- A list of expressions that no operator follows is a statement only if it has one element. -/
def loneExpression (left : ExpressionList) : Parse SimpleStatement :=
  if left.count = 1 then return { kind := .expression, last := some left.last.shape }
  else rejectNext [":=", "=", ","]

/-- Finishes a simple statement that starts with the given expressions. -/
def simpleFrom (place : Place) (mode : SimpleMode) (left : ExpressionList) : Parse SimpleStatement := do
  match ← peekOperator 0 with
  | none => loneExpression left
  | some .define =>
    bump
    rightSide deeper place (mode = .forClause) .shortVarDecl
  | some operator =>
    if operator.isAssignment then
      bump
      rightSide deeper place (mode = .forClause && operator = .assign) .assignment
    else if operator = .colon ∧ mode = .statement ∧ left.count = 1 ∧ left.first.shape = .identifier then
      bump
      labeledStatement deeper
      return { kind := .labeled }
    else if operator = .arrow ∧ left.count = 1 then
      bump
      let value ← deeper.expression place
      return { kind := .send, last := some value.shape }
    else if (operator = .inc ∨ operator = .dec) ∧ left.count = 1 then
      bump
      return { kind := .incDec }
    else loneExpression left

def simpleStatement (place : Place) (mode : SimpleMode) : Parse SimpleStatement := do
  let isRange ← if mode = .forClause then atKeyword .range else pure false
  if isRange then rangeClause deeper place
  else simpleFrom deeper place mode (← expressionList deeper place)

end GoPrompt.Grammar
