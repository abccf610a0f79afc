import GoPrompt.Grammar.Simple

/-! Control statements. Their headers are read with the rule that a brace after a type name opens the
body. -/

namespace GoPrompt.Grammar

open Parse

variable (deeper : Deeper)

def ifHeader : Parse Unit := do
  if ← atOperator .leftBrace then rejectNext ["condition"]
  else
    let first ←
      if ← atSemicolon then pure none
      else some <$> simpleStatement deeper .header .clause
    let condition ←
      if ← atSemicolon then do
        bump
        if ← atOperator .leftBrace then rejectNext ["condition"]
        else some <$> simpleStatement deeper .header .clause
      else pure first
    if condition.any (·.kind = .expression) then return else rejectNext ["condition expression"]

/-- An `if` statement whose own level is already entered. -/
def ifBody : Parse Unit := do
  expectKeyword .if
  ifHeader deeper
  block deeper
  if ← atKeyword .else then
    bump
    match ← peekKind 0 with
    | some (.keyword .if) => deeper.ifStatement
    | some (.operator .leftBrace) => block deeper
    | _ => rejectNext ["if statement or block"]

/-- The two clauses of a `for` header behind its first semicolon, which is still to be read. -/
def forClauses : Parse Unit := do
  bump
  if !(← atSemicolon) then
    let condition ← simpleStatement deeper .header .clause
    if condition.kind ≠ .expression then rejectNext ["for loop condition"]
  expectSemicolon [";"]
  if !(← atOperator .leftBrace) then discard (simpleStatement deeper .header .clause)

def forHeader : Parse Unit := do
  if ← atOperator .leftBrace then return
  else if ← atSemicolon then forClauses deeper
  else
    let first ← simpleStatement deeper .header .forClause
    if first.isRange then return
    else if ← atSemicolon then forClauses deeper
    else if first.kind = .expression then return
    else rejectNext [Operator.leftBrace.lexeme]

def forStatement : Parse StatementKind := do
  expectKeyword .for
  forHeader deeper
  block deeper
  return .for

/-- The tag of a `switch` statement, behind an optional simple statement. -/
def switchTag : Parse (Option SimpleStatement) := do
  let first ←
    if ← atSemicolon then pure none
    else some <$> simpleStatement deeper .header .clause
  if ← atSemicolon then
    bump
    if ← atOperator .leftBrace then return none
    else some <$> simpleStatement deeper .header .clause
  else return first

/-- Reads the header of a `switch` statement and tells whether it switches on a type. -/
def switchHeader : Parse Bool := do
  if ← atOperator .leftBrace then return false
  else
    match ← switchTag deeper with
    | none => return false
    | some tag =>
      if tag.isTypeSwitchGuard then return true
      else if tag.kind = .expression then return false
      else rejectNext ["switch expression"]

/-- The clauses in the braces of a `switch` or `select` statement; `cases` reads what stands between
`case` and the colon. -/
def clauses (cases : Parse Unit) : Parse Unit :=
  repeatUntil do
    match ← peekKind 0 with
    | some (.operator .rightBrace) => return true
    | some (.keyword .case) =>
      bump
      cases
      expectOperator .colon
      statementList deeper
      return false
    | some (.keyword .default) =>
      bump
      expectOperator .colon
      statementList deeper
      return false
    | _ => rejectNext ["case", "default", Operator.rightBrace.lexeme]

def switchStatement : Parse StatementKind := do
  expectKeyword .switch
  let onType ← switchHeader deeper
  expectOperator .leftBrace
  clauses deeper (if onType then typeList deeper else discard (expressionList deeper .free))
  expectOperator .rightBrace
  return if onType then .typeSwitch else .switch

/-- A clause of a `select` statement sends or receives, and may keep what it receives. -/
def communication : Parse Unit := do
  let statement ← simpleStatement deeper .free .clause
  if [.send, .expression, .shortVarDecl, .assignment].contains statement.kind then return
  else rejectNext ["send or receive"]

def selectStatement : Parse StatementKind := do
  expectKeyword .select
  expectOperator .leftBrace
  clauses deeper (communication deeper)
  expectOperator .rightBrace
  return .select

end GoPrompt.Grammar
