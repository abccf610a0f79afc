import GoPrompt.Grammar.TopLevel
import GoPrompt.Proofs.Calls.Marked

/-! The marked grammar from declarations up to whole texts. -/

namespace GoPrompt.Marked

open Parse Calling
open Grammar (Place Context ExpressionList SimpleMode SimpleStatement SyncStop)

variable {m : Type → Type} [Monad m] [MonadLiftT Parse m] [Calling m]

section declarations

variable (readers : Readers m)

def group (item : m Unit) : m Unit := call do
  if ← eatOperator .leftParen then
    semicolonList .rightParen item
    expectOperator .rightParen
  else item

def importItem : m Unit := call do
  match ← peekKind 0 with
  | some (.operator .period) | some .identifier => bump
  | _ => pure ()
  if (← peekKind 0) = some (.literal .string) then bump else rejectNext ["import path"]

def optionalValues : m Unit := call do
  if ← eatOperator .assign then discard (expressionList readers .free)

def constItem : m Unit := call do
  nameList
  if !(← atOperator .assign) then
    if ← atType then discard readers.type
  optionalValues readers

def varItem : m Unit := call do
  nameList
  if ← eatOperator .assign then discard (expressionList readers .free)
  else
    discard readers.type
    optionalValues readers

def typeItem : m Unit := call do
  expectName
  discard (liftM (eatOperator .assign) : m Bool)
  discard readers.type

def importDeclaration : m StatementKind := call do
  expectKeyword .import
  group importItem
  return .declaration .import

def constDeclaration : m StatementKind := call do
  expectKeyword .const
  group (constItem readers)
  return .declaration .const

def varDeclaration : m StatementKind := call do
  expectKeyword .var
  group (varItem readers)
  return .declaration .var

def typeDeclaration : m StatementKind := call do
  expectKeyword .type
  group (typeItem readers)
  return .declaration .type

end declarations

section simple

variable (readers : Readers m)

def labeledStatement : m Unit := call do
  match ← peekKind 0 with
  | none => endOfInput ["statement"]
  | some (.semicolon _) | some (.operator .rightBrace) => return
  | some _ => discard (readers.statement .block)

def rangeClause (place : Place) : m SimpleStatement := call do
  bump
  discard (readers.expression place)
  return { kind := .for, isRange := true }

def rightSide (place : Place) (mayRange : Bool) (kind : StatementKind) : m SimpleStatement := call do
  let isRange ← if mayRange then atKeyword .range else pure false
  if isRange then rangeClause readers place
  else
    let values ← expressionList readers place
    return { kind := kind, last := some values.last.shape }

def loneExpression (left : ExpressionList) : m SimpleStatement := call <|
  if left.count = 1 then return { kind := .expression, last := some left.last.shape }
  else rejectNext [":=", "=", ","]

def simpleFrom (place : Place) (mode : SimpleMode) (left : ExpressionList) : m SimpleStatement := call do
  match ← peekOperator 0 with
  | none => loneExpression left
  | some .define =>
    bump
    rightSide readers place (mode = .forClause) .shortVarDecl
  | some operator =>
    if operator.isAssignment then
      bump
      rightSide readers place (mode = .forClause && operator = .assign) .assignment
    else if operator = .colon ∧ mode = .statement ∧ left.count = 1 ∧ left.first.shape = .identifier then
      bump
      labeledStatement readers
      return { kind := .labeled }
    else if operator = .arrow ∧ left.count = 1 then
      bump
      let value ← readers.expression place
      return { kind := .send, last := some value.shape }
    else if (operator = .inc ∨ operator = .dec) ∧ left.count = 1 then
      bump
      return { kind := .incDec }
    else loneExpression left

def simpleStatement (place : Place) (mode : SimpleMode) : m SimpleStatement := call do
  let isRange ← if mode = .forClause then atKeyword .range else pure false
  if isRange then rangeClause readers place
  else simpleFrom readers place mode (← expressionList readers place)

end simple

section control

variable (readers : Readers m)

/-- The condition behind the first clause of a header, which is the condition itself if no semicolon follows. -/
def conditionFrom (first : Option SimpleStatement) : m Unit := do
  let condition ←
    if ← atSemicolon then do
      bump
      if ← atOperator .leftBrace then rejectNext ["condition"]
      else some <$> simpleStatement readers .header .clause
    else pure first
  if condition.any (·.kind = .expression) then return else rejectNext ["condition expression"]

def ifHeader : m Unit := call do
  if ← atOperator .leftBrace then rejectNext ["condition"]
  else
    let first ←
      if ← atSemicolon then pure none
      else some <$> simpleStatement readers .header .clause
    conditionFrom readers first

def ifBody : m Unit := call do
  expectKeyword .if
  ifHeader readers
  block readers
  if ← atKeyword .else then
    bump
    match ← peekKind 0 with
    | some (.keyword .if) => readers.ifStatement
    | some (.operator .leftBrace) => block readers
    | _ => rejectNext ["if statement or block"]

def forClauses : m Unit := call do
  bump
  if !(← atSemicolon) then
    let condition ← simpleStatement readers .header .clause
    if condition.kind ≠ .expression then rejectNext ["for loop condition"]
  expectSemicolon [";"]
  if !(← atOperator .leftBrace) then discard (simpleStatement readers .header .clause)

def forHeader : m Unit := call do
  if ← atOperator .leftBrace then return
  else if ← atSemicolon then forClauses readers
  else
    let first ← simpleStatement readers .header .forClause
    if first.isRange then return
    else if ← atSemicolon then forClauses readers
    else if first.kind = .expression then return
    else rejectNext [Operator.leftBrace.lexeme]

def forStatement : m StatementKind := call do
  expectKeyword .for
  forHeader readers
  block readers
  return .for

/-- The tag behind the first clause of a header, which is the tag itself if no semicolon follows. -/
def tagFrom (first : Option SimpleStatement) : m (Option SimpleStatement) := do
  if ← atSemicolon then
    bump
    if ← atOperator .leftBrace then return none
    else some <$> simpleStatement readers .header .clause
  else return first

def switchTag : m (Option SimpleStatement) := call do
  let first ←
    if ← atSemicolon then pure none
    else some <$> simpleStatement readers .header .clause
  tagFrom readers first

def switchHeader : m Bool := call do
  if ← atOperator .leftBrace then return false
  else
    match ← switchTag readers with
    | none => return false
    | some tag =>
      if tag.isTypeSwitchGuard then return true
      else if tag.kind = .expression then return false
      else rejectNext ["switch expression"]

def clauses (cases : m Unit) : m Unit := call <|
  repeatUntil do
    match ← peekKind 0 with
    | some (.operator .rightBrace) => return true
    | some (.keyword .case) =>
      bump
      cases
      expectOperator .colon
      statementList readers
      return false
    | some (.keyword .default) =>
      bump
      expectOperator .colon
      statementList readers
      return false
    | _ => rejectNext ["case", "default", Operator.rightBrace.lexeme]

def switchStatement : m StatementKind := call do
  expectKeyword .switch
  let onType ← switchHeader readers
  expectOperator .leftBrace
  clauses readers (if onType then typeList readers else discard (expressionList readers .free))
  expectOperator .rightBrace
  return if onType then .typeSwitch else .switch

def communication : m Unit := call do
  let statement ← simpleStatement readers .free .clause
  if [.send, .expression, .shortVarDecl, .assignment].contains statement.kind then return
  else rejectNext ["send or receive"]

def selectStatement : m StatementKind := call do
  expectKeyword .select
  expectOperator .leftBrace
  clauses readers (communication readers)
  expectOperator .rightBrace
  return .select

end control

section statements

variable (readers : Readers m)

/-- What follows the first parameters behind `func`: those may have been the receiver of a method. -/
def functionFrom (start : Span) (isMethod : Bool) : m StatementKind := do
  if isMethod then
    bump
    signature readers
    optionalBlock readers
    return .declaration .method
  else
    result readers
    optionalBlock readers
    let first ← expressionFrom readers .free ⟨.other, ← spanFrom start⟩
    let left ← expressionListFrom readers .free first
    return (← simpleFrom readers .free .statement left).kind

def functionStatement (start : Span) : m StatementKind := call do
  expectKeyword .func
  match ← peekKind 0 with
  | some .identifier =>
    bump
    signature readers
    optionalBlock readers
    return .declaration .func
  | some (.operator .leftParen) =>
    parameters readers
    let isMethod ←
      if (← peekKind 0) = some .identifier then do pure ((← peekOperator 1) == some .leftParen)
      else pure false
    functionFrom readers start isMethod
  | _ => rejectNext ["function name", "("]

def statementKind (context : Context) (token : Token) : m StatementKind := call do
  match token.kind with
  | .keyword .const => constDeclaration readers
  | .keyword .var => varDeclaration readers
  | .keyword .type => typeDeclaration readers
  | .keyword .import => if context = .topLevel then importDeclaration else unexpected token ["statement"]
  | .keyword .func =>
    if context = .topLevel then functionStatement readers token.span
    else return (← simpleStatement readers .free .statement).kind
  | .keyword .go =>
    bump
    discard (readers.expression .free)
    return .go
  | .keyword .defer =>
    bump
    discard (readers.expression .free)
    return .defer
  | .keyword .return =>
    bump
    match ← peekKind 0 with
    | none | some (.semicolon _) | some (.operator .rightBrace) => return .return
    | some _ =>
      discard (expressionList readers .free)
      return .return
  | .keyword .break =>
    bump
    if (← peekKind 0) = some .identifier then bump
    return .break
  | .keyword .continue =>
    bump
    if (← peekKind 0) = some .identifier then bump
    return .continue
  | .keyword .goto =>
    bump
    expectName
    return .goto
  | .keyword .fallthrough =>
    bump
    return .fallthrough
  | .keyword .if =>
    ifBody readers
    return .if
  | .keyword .for => forStatement readers
  | .keyword .switch => switchStatement readers
  | .keyword .select => selectStatement readers
  | .operator .leftBrace =>
    block readers
    return .block
  | _ => return (← simpleStatement readers .free .statement).kind

def statementBody (context : Context) : m Statement := call do
  match ← peek 0 with
  | none => endOfInput ["statement"]
  | some token =>
    let kind ← statementKind readers context token
    return ⟨kind, ← spanFrom token.span⟩

end statements

/-- The readers where no level is left. Each is called before it finds that. -/
def Readers.none (limit : Nat) : Readers m where
  expression _ := call (Grammar.beyondLimit limit : Parse Expression)
  unary _ := call (Grammar.beyondLimit limit : Parse Expression)
  type := call (Grammar.beyondLimit limit : Parse Shape)
  literalValue := call (Grammar.beyondLimit limit : Parse Unit)
  statement _ := call (Grammar.beyondLimit limit : Parse Statement)
  ifStatement := call (Grammar.beyondLimit limit : Parse Unit)

/-- The readers with `levels` levels left, of a grammar that allows `limit` levels in all. -/
def levels (limit : Nat) : Nat → Readers m
  | 0 => .none limit
  | left + 1 =>
    { expression := fun place => call (binary (levels limit left) place 1)
      unary := fun place => call (unaryBody (levels limit left) place)
      type := call (typeBody (levels limit left))
      literalValue := call (literalValue (levels limit left))
      statement := fun context => call (statementBody (levels limit left) context)
      ifStatement := call (ifBody (levels limit left)) }

def topLevelStatement (limit : Nat) : m Statement := do
  let state ← (get : Parse ParseState)
  (levels limit (limit - state.depth)).statement .topLevel

/-- What ends a text behind its statement. -/
def textEnd (statement : Statement) : m Statement := do
  match ← peek 0 with
  | none => return statement
  | some token => unexpected token ["end of statement"]

def wholeText (limit : Nat) : m Statement := call do
  match ← peek 0 with
  | none => endOfInput ["statement"]
  | some first =>
    if isSemicolon first.kind then unexpected first ["statement"]
    else
      let statement ← topLevelStatement limit
      if ← atSemicolon then bump
      textEnd statement

def synchronize : m SyncStop := call <|
  iterate (fun (depth : Nat) => do
    match ← onStream TokenStream.next with
    | none => return .done .endOfInput
    | some token =>
      match token.kind with
      | .semicolon .endOfInput => return .done .endOfInput
      | .semicolon _ => return if depth = 0 then .done .separator else .again depth
      | kind => return .again (Grammar.depthAfter kind depth)) 0

end GoPrompt.Marked
