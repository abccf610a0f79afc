import GoPrompt.Grammar.Expression

/-! Declarations of imports, constants, variables and types. -/

namespace GoPrompt.Grammar

open Parse

variable (deeper : Deeper)

/-- One item, or a group of them in parentheses. -/
def group (item : Parse Unit) : Parse Unit := do
  if ← eatOperator .leftParen then
    semicolonList .rightParen item
    expectOperator .rightParen
  else item

/-- A path, perhaps behind a name or a point. -/
def importItem : Parse Unit := do
  match ← peekKind 0 with
  | some (.operator .period) | some .identifier => bump
  | _ => pure ()
  if (← peekKind 0) = some (.literal .string) then bump else rejectNext ["import path"]

def optionalValues : Parse Unit := do
  if ← eatOperator .assign then discard (expressionList deeper .free)

/-- Names with a type and values, of which each may be missing. -/
def constItem : Parse Unit := do
  nameList
  if !(← atOperator .assign) then
    if ← atType then discard deeper.type
  optionalValues deeper

/-- Names with a type or values, or both. -/
def varItem : Parse Unit := do
  nameList
  if ← eatOperator .assign then discard (expressionList deeper .free)
  else
    discard deeper.type
    optionalValues deeper

def typeItem : Parse Unit := do
  expectName
  discard (eatOperator .assign)
  discard deeper.type

def importDeclaration : Parse StatementKind := do
  expectKeyword .import
  group importItem
  return .declaration .import

def constDeclaration : Parse StatementKind := do
  expectKeyword .const
  group (constItem deeper)
  return .declaration .const

def varDeclaration : Parse StatementKind := do
  expectKeyword .var
  group (varItem deeper)
  return .declaration .var

def typeDeclaration : Parse StatementKind := do
  expectKeyword .type
  group (typeItem deeper)
  return .declaration .type

end GoPrompt.Grammar
