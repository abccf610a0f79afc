import GoPrompt.Grammar.Control

/-! Statements, and the tower of levels on which the grammar stands. -/

namespace GoPrompt.Grammar

open Parse

section

variable (deeper : Deeper)

/-- At the prompt, `func` begins the declaration of a function or method, or a statement that starts
with a function literal. The span is that of the keyword. -/
def functionStatement (start : Span) : Parse StatementKind := do
  expectKeyword .func
  match ← peekKind 0 with
  | some .identifier =>
    bump
    signature deeper
    optionalBlock deeper
    return .declaration .func
  | some (.operator .leftParen) =>
    parameters deeper
    let isMethod ←
      if (← peekKind 0) = some .identifier then do pure ((← peekOperator 1) == some .leftParen)
      else pure false
    if isMethod then
      bump
      signature deeper
      optionalBlock deeper
      return .declaration .method
    else
      result deeper
      optionalBlock deeper
      let first ← expressionFrom deeper .free ⟨.other, ← spanFrom start⟩
      let left ← expressionListFrom deeper .free first
      return (← simpleFrom deeper .free .statement left).kind
  | _ => rejectNext ["function name", "("]

def statementKind (context : Context) (token : Token) : Parse StatementKind := do
  match token.kind with
  | .keyword .const => constDeclaration deeper
  | .keyword .var => varDeclaration deeper
  | .keyword .type => typeDeclaration deeper
  | .keyword .import => if context = .topLevel then importDeclaration else unexpected token ["statement"]
  | .keyword .func =>
    if context = .topLevel then functionStatement deeper token.span
    else return (← simpleStatement deeper .free .statement).kind
  | .keyword .go =>
    bump
    discard (deeper.expression .free)
    return .go
  | .keyword .defer =>
    bump
    discard (deeper.expression .free)
    return .defer
  | .keyword .return =>
    bump
    match ← peekKind 0 with
    | none | some (.semicolon _) | some (.operator .rightBrace) => return .return
    | some _ =>
      discard (expressionList deeper .free)
      return .return
  | .keyword .break =>
    bump
    if (← peekKind 0) = some .identifier then bump
    return .break
  | .keyword .continue =>
    bump
    if (← peekKind 0) = some .identifier then bump
    return .continue
  | .keyword .goto =>
    bump
    expectName
    return .goto
  | .keyword .fallthrough =>
    bump
    return .fallthrough
  | .keyword .if =>
    ifBody deeper
    return .if
  | .keyword .for => forStatement deeper
  | .keyword .switch => switchStatement deeper
  | .keyword .select => selectStatement deeper
  | .operator .leftBrace =>
    block deeper
    return .block
  | _ => return (← simpleStatement deeper .free .statement).kind

/-- A statement whose own level is already entered. -/
def statementBody (context : Context) : Parse Statement := do
  match ← peek 0 with
  | none => endOfInput ["statement"]
  | some token =>
    let kind ← statementKind deeper context token
    return ⟨kind, ← spanFrom token.span⟩

end

/-- The readers with `levels` levels left, of a grammar that allows `limit` levels in all. Each body
runs one level below its reader. -/
def levels (limit : Nat) : Nat → Deeper
  | 0 => Deeper.none limit
  | left + 1 =>
    { expression := fun place state => binary (levels limit left) place 1 state
      unary := fun place state => unaryBody (levels limit left) place state
      type := fun state => typeBody (levels limit left) state
      literalValue := fun state => literalValue (levels limit left) state
      statement := fun context state => statementBody (levels limit left) context state
      ifStatement := fun state => ifBody (levels limit left) state }

/-- Reads a statement at the prompt. The depth that earlier failures have not given back is taken from
the limit. -/
def topLevelStatement (limit : Nat) : Parse Statement := fun state =>
  (levels limit (limit - state.depth)).statement .topLevel state

end GoPrompt.Grammar
