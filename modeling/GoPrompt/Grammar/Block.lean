import GoPrompt.Grammar.Levels

/-! Lists of statements, as they stand in blocks and in the clauses of `switch` and `select`. -/

namespace GoPrompt.Grammar

open Parse

variable (deeper : Deeper)

/-- Whether a token ends a list of statements; it is not part of the list. -/
def endsStatementList : TokenKind → Bool
  | .operator .rightBrace | .keyword .case | .keyword .default => true
  | _ => false

def statementList : Parse Unit :=
  repeatUntil do
    match ← peek 0 with
    | none => endOfInput [Operator.rightBrace.lexeme]
    | some token =>
      if endsStatementList token.kind then return true
      else if isSemicolon token.kind then
        bump
        return false
      else
        discard (deeper.statement .block)
        match ← peekKind 0 with
        | some (.semicolon _) =>
          bump
          return false
        | some (.operator .rightBrace) => return true
        | _ => rejectNext [";", Operator.rightBrace.lexeme]

def block : Parse Unit := do
  expectOperator .leftBrace
  statementList deeper
  expectOperator .rightBrace

def optionalBlock : Parse Unit := do
  if ← atOperator .leftBrace then block deeper

end GoPrompt.Grammar
