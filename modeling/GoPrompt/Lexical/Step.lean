import GoPrompt.Lexical.Diagnostic
import GoPrompt.Token.Basic

/-! What one call of the lexer answers. -/

namespace GoPrompt

inductive LexStep where
  | token (token : Token)
  /-- A token that the end of the input cuts off, with the kind that it has so far. -/
  | truncated (token : Token) (cutoff : Cutoff)
  /-- Text that no continuation turns into a token, delivered so that it is rejected at its place. -/
  | invalid (token : Token) (diagnostic : LexDiagnostic)
  /-- The input ends inside a comment. -/
  | incomplete (cutoff : Cutoff)
  | endOfInput
  deriving DecidableEq, Repr

namespace LexStep

def token? : LexStep → Option Token
  | .token read | .truncated read _ | .invalid read _ => some read
  | .incomplete _ | .endOfInput => none

/-- Whether the step says that the whole input is read. -/
def endsInput : LexStep → Bool
  | .incomplete _ | .endOfInput => true
  | .token _ | .truncated .. | .invalid .. => false

end LexStep

end GoPrompt
