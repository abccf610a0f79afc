import GoPrompt.Lexical.Cause
import GoPrompt.Token.Kind

/-! The outcome of reading one literal. A reader measures in characters from the start of the literal
and knows nothing of what stands in front of it, so that it gives the same answer wherever the
literal stands. -/

namespace GoPrompt

/-- A defect of a literal, with the range of characters that it concerns. -/
structure Flaw where
  first : Nat
  last : Nat
  cause : LexCause
  deriving DecidableEq, Repr

inductive LiteralOutcome where
  | complete (kind : LiteralKind)
  | cutOff (kind : LiteralKind) (cause : CutoffCause)
  | invalid (flaw : Flaw)
  deriving DecidableEq, Repr

/-- How many characters a literal takes, and what it is. -/
structure LiteralScan where
  length : Nat
  outcome : LiteralOutcome
  deriving DecidableEq, Repr

end GoPrompt
