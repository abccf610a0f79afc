import GoPrompt.Source.Span

/-! Lines and columns, as a reader counts them: both from one, and columns in characters. -/

namespace GoPrompt

structure Position where
  line : Nat
  column : Nat
  deriving DecidableEq, Repr, Inhabited

namespace Position

def text (position : Position) : String := s!"{position.line}:{position.column}"

end Position

end GoPrompt
