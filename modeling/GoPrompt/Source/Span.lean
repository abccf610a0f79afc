/-! Places in a source text. An offset counts UTF-8 bytes from the start of the text, and a span is
the half-open range of bytes between two offsets of one source. -/

namespace GoPrompt

/-- Offsets, lines and columns have 32 bits; this is the largest of each. -/
def maxOffset : Nat := 0xFFFFFFFF

/-- A number beyond the largest offset is reported as the largest offset. -/
def clampOffset (value : Nat) : Nat := min value maxOffset

structure Span where
  source : Nat
  start : Nat
  stop : Nat
  ordered : start ≤ stop := by omega
  deriving DecidableEq, Repr

namespace Span

/-- The span between two offsets, in whichever order they come. -/
def between (source first second : Nat) : Span where
  source := source
  start := min first second
  stop := max first second

def point (source offset : Nat) : Span where
  source := source
  start := offset
  stop := offset

/-- The span of `length` bytes from `start` on. -/
def ofLength (source start length : Nat) : Span where
  source := source
  start := start
  stop := start + length

/-- The smallest span over both, in the source of the first. -/
def merge (first second : Span) : Span where
  source := first.source
  start := min first.start second.start
  stop := max first.stop second.stop
  ordered := by have := first.ordered; omega

def length (span : Span) : Nat := span.stop - span.start

def isEmpty (span : Span) : Bool := span.start == span.stop

theorem between_of_le {first second : Nat} (source : Nat) (inOrder : first ≤ second) :
    between source first second = { source := source, start := first, stop := second } := by
  simp only [between, mk.injEq, true_and]
  omega

end Span

end GoPrompt
