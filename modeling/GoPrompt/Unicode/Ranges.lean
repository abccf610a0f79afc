/-! Character classes beyond ASCII are finite unions of closed ranges of code points, written as
sorted lists of first and last members. -/

namespace GoPrompt.Unicode

/-- Whether a code point lies in one of the given closed ranges. -/
def inRanges (ranges : List (Nat × Nat)) (code : Nat) : Bool :=
  ranges.any fun range => decide (range.1 ≤ code) && decide (code ≤ range.2)

theorem inRanges_iff (ranges : List (Nat × Nat)) (code : Nat) :
    inRanges ranges code = true ↔ ∃ range ∈ ranges, range.1 ≤ code ∧ code ≤ range.2 := by
  simp [inRanges]

end GoPrompt.Unicode
