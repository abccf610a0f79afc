import GoPrompt.Source.Bytes
import GoPrompt.Source.Position

/-! The lines of a text, by the offsets at which they start. The line of an offset is found by halving the list
of these. -/

namespace GoPrompt

/-- The offsets behind the newlines of a text that starts at `offset`. -/
def offsetsBehindNewlines (offset : Nat) : List Char → List Nat
  | [] => []
  | c :: rest =>
    let behind := offset + c.utf8Size
    if c = '\n' then behind :: offsetsBehindNewlines behind rest else offsetsBehindNewlines behind rest

theorem lt_of_mem_offsetsBehindNewlines {text : List Char} {offset start : Nat}
    (mem : start ∈ offsetsBehindNewlines offset text) : offset < start := by
  induction text generalizing offset with
  | nil => cases mem
  | cons c rest ih =>
    have positive := c.utf8Size_pos
    simp only [offsetsBehindNewlines] at mem
    split at mem
    next =>
      rcases List.mem_cons.mp mem with rfl | later
      · omega
      · have := ih later
        omega
    next =>
      have := ih mem
      omega

theorem offsetsBehindNewlines_ascending (offset : Nat) (text : List Char) :
    (offsetsBehindNewlines offset text).Pairwise (· < ·) := by
  induction text generalizing offset with
  | nil => exact .nil
  | cons c rest ih =>
    simp only [offsetsBehindNewlines]
    split
    next => exact .cons (fun _ => lt_of_mem_offsetsBehindNewlines) (ih _)
    next => exact ih _

structure LineIndex where
  text : List Char
  /-- The offsets at which the lines start. -/
  starts : Array Nat
  begins : starts[0]? = some 0
  ascending : starts.toList.Pairwise (· < ·)

namespace LineIndex

def ofText (text : List Char) : LineIndex where
  text := text
  starts := (0 :: offsetsBehindNewlines 0 text).toArray
  begins := rfl
  ascending := .cons (fun _ => lt_of_mem_offsetsBehindNewlines) (offsetsBehindNewlines_ascending 0 text)

/-- The number of lines; what follows the last newline is a line, even if it is empty. -/
def lineCount (index : LineIndex) : Nat := index.starts.size

/-- Looks for an offset among the starts from the index `low` on, up to the index `high`. Answers its index, or as an
error the index at which it would have to be inserted. -/
def search (starts : Array Nat) (offset low high : Nat) (bounded : high ≤ starts.size) : Except Nat Nat :=
  if _open : low < high then
    let middle := low + (high - low) / 2
    if starts[middle] = offset then .ok middle
    else if starts[middle] < offset then search starts offset (middle + 1) high bounded
    else search starts offset low middle (by omega)
  else .error low
termination_by high - low

/-- The number of the line of an offset, counted from zero. -/
def lineAt (index : LineIndex) (offset : Nat) : Nat :=
  match search index.starts offset 0 index.starts.size (Nat.le_refl _) with
  | .ok line => line
  | .error place => place - 1

theorem search_within {starts : Array Nat} {offset low high : Nat} (bounded : high ≤ starts.size) (ordered : low ≤ high) :
    match search starts offset low high bounded with
    | .ok line => line < high
    | .error place => place ≤ high := by
  fun_induction search starts offset low high bounded with
  | case1 low high bounded _ middle found => dsimp only; omega
  | case2 low high bounded _ middle _ _ ih => exact ih (by omega)
  | case3 low high bounded _ middle _ _ ih =>
    have within := ih (by omega)
    cases found : search starts offset low middle (by omega) with
    | ok line => rw [found] at within; dsimp only at within ⊢; omega
    | error place => rw [found] at within; dsimp only at within ⊢; omega
  | case4 low high bounded => exact ordered

theorem lineAt_lt (index : LineIndex) (offset : Nat) : index.lineAt offset < index.starts.size := by
  obtain ⟨nonempty, -⟩ := Array.getElem?_eq_some_iff.mp index.begins
  have within := @search_within index.starts offset _ _ (Nat.le_refl _) (Nat.zero_le _)
  unfold lineAt
  split at within
  next line found => rw [found]; exact within
  next place missed => rw [missed]; dsimp only; omega

/-- How many characters of a text that starts at `start` do so before `offset`. -/
def charsBefore (offset start : Nat) : List Char → Nat
  | [] => 0
  | c :: rest => if start < offset then charsBefore offset (start + c.utf8Size) rest + 1 else 0

/-- The position of a byte offset. An offset past the end counts as the end, and one inside a character as the next
boundary. -/
def position (index : LineIndex) (offset : Nat) : Position :=
  let offset := min offset (byteSize index.text)
  have inside := index.lineAt_lt offset
  let start := index.starts[index.lineAt offset]
  { line := clampOffset (index.lineAt offset + 1)
    column := clampOffset (charsBefore offset start (dropBytes start index.text) + 1) }

end LineIndex

def Position.ofOffset (text : List Char) (offset : Nat) : Position := (LineIndex.ofText text).position offset

def lineCount (text : List Char) : Nat := (LineIndex.ofText text).lineCount

end GoPrompt
