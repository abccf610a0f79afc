import GoPrompt.Source.Bytes
import GoPrompt.Source.LineIndex

/-! The position of a place between two characters: its line is one more than the newlines in front of it, and its
column one more than the characters behind the last of these. Places further on have later positions.

The search in the lines of a text ends in the line that an offset belongs to, and the column counts the characters
from there on. So the positions of the places between characters are those that a reader counts, and no two of them are
the same. -/

namespace GoPrompt

private theorem length_le_byteSize (text : List Char) : text.length ≤ byteSize text := by
  induction text with
  | nil => exact Nat.le_refl 0
  | cons c rest ih =>
    have positive := c.utf8Size_pos
    rw [List.length_cons, byteSize_cons]
    omega

namespace Position

def behind (text : List Char) : Position := ⟨text.count '\n' + 1, (text.reverse.takeWhile (· ≠ '\n')).length + 1⟩

/-- A position whose numbers have the size of an offset. -/
def clamped (position : Position) : Position := ⟨clampOffset position.line, clampOffset position.column⟩

/-- Only behind the largest texts a number is cut down to the size of an offset. -/
theorem clamped_behind {before after : List Char} (fits : byteSize (before ++ after) < maxOffset) :
    (behind before).clamped = behind before := by
  have lines : before.count '\n' ≤ before.length := List.count_le_length
  have columns : (before.reverse.takeWhile (· ≠ '\n')).length ≤ before.length := by
    have part := (List.takeWhile_prefix (l := before.reverse) (· ≠ '\n')).length_le
    rwa [List.length_reverse] at part
  have bytes := length_le_byteSize before
  rw [byteSize_append] at fits
  simp only [clamped, behind, clampOffset, mk.injEq]
  omega

/-- Whether a position comes in front of another one, line by line. -/
def Before (first second : Position) : Prop :=
  first.line < second.line ∨ (first.line = second.line ∧ first.column < second.column)

theorem Before.trans {first second third : Position} (before : first.Before second) (after : second.Before third) :
    first.Before third := by
  simp only [Before] at before after ⊢
  omega

private theorem Before.irrefl (position : Position) : ¬ position.Before position := by
  simp only [Before]
  omega

private theorem behind_before_concat (text : List Char) (c : Char) : (behind text).Before (behind (text ++ [c])) := by
  by_cases newline : c = '\n'
  · exact .inl (by simp [behind, newline])
  · exact .inr (by simp [behind, newline])

private theorem behind_before {between : List Char} (nonempty : between ≠ []) (before : List Char) :
    (behind before).Before (behind (before ++ between)) := by
  induction between generalizing before with
  | nil => exact absurd rfl nonempty
  | cons c rest ih =>
    have next := behind_before_concat before c
    rw [List.append_cons]
    by_cases last : rest = []
    · rwa [last, List.append_nil]
    · exact next.trans (ih last (before ++ [c]))

end Position

private theorem offsetsBehindNewlines_append (offset : Nat) (first second : List Char) :
    offsetsBehindNewlines offset (first ++ second) =
      offsetsBehindNewlines offset first ++ offsetsBehindNewlines (offset + byteSize first) second := by
  induction first generalizing offset with
  | nil => rfl
  | cons c rest ih =>
    simp only [List.cons_append, offsetsBehindNewlines, ih, byteSize_cons, Nat.add_assoc]
    split <;> rfl

private theorem length_offsetsBehindNewlines (offset : Nat) (text : List Char) :
    (offsetsBehindNewlines offset text).length = text.count '\n' := by
  induction text generalizing offset with
  | nil => rfl
  | cons c rest ih =>
    by_cases newline : c = '\n' <;> simp [offsetsBehindNewlines, newline, ih]

/-- The shortest beginning of a text that reaches an offset, which is at its end or within its last character. -/
structure Reaches (before : List Char) (offset : Nat) : Prop where
  whole : offset ≤ byteSize before
  short : ∀ length < before.length, byteSize (before.take length) < offset

private theorem byteSize_take_lt {text : List Char} {length : Nat} (within : length < text.length) :
    byteSize (text.take length) < byteSize text := by
  have parts := congrArg byteSize (List.take_append_drop length text)
  have left := length_le_byteSize (text.drop length)
  rw [byteSize_append] at parts
  rw [List.length_drop] at left
  omega

theorem Reaches.boundary (before : List Char) : Reaches before (byteSize before) :=
  ⟨Nat.le_refl _, fun _ => byteSize_take_lt⟩

theorem Reaches.inside {before : List Char} {c : Char} {offset : Nat} (start : byteSize before < offset)
    (stop : offset < byteSize before + c.utf8Size) : Reaches (before ++ [c]) offset where
  whole := by
    rw [byteSize_append, byteSize_cons, byteSize_nil]
    omega
  short length within := by
    rw [List.length_append, List.length_singleton] at within
    rw [List.take_append_of_le_length (Nat.le_of_lt_succ within)]
    have part := byteSize_append (before.take length) (before.drop length)
    rw [List.take_append_drop] at part
    omega

/-- A text in front of the last line that it begins, which may still be empty. -/
structure LastLine (before front line : List Char) : Prop where
  whole : before = front ++ line
  single : '\n' ∉ line
  starts : front = [] ∨ ∃ earlier, front = earlier ++ ['\n']

private theorem exists_lastLine (before : List Char) :
    ∃ front line, LastLine before front line ∧ line.length = (before.reverse.takeWhile (· ≠ '\n')).length := by
  refine ⟨(before.reverse.dropWhile (· ≠ '\n')).reverse, (before.reverse.takeWhile (· ≠ '\n')).reverse, ⟨?_, ?_, ?_⟩,
    List.length_reverse⟩
  · rw [← List.reverse_append, List.takeWhile_append_dropWhile, List.reverse_reverse]
  · intro mem
    have kept := List.all_eq_true.mp List.all_takeWhile _ (List.mem_reverse.mp mem)
    simp at kept
  · cases left : before.reverse.dropWhile (· ≠ '\n') with
    | nil => exact .inl rfl
    | cons c rest =>
      have stops := List.head?_dropWhile_not (· ≠ '\n') before.reverse
      rw [left] at stops
      obtain rfl : c = '\n' := by simpa using stops
      exact .inr ⟨rest.reverse, List.reverse_cons⟩

section

variable {before front line : List Char} {offset : Nat}

/-- Up to the last line of a beginning, the lines start as they do in front of it; the others start behind it. -/
private theorem LastLine.starts_eq (last : LastLine before front line) (after : List Char) :
    (LineIndex.ofText (before ++ after)).starts.toList =
      (0 :: offsetsBehindNewlines 0 front) ++ offsetsBehindNewlines (byteSize before) after := by
  have onLine : offsetsBehindNewlines (0 + byteSize front) line = [] := by
    rw [← List.length_eq_zero_iff, length_offsetsBehindNewlines]
    exact List.count_eq_zero.mpr last.single
  simp only [LineIndex.ofText, List.cons_append]
  rw [offsetsBehindNewlines_append, last.whole, offsetsBehindNewlines_append, onLine, List.append_nil, Nat.zero_add]

theorem LastLine.start (last : LastLine before front line) :
    (0 :: offsetsBehindNewlines 0 front)[front.count '\n']? = some (byteSize front) := by
  rcases last.starts with rfl | ⟨earlier, rfl⟩
  · rfl
  · rw [offsetsBehindNewlines_append, ← List.cons_append, List.count_append, List.getElem?_append_right]
    all_goals simp [length_offsetsBehindNewlines, offsetsBehindNewlines]

private theorem LastLine.start_le (last : LastLine before front line) (reaches : Reaches before offset) :
    byteSize front ≤ offset := by
  obtain rfl := last.whole
  by_cases empty : line = []
  · rcases last.starts with rfl | ⟨earlier, rfl⟩
    · exact Nat.zero_le _
    · have newline := reaches.short earlier.length (by simp [empty])
      rw [List.append_assoc, List.take_left' rfl] at newline
      rw [byteSize_append]
      exact newline
  · have starts := reaches.short front.length (by simpa using List.length_pos_iff.mpr empty)
    rw [List.take_left' rfl] at starts
    exact Nat.le_of_lt starts

end

namespace LineIndex

private theorem starts_le (index : LineIndex) {first second : Nat} (ordered : first ≤ second)
    (inside : second < index.starts.size) :
    index.starts[first] ≤ index.starts[second] := by
  rcases Nat.lt_or_eq_of_le ordered with less | rfl
  · have ascending := List.pairwise_iff_getElem.mp index.ascending first second (by simp; omega)
      (by simpa using inside) less
    simp only [Array.getElem_toList] at ascending
    exact Nat.le_of_lt ascending
  · exact Nat.le_refl _

section

variable {index : LineIndex} {offset line : Nat} (inside : line < index.starts.size)
  (reached : index.starts[line] ≤ offset)
  (beyond : ∀ later (within : later < index.starts.size), line < later → offset < index.starts[later])
include reached beyond

/-- The search keeps the place behind the line of the offset between its bounds, so that it finds the start of that line
or stops right behind it. -/
private theorem search_line {low high : Nat} (bounded : high ≤ index.starts.size) (above : low ≤ line + 1)
    (below : line + 1 ≤ high) :
    search index.starts offset low high bounded = .ok line ∨
    search index.starts offset low high bounded = .error (line + 1) := by
  fun_induction search index.starts offset low high bounded with
  | case1 low high bounded _ middle found =>
    have notBeyond : ¬ line < middle := fun further => by
      have := beyond middle (by omega) further
      omega
    have notBefore : ¬ middle < line := fun less => by
      have strict := List.pairwise_iff_getElem.mp index.ascending middle line (by simp; omega)
        (by simpa using inside) less
      simp only [Array.getElem_toList] at strict
      omega
    exact .inl (congrArg _ (by omega))
  | case2 low high bounded _ middle _ less ih =>
    have notBeyond : ¬ line < middle := fun further => by
      have := beyond middle (by omega) further
      omega
    exact ih (by omega) below
  | case3 low high bounded _ middle different notLess ih =>
    have further : line < middle := Nat.lt_of_not_le fun notFurther => by
      have := index.starts_le notFurther inside
      omega
    exact ih above (by omega)
  | case4 low high bounded closed => exact .inr (congrArg _ (by omega))

private theorem lineAt_eq : index.lineAt offset = line := by
  unfold lineAt
  rcases search_line inside reached beyond (Nat.le_refl _) (Nat.zero_le _) inside with found | missed
  · rw [found]
  · rw [missed]
    rfl

end

private theorem charsBefore_eq {line : List Char} {offset start : Nat} (whole : offset ≤ start + byteSize line)
    (short : ∀ length < line.length, start + byteSize (line.take length) < offset) (after : List Char) :
    charsBefore offset start (line ++ after) = line.length := by
  induction line generalizing start with
  | nil =>
    cases after with
    | nil => rfl
    | cons c rest => exact if_neg (Nat.not_lt.mpr whole)
  | cons c rest ih =>
    have starts : start < offset := short 0 (Nat.succ_pos _)
    have later : charsBefore offset (start + c.utf8Size) (rest ++ after) = rest.length := by
      refine ih ?_ fun length within => ?_
      · rw [byteSize_cons] at whole
        omega
      · have next := short (length + 1) (Nat.succ_lt_succ within)
        rw [List.take_succ_cons, byteSize_cons] at next
        omega
    rw [List.cons_append, charsBefore, if_pos starts, later, List.length_cons]

/-- The position of an offset is the one behind the shortest beginning that reaches it. -/
private theorem position_of_reaches {before : List Char} {offset : Nat} (reaches : Reaches before offset)
    (after : List Char) :
    (ofText (before ++ after)).position offset = (Position.behind before).clamped := by
  obtain ⟨front, line, last, length⟩ := exists_lastLine before
  have lines : before.count '\n' = front.count '\n' := by
    rw [last.whole, List.count_append, List.count_eq_zero.mpr last.single, Nat.add_zero]
  have starts := last.starts_eq after
  have startsAt : (ofText (before ++ after)).starts[front.count '\n']? = some (byteSize front) := by
    rw [← Array.getElem?_toList, starts, List.getElem?_append_left]
    · exact last.start
    · simp [length_offsetsBehindNewlines]
  obtain ⟨inside, start⟩ := Array.getElem?_eq_some_iff.mp startsAt
  have isLine : (ofText (before ++ after)).lineAt offset = front.count '\n' := by
    refine lineAt_eq inside (start ▸ last.start_le reaches) fun later within further => ?_
    have mem : (ofText (before ++ after)).starts[later] ∈ offsetsBehindNewlines (byteSize before) after := by
      rw [← Array.getElem_toList within]
      simp only [starts]
      rw [List.getElem_append_right (by simp [length_offsetsBehindNewlines]; omega)]
      exact List.getElem_mem _
    exact Nat.lt_of_le_of_lt reaches.whole (lt_of_mem_offsetsBehindNewlines mem)
  have onLine : charsBefore offset (byteSize front) (line ++ after) = line.length := by
    refine charsBefore_eq ?_ (fun length within => ?_) after
    · have whole := reaches.whole
      rwa [last.whole, byteSize_append] at whole
    · have short := reaches.short (front.length + length) (by rw [last.whole, List.length_append]; omega)
      rwa [last.whole, List.take_length_add_append, byteSize_append] at short
  have clipped : min offset (byteSize (before ++ after)) = offset := by
    have whole := reaches.whole
    rw [byteSize_append]
    omega
  simp only [position, show (ofText (before ++ after)).text = before ++ after from rfl, clipped,
    isLine, start, Position.clamped, Position.behind, lines, ← length]
  rw [last.whole, List.append_assoc, dropBytes_byteSize, onLine]

section

variable {text before after before' after' : List Char}

private theorem exists_between (splits : text = before ++ after) (splits' : text = before' ++ after')
    (less : byteSize before < byteSize before') : ∃ between, between ≠ [] ∧ before' = before ++ between := by
  have ordered : before <+: before' ∨ before' <+: before :=
    List.prefix_or_prefix_of_prefix (splits ▸ List.prefix_append before after)
      (splits' ▸ List.prefix_append before' after')
  rcases ordered with ⟨between, rfl⟩ | ⟨between, rfl⟩
  · refine ⟨between, ?_, rfl⟩
    rintro rfl
    rw [List.append_nil] at less
    exact absurd less (Nat.lt_irrefl _)
  · rw [byteSize_append] at less
    omega

private theorem eq_of_byteSize (splits : text = before ++ after) (splits' : text = before' ++ after')
    (same : byteSize before = byteSize before') : before = before' := by
  have ordered : before <+: before' ∨ before' <+: before :=
    List.prefix_or_prefix_of_prefix (splits ▸ List.prefix_append before after)
      (splits' ▸ List.prefix_append before' after')
  have empty : ∀ between : List Char, byteSize between = 0 → between = [] := fun between none =>
    List.length_eq_zero_iff.mp (Nat.le_zero.mp (none ▸ length_le_byteSize between))
  rcases ordered with ⟨between, rfl⟩ | ⟨between, rfl⟩
  all_goals
    rw [byteSize_append] at same
    rw [empty between (by omega), List.append_nil]

private theorem position_boundary (fits : byteSize text < maxOffset) (splits : text = before ++ after) :
    (ofText text).position (byteSize before) = .behind before := by
  subst splits
  rw [position_of_reaches (.boundary before), Position.clamped_behind fits]

private theorem position_before (fits : byteSize text < maxOffset) (splits : text = before ++ after)
    (splits' : text = before' ++ after') (less : byteSize before < byteSize before') :
    ((ofText text).position (byteSize before)).Before ((ofText text).position (byteSize before')) := by
  obtain ⟨between, nonempty, rfl⟩ := exists_between splits splits' less
  rw [position_boundary fits splits, position_boundary fits splits']
  exact Position.behind_before nonempty before

end

/-- The positions of a text are the lines and columns of its places, and tell them apart in their order. -/
theorem position_faithful (text : List Char) (fits : byteSize text < maxOffset) :
    (∀ before after, text = before ++ after → (ofText text).position (byteSize before) =
      ⟨before.count '\n' + 1, (before.reverse.takeWhile (· ≠ '\n')).length + 1⟩) ∧
    (∀ offset, byteSize text ≤ offset → (ofText text).position offset = (ofText text).position (byteSize text)) ∧
    (∀ before after before' after', text = before ++ after → text = before' ++ after' →
      (((ofText text).position (byteSize before)).Before ((ofText text).position (byteSize before')) ↔
          byteSize before < byteSize before') ∧
        ((ofText text).position (byteSize before) = (ofText text).position (byteSize before') → before = before')) ∧
    (∀ before c after offset, text = before ++ c :: after → byteSize before < offset →
      offset < byteSize before + c.utf8Size →
        (ofText text).position offset = (ofText text).position (byteSize (before ++ [c]))) := by
  refine ⟨fun before after => position_boundary fits, fun offset past =>
    ?_, fun before after before' after' splits splits' => ?_, fun before c after offset splits start stop => ?_⟩
  · have whole : byteSize (ofText text).text = byteSize text := rfl
    simp only [position, whole, Nat.min_eq_right past, Nat.min_self]
  · rcases Nat.lt_trichotomy (byteSize before) (byteSize before') with less | same | further
    · have ahead := position_before fits splits splits' less
      refine ⟨iff_of_true ahead less, fun equal => ?_⟩
      rw [equal] at ahead
      exact absurd ahead (Position.Before.irrefl _)
    · obtain rfl := eq_of_byteSize splits splits' same
      exact ⟨iff_of_false (Position.Before.irrefl _) (Nat.lt_irrefl _), fun _ => rfl⟩
    · have behind := position_before fits splits' splits further
      refine ⟨iff_of_false (fun ahead => Position.Before.irrefl _ (ahead.trans behind)) (Nat.lt_asymm further),
        fun equal => ?_⟩
      rw [equal] at behind
      exact absurd behind (Position.Before.irrefl _)
  · rw [List.append_cons] at splits
    subst splits
    rw [position_of_reaches (.inside start stop), position_of_reaches (.boundary _)]

/-- The places of three lines, the second of which has a character of three bytes and the last none at all. -/
theorem position_faithful_lines : byteSize "a\n€b\n".toList < maxOffset ∧
    (ofText "a\n€b\n".toList).position 5 = ⟨2, 2⟩ ∧ (ofText "a\n€b\n".toList).position 3 = ⟨2, 2⟩ ∧
      (ofText "a\n€b\n".toList).position 9 = ⟨3, 1⟩ := by
  have fits : byteSize "a\n€b\n".toList < maxOffset := by decide
  obtain ⟨boundary, past, -, inside⟩ := position_faithful _ fits
  have second := boundary "a\n€".toList "b\n".toList (by decide)
  have last := boundary "a\n€b\n".toList [] (by decide)
  exact ⟨fits, second, (inside "a\n".toList '€' "b\n".toList 3 (by decide) (by decide) (by decide)).trans second,
    (past 9 (by decide)).trans last⟩

end LineIndex

theorem Position.ofOffset_byteSize (before after : List Char) :
    ofOffset (before ++ after) (byteSize before) = (behind before).clamped :=
  LineIndex.position_of_reaches (.boundary before) after

end GoPrompt
