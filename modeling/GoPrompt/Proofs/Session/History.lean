import GoPrompt.Proofs.Session.Blocks
import GoPrompt.Proofs.Session.Reachable
import GoPrompt.Proofs.Text.Pieces

/-! The history as a log with a limit. A source adds its lines at the end, a limit takes the oldest entries away, and a
selection is there exactly if it lies within the numbers of the entries. However a history is changed, its entries are
lines of the recorded sources, in their order. -/

namespace GoPrompt

/-- The lines that a text consists of, with newlines between them. -/
structure LinesOf (text : String) (lines : List String) : Prop where
  nonempty : lines ≠ []
  single : ∀ line ∈ lines, '\n' ∉ line.toList
  whole : joined lines = text

private theorem linesOf_splitNewlines (source : String) :
    LinesOf source ((Text.splitNewlines source.toList).map String.ofList) where
  nonempty := mt List.map_eq_nil_iff.mp (List.splitOn_ne_nil '\n' source.toList)
  single line mem := by
    obtain ⟨piece, isPiece, rfl⟩ := List.mem_map.mp mem
    rw [String.toList_ofList]
    exact Text.not_mem_of_mem_splitOn isPiece
  whole := by
    refine String.toList_inj.mp ?_
    rw [joined_toList, List.map_map]
    simp [Function.comp_def, Text.splitNewlines, List.intercalate_splitOn]

theorem LinesOf.pieces {text : String} {lines : List String} (linesOf : LinesOf text lines) :
    Text.splitNewlines text.toList = lines.map (·.toList) := by
  rw [← linesOf.whole]
  exact Text.splitNewlines_joined linesOf.nonempty linesOf.single

/-- What the history keeps of a source: everything but a blank line at the end of several. -/
inductive Keeps : String → String → Prop
  | cut (front blank : String) (single : '\n' ∉ blank.toList) (isBlank : IsBlankLine blank) :
      Keeps (front ++ "\n" ++ blank) front
  | whole (source : String)
      (ends : ∀ front blank, source = front ++ "\n" ++ blank → '\n' ∉ blank.toList → ¬ IsBlankLine blank) :
      Keeps source source

namespace History

private theorem recordedLines_eq {source : String} {lines : List String} (linesOf : LinesOf source lines) :
    recordedLines source = if 1 < lines.length ∧ lines.getLast?.any (fun line => (Text.trim line.toList).isEmpty) = true
      then lines.dropLast else lines := by
  have asStrings : ∀ lines : List String, (lines.map (·.toList)).map String.ofList = lines := fun lines => by simp
  simp only [recordedLines, linesOf.pieces, List.length_map, List.getLast?_map, Option.any_map]
  split
  next => rw [← List.map_dropLast, asStrings]
  next => exact asStrings lines

/-- The entries for a source are the lines of what the history keeps of it. -/
private theorem recordedLines_keeps (source : String) :
    ∃ kept, Keeps source kept ∧ LinesOf kept (recordedLines source) := by
  have linesOf := linesOf_splitNewlines source
  generalize (Text.splitNewlines source.toList).map String.ofList = lines at linesOf
  rw [recordedLines_eq linesOf]
  split
  next cut =>
    obtain ⟨several, endsBlank⟩ := cut
    obtain ⟨blank, isLast, isBlank⟩ := (Option.any_eq_true _ _).mp endsBlank
    obtain ⟨front, rfl⟩ := List.getLast?_eq_some_iff.mp isLast
    rw [List.dropLast_concat]
    have nonempty : front ≠ [] := by
      rintro rfl
      exact absurd several (Nat.lt_irrefl 1)
    refine ⟨joined front, ?_, nonempty, fun line mem => linesOf.single line (List.mem_append_left _ mem), rfl⟩
    rw [← linesOf.whole, joined_append nonempty]
    exact .cut _ blank (linesOf.single blank (by simp)) isBlank
  next kept =>
    refine ⟨source, .whole source fun front blank splits single isBlank => kept ?_, linesOf⟩
    -- Behind the newline in front of a blank line, this line is the last of several.
    have inFront := linesOf_splitNewlines front
    generalize (Text.splitNewlines front.toList).map String.ofList = earlier at inFront
    have both : LinesOf source (earlier ++ [blank]) := by
      refine ⟨by simp, fun line mem => ?_, ?_⟩
      · rcases List.mem_append.mp mem with before | last
        · exact inFront.single line before
        · exact List.mem_singleton.mp last ▸ single
      · rw [joined_append inFront.nonempty, inFront.whole, splits]
    have same : lines = earlier ++ [blank] :=
      (List.map_inj_right fun _ _ => String.toList_inj.mp).mp (linesOf.pieces.symm.trans both.pieces)
    have some := List.length_pos_iff.mpr inFront.nonempty
    rw [same]
    refine ⟨by simpa using some, ?_⟩
    rw [List.getLast?_concat]
    exact isBlank

/-- Something that is done to a history. -/
inductive Change where
  | record (source : String)
  | remove (range : HistoryRange)
  | clear

def Change.lines : Change → List String
  | record source => recordedLines source
  | remove _ | clear => []

/-- The history after a change. A selection that is not there changes nothing. -/
def apply (history : History) : Change → History
  | .record source => history.record source
  | .remove range => (history.remove range).toOption.elim history (·.2)
  | .clear => history.clear

def applyAll (history : History) (changes : List Change) : History := changes.foldl apply history

/-- What a source does to the history: its lines come behind the entries, of which the last ones stay. If there is
room for all the lines, their numbers select what has been kept of the source, and of the older entries the last ones
are left. -/
def Records (history : History) (source : String) : Prop :=
  ∃ kept lines, Keeps source kept ∧ LinesOf kept lines ∧
    history.record source = { history with entries := latest history.limit (history.entries ++ lines) } ∧
    ((∀ most, history.limit = some most → lines.length ≤ most) →
      ∃ older, older <:+ history.entries ∧ (history.record source).entries = older ++ lines ∧
        (history.record source).replay (.span (some (older.length + 1)) (some (history.record source).length)) =
          .ok kept)

/-- What a selection does: within the numbers of the entries it stands for a part of them, and otherwise for nothing. -/
def Selects (history : History) (range : HistoryRange) : Prop :=
  let start := range.start.getD 1
  let stop := range.stop.getD history.length
  (1 ≤ start ∧ start ≤ stop ∧ stop ≤ history.length →
    ∃ front selected behind, history.entries = front ++ selected ++ behind ∧ front.length + 1 = start ∧
      (front ++ selected).length = stop ∧ history.replay range = .ok (joined selected) ∧
      history.remove range = .ok ((start, stop), { history with entries := front ++ behind })) ∧
  (¬ (1 ≤ start ∧ start ≤ stop ∧ stop ≤ history.length) →
    (∃ error, history.replay range = .error error ∧ history.remove range = .error error) ∧
      history.apply (.remove range) = history)

end History

private theorem HistoryRange.resolve_of_within {range : HistoryRange} {length : Nat} (starts : 1 ≤ range.start.getD 1)
    (ordered : range.start.getD 1 ≤ range.stop.getD length) (stops : range.stop.getD length ≤ length) :
    range.resolve length = .ok (range.start.getD 1, range.stop.getD length) := by
  have start : ¬ (range.start.getD 1 < 1 ∨ length < range.start.getD 1) := by omega
  have stop : ¬ (range.stop.getD length < 1 ∨ length < range.stop.getD length) := by omega
  simp only [resolve, if_neg start, if_neg stop, if_neg (Nat.not_lt.mpr ordered)]

private theorem HistoryRange.resolve_fails {range : HistoryRange} {length : Nat}
    (outside : ¬ (1 ≤ range.start.getD 1 ∧ range.start.getD 1 ≤ range.stop.getD length ∧ range.stop.getD length ≤ length)) :
    ∃ error, range.resolve length = .error error := by
  unfold resolve
  dsimp only
  split
  next => exact ⟨_, rfl⟩
  next start =>
    split
    next => exact ⟨_, rfl⟩
    next stop => exact ⟨_, if_pos (by omega)⟩

namespace History

variable {history : History} {range : HistoryRange}

private theorem replay_of_resolve {bounds : Nat × Nat} (resolved : range.resolve history.length = .ok bounds) :
    history.replay range = .ok (joined ((history.entries.take bounds.2).drop (bounds.1 - 1))) := by
  rw [replay, resolved]
  rfl

private theorem selects (history : History) (range : HistoryRange) : history.Selects range := by
  refine ⟨fun ⟨starts, ordered, stops⟩ => ?_, fun outside => ?_⟩
  · have resolved := HistoryRange.resolve_of_within starts ordered stops
    generalize range.start.getD 1 = start at *
    generalize range.stop.getD history.length = stop at *
    have upTo : history.entries.take (start - 1) ++ (history.entries.take stop).drop (start - 1) =
        history.entries.take stop := by
      have parts := List.take_append_drop (start - 1) (history.entries.take stop)
      rwa [List.take_take, Nat.min_eq_left (by omega)] at parts
    have within : stop ≤ history.entries.length := stops
    refine ⟨history.entries.take (start - 1), (history.entries.take stop).drop (start - 1), history.entries.drop stop,
      ?_, ?_, ?_, replay_of_resolve resolved, ?_⟩
    · rw [upTo, List.take_append_drop]
    · rw [List.length_take]
      omega
    · rw [upTo, List.length_take, Nat.min_eq_left within]
    · rw [remove, resolved]
      rfl
  · obtain ⟨error, failed⟩ := HistoryRange.resolve_fails outside
    have removed : history.remove range = .error error := by rw [remove, failed]; rfl
    refine ⟨⟨error, ?_, removed⟩, ?_⟩
    · rw [replay, failed]
      rfl
    · rw [apply, removed]
      rfl

private theorem record_eq (history : History) (source : String) :
    history.record source = { history with entries := latest history.limit (history.entries ++ recordedLines source) } := by
  cases history with
  | mk entries limit => cases limit <;> rfl

private theorem exists_older {limit : Option Nat} {lines : List String}
    (room : ∀ most, limit = some most → lines.length ≤ most) (entries : List String) :
    ∃ older, older <:+ entries ∧ latest limit (entries ++ lines) = older ++ lines := by
  cases limit with
  | none => exact ⟨entries, List.suffix_refl _, rfl⟩
  | some most =>
    refine ⟨entries.drop ((entries ++ lines).length - most), List.drop_suffix _ _, List.drop_append_of_le_length ?_⟩
    have fits := room most rfl
    rw [List.length_append]
    omega

private theorem records (history : History) (source : String) : history.Records source := by
  obtain ⟨kept, keeps, linesOf⟩ := recordedLines_keeps source
  refine ⟨kept, recordedLines source, keeps, linesOf, record_eq history source, fun room => ?_⟩
  obtain ⟨older, isSuffix, entries⟩ := exists_older room history.entries
  rw [← record_entries] at entries
  have nonempty := List.length_pos_iff.mpr linesOf.nonempty
  have length : (history.record source).length = older.length + (recordedLines source).length := by
    rw [History.length, entries, List.length_append]
  have resolved : (HistoryRange.span (some (older.length + 1)) (some (history.record source).length)).resolve
      (history.record source).length = .ok (older.length + 1, (history.record source).length) :=
    HistoryRange.resolve_of_within (Nat.le_add_left _ _) (show older.length + 1 ≤
      (history.record source).length by omega)
      (Nat.le_refl _)
  refine ⟨older, isSuffix, entries, ?_⟩
  rw [replay_of_resolve resolved, entries, Nat.add_sub_cancel,
    List.take_of_length_le (by rw [List.length_append]; exact Nat.le_of_eq length.symm), List.drop_left, linesOf.whole]

/-- A history that keeps to its limit, with some of the lines that have been recorded, in their order. -/
structure IsLog (limit : Option Nat) (recorded : List String) (history : History) : Prop where
  limited : history.limit = limit
  bounded : ∀ most, limit = some most → history.length ≤ most
  inOrder : history.entries.Sublist recorded

section

variable {limit : Option Nat} {recorded : List String}

private theorem latest_suffix (limit : Option Nat) (entries : List String) : latest limit entries <:+ entries := by
  cases limit with
  | none => exact List.suffix_refl _
  | some most => exact List.drop_suffix _ _

theorem IsLog.apply (isLog : IsLog limit recorded history) (change : Change) :
    IsLog limit (recorded ++ change.lines) (history.apply change) := by
  cases change with
  | record source =>
    refine ⟨(history.record_limit source).trans isLog.limited, fun most isLimit => ?_, ?_⟩
    · rw [History.apply, History.length, record_entries]
      exact latest_length_le (isLog.limited.trans isLimit) _
    · rw [History.apply, record_entries]
      exact (latest_suffix _ _).sublist.trans (isLog.inOrder.append (.refl _))
  | remove range =>
    rw [Change.lines, List.append_nil]
    by_cases within : 1 ≤ range.start.getD 1 ∧ range.start.getD 1 ≤ range.stop.getD history.length ∧
        range.stop.getD history.length ≤ history.length
    · obtain ⟨front, selected, behind, entries, -, -, -, removed⟩ := (history.selects range).1 within
      have fewer : (front ++ behind).Sublist history.entries := by
        rw [entries]
        exact (List.sublist_append_left front selected).append (.refl behind)
      rw [History.apply, removed]
      exact ⟨isLog.limited, fun most isLimit => Nat.le_trans fewer.length_le (isLog.bounded most isLimit),
        fewer.trans isLog.inOrder⟩
    · rw [((history.selects range).2 within).2]
      exact isLog
  | clear => exact ⟨isLog.limited, fun most _ => Nat.zero_le most, List.nil_sublist _⟩

private theorem IsLog.applyAll (isLog : IsLog limit recorded history) (changes : List Change) :
    IsLog limit (recorded ++ changes.flatMap Change.lines) (history.applyAll changes) := by
  induction changes generalizing history recorded with
  | nil => rwa [List.flatMap_nil, List.append_nil]
  | cons change rest ih =>
    rw [List.flatMap_cons, ← List.append_assoc]
    exact ih (isLog.apply change)

end

/-- However a history is changed, it keeps to its limit and holds lines of the recorded sources in their order. It then
takes a further source as a log does, and answers a selection exactly if it lies within the numbers of its entries. -/
theorem changes_logged (limit : Option Nat) (changes : List Change) :
    let history := ({ limit := limit } : History).applyAll changes
    IsLog limit (changes.flatMap Change.lines) history ∧ (∀ source, history.Records source) ∧
      (∀ range, history.Selects range) ∧ history.clear = { limit := limit } := by
  intro history
  have begun : IsLog limit [] { limit := limit } := ⟨rfl, fun _ _ => Nat.zero_le _, List.nil_sublist []⟩
  have isLog := begun.applyAll changes
  refine ⟨isLog, history.records, history.selects, ?_⟩
  rw [clear, isLog.limited]

end History

end GoPrompt
