import GoPrompt.Proofs.Session.Replay
import Mathlib.Data.List.TakeWhile

/-! The two spellings of a removal, with the selection as a part of the word and behind it. A selection may have
blanks around its numbers, but the word ends at the first of them: only what is in front of it is read where no blank
comes first. -/

namespace GoPrompt

/-- Whether a number may have a character in it. -/
def writesNumber (c : Char) : Bool := c.isDigit || c == '+'

private theorem Text.writesNumber_of_count? {text : List Char} {number : Nat} (counts : count? text = some number) :
    ∀ c ∈ text, writesNumber c = true := by
  unfold count? at counts
  simp only [Option.ite_none_right_eq_some, Bool.and_eq_true, List.all_eq_true] at counts
  obtain ⟨⟨⟨-, digits⟩, -⟩, -⟩ := counts
  intro c mem
  split at digits
  next rest =>
    rcases List.mem_cons.mp mem with rfl | mem
    · rfl
    · simp [writesNumber, digits c mem]
  next => simp [writesNumber, digits c mem]

section

variable {c : Char} (writes : writesNumber c = true)
include writes

private theorem not_isBlank_of_writesNumber : Unicode.isBlank c = false :=
  have spares : Unicode.SparesBlanks writesNumber := by decide +kernel
  spares.not_isBlank writes

private theorem not_isAlpha_of_writesNumber : c.isAlpha = false := by
  have small : c.toNat < 58 := by
    rcases Bool.or_eq_true_iff.mp writes with digit | plus
    · exact Nat.lt_succ_of_le (UInt32.le_iff_toNat_le.mp (of_decide_eq_true (Bool.and_eq_true_iff.mp digit).2))
    · obtain rfl := beq_iff_eq.mp plus
      decide
  exact @char_of_code 58 (fun c => c.isAlpha = false) (by decide) c small

end

private theorem toLower_eq_self {c : Char} (apart : c.isAlpha = false ∨ c.toLower.isAlpha = false) : c.toLower = c := by
  refine dif_neg fun upper => ?_
  have small : c.toNat < 91 := Nat.lt_succ_of_le (UInt32.le_iff_toNat_le.mp upper.2)
  obtain ⟨letter, lower⟩ := @char_of_code 91 (fun c => c.isUpper = true → c.isAlpha = true ∧ c.toLower.isAlpha = true)
    (by decide) c small (decide_eq_true upper)
  rw [letter, lower] at apart
  exact apart.elim nofun nofun

private theorem not_isAlpha_of_isBlank {c : Char} (blank : Unicode.isBlank c = true) : c.isAlpha = false :=
  have spares : Unicode.SparesBlanks Char.isAlpha := by decide +kernel
  spares.of_isBlank blank

private theorem isBlank_toLower {c : Char} (written : Unicode.isBlank c = false) :
    Unicode.isBlank c.toLower = false := by
  refine Bool.eq_false_iff.mpr fun blank => ?_
  rw [toLower_eq_self (.inr (not_isAlpha_of_isBlank blank)), written] at blank
  cases blank

namespace HistoryRange

/-- What may stand on one side of a dash. -/
inductive IsBound (text : List Char) : Option Nat → Prop
  | opened (blank : Text.trim text = []) : IsBound text none
  | number {number : Nat} (counts : Text.count? (Text.trim text) = some number) : IsBound text (some number)

/-- The texts of a selection, without the blanks around them. -/
inductive Reads : List Char → HistoryRange → Prop
  | single {text : List Char} {number : Nat} (undashed : '-' ∉ text)
      (counts : Text.count? (Text.trim text) = some number) :
      Reads text (.single number)
  | span {first last : List Char} {start stop : Option Nat} (undashed : '-' ∉ first) (undashed' : '-' ∉ last)
      (begins : IsBound first start) (ends : IsBound last stop) : Reads (first ++ '-' :: last) (.span start stop)

private theorem parseIndex_ok_iff {text : List Char} {number : Nat} :
    parseIndex text = .ok number ↔ Text.count? (Text.trim text) = some number := by
  unfold parseIndex
  split <;> simp_all

private theorem parseBound_ok_iff {text : List Char} {bound : Option Nat} :
    parseBound text = .ok bound ↔ IsBound text bound := by
  unfold parseBound
  constructor
  · split
    next blank =>
      rintro ⟨⟩
      exact .opened (List.isEmpty_iff.mp blank)
    next =>
      intro read
      obtain ⟨number, isNumber, rfl⟩ : ∃ number, parseIndex text = .ok number ∧ some number = bound := by
        cases index : parseIndex text with
        | error => rw [index] at read; cases read
        | ok number => rw [index] at read; exact ⟨number, rfl, Except.ok.inj read⟩
      exact .number (parseIndex_ok_iff.mp isNumber)
  · rintro (blank | counts)
    · rw [if_pos (List.isEmpty_iff.mpr blank)]
    · have written : ¬ (Text.trim text).isEmpty = true := by
        intro blank
        rw [List.isEmpty_iff.mp blank] at counts
        cases counts
      rw [if_neg written, parseIndex_ok_iff.mpr counts]
      rfl

private theorem parse_ok_iff {text : List Char} {range : HistoryRange} :
    parse text = .ok range ↔ Reads (Text.trim text) range := by
  unfold parse
  generalize Text.trim text = text
  constructor
  · intro read
    have whole : ['-'].intercalate (text.splitOn '-') = text := List.intercalate_splitOn '-'
    have undashed := fun piece (mem : piece ∈ text.splitOn '-') => Text.not_mem_of_mem_splitOn mem
    split at read
    next index pieces =>
      rw [pieces] at whole undashed
      obtain rfl : index = text := by simpa using whole
      cases number : parseIndex index with
      | error => rw [number] at read; cases read
      | ok number' =>
        rw [number] at read
        obtain rfl := Except.ok.inj read
        exact .single (undashed _ List.mem_cons_self) (parseIndex_ok_iff.mp number)
    next first last pieces =>
      rw [pieces] at whole undashed
      obtain rfl : first ++ '-' :: last = text := by simpa using whole
      cases begins : parseBound first with
      | error => rw [begins] at read; cases read
      | ok start =>
        cases ends : parseBound last with
        | error => rw [begins, ends] at read; cases read
        | ok stop =>
          rw [begins, ends] at read
          obtain rfl := Except.ok.inj read
          exact .span (undashed _ List.mem_cons_self) (undashed _ (List.mem_cons_of_mem _ List.mem_cons_self))
            (parseBound_ok_iff.mp begins) (parseBound_ok_iff.mp ends)
    next => cases read
  · rintro (@⟨_, number, undashed, counts⟩ | @⟨first, last, start, stop, undashed, undashed', begins, ends⟩)
    · rw [List.splitOn_eq_singleton undashed]
      simp only [parseIndex_ok_iff.mpr counts]
      rfl
    · rw [List.splitOn_append_cons_self_of_not_mem undashed, List.splitOn_eq_singleton undashed']
      simp only [parseBound_ok_iff.mpr begins, parseBound_ok_iff.mpr ends]
      rfl

theorem IsBound.written {text : List Char} {bound : Option Nat} (isBound : IsBound text bound) :
    ∀ c ∈ Text.trim text, writesNumber c = true := by
  cases isBound with
  | opened blank => simp [blank]
  | number counts => exact Text.writesNumber_of_count? counts

private theorem IsBound.not_isAlpha {text : List Char} {bound : Option Nat} (isBound : IsBound text bound) :
    ∀ c ∈ text, c.isAlpha = false := by
  intro c mem
  obtain ⟨front, back, splits, blank, blank'⟩ := Text.trim_split text
  rw [splits, List.mem_append, List.mem_append] at mem
  obtain (mem | mem) | mem := mem
  · exact not_isAlpha_of_isBlank (blank c mem)
  · exact not_isAlpha_of_writesNumber (isBound.written c mem)
  · exact not_isAlpha_of_isBlank (blank' c mem)

private theorem Reads.not_isAlpha {text : List Char} {range : HistoryRange} (reads : Reads text range) :
    ∀ c ∈ text, c.isAlpha = false := by
  cases reads with
  | single undashed counts => exact (IsBound.number counts).not_isAlpha
  | span undashed undashed' begins ends =>
    intro c mem
    rcases List.mem_append.mp mem with mem | mem
    · exact begins.not_isAlpha c mem
    · rcases List.mem_cons.mp mem with rfl | mem
      · rfl
      · exact ends.not_isAlpha c mem

/-- Upper and lower case are the same to a selection: it has neither. -/
private theorem reads_lower_iff {text : List Char} {range : HistoryRange} :
    Reads (text.map Char.toLower) range ↔ Reads text range := by
  have keeps : (∀ c ∈ text, c.isAlpha = false ∨ c.toLower.isAlpha = false) →
      text.map Char.toLower = text := fun apart =>
    (List.map_congr_left fun c mem => toLower_eq_self (apart c mem)).trans (List.map_id text)
  constructor
  · intro reads
    rwa [keeps fun c mem => .inr (reads.not_isAlpha _ (List.mem_map_of_mem mem))] at reads
  · intro reads
    rwa [keeps fun c mem => .inl (reads.not_isAlpha c mem)]

private theorem Reads.functional {text : List Char} {range range' : HistoryRange} (trimmed : Text.Trimmed text)
    (reads : Reads text range) (reads' : Reads text range') : range = range' := by
  rw [← trimmed.trim_eq, ← parse_ok_iff] at reads reads'
  exact Except.ok.inj (reads.symm.trans reads')

theorem IsBound.isNumber {text : List Char} {bound : Option Nat} (isBound : IsBound text bound) {c : Char}
    (mem : c ∈ text) (written : Unicode.isBlank c = false) :
    ∃ number, bound = some number ∧ Text.count? (Text.trim text) = some number := by
  cases isBound with
  | opened blank => exact absurd blank (Text.trim_ne_nil mem written)
  | number counts => exact ⟨_, rfl, counts⟩

private theorem IsBound.indented {text : List Char} {bound : Option Nat} (isBound : IsBound text bound)
    (ends : ∀ c ∈ text.getLast?, Unicode.isBlank c = false) {c : Char} (mem : c ∈ text)
    (isBlank : Unicode.isBlank c = true) :
    ∃ number front, bound = some number ∧ text = front ++ Text.trim text ∧ front ≠ [] ∧
    ∀ c ∈ front, Unicode.isBlank c = true := by
  obtain ⟨front, splits, blank⟩ := Text.split_of_ends ends
  have isLast := List.getLast?_eq_some_getLast (List.ne_nil_of_mem mem)
  obtain ⟨number, isNumber, -⟩ := isBound.isNumber (List.mem_of_getLast? isLast) (ends _ isLast)
  refine ⟨number, front, isNumber, splits, ?_, blank⟩
  rintro rfl
  rw [splits] at mem
  rw [not_isBlank_of_writesNumber (isBound.written c mem)] at isBlank
  cases isBlank

theorem IsBound.followed {text : List Char} {bound : Option Nat} (isBound : IsBound text bound)
    (begins : ∀ c ∈ text.head?, Unicode.isBlank c = false) {c : Char} (mem : c ∈ text)
    (isBlank : Unicode.isBlank c = true) :
    ∃ number back, Text.count? (Text.trim text) = some number ∧ text = Text.trim text ++ back ∧ back ≠ [] ∧
      ∀ c ∈ back, Unicode.isBlank c = true := by
  obtain ⟨back, splits, blank⟩ := Text.split_of_begins begins
  have isFirst := List.head?_eq_some_head (List.ne_nil_of_mem mem)
  obtain ⟨number, -, counts⟩ := isBound.isNumber (List.mem_of_mem_head? isFirst) (begins _ isFirst)
  refine ⟨number, back, counts, splits, ?_, blank⟩
  rintro rfl
  rw [splits, List.append_nil] at mem
  rw [not_isBlank_of_writesNumber (isBound.written c mem)] at isBlank
  cases isBlank

/-- The part of a selection in front of its first blank is a selection, but a different one. -/
theorem Reads.word {text : List Char} {range : HistoryRange} (trimmed : Text.Trimmed text) (reads : Reads text range)
    (blank : ∃ c ∈ text, Unicode.isBlank c = true) :
    ∃ range', Reads (text.takeWhile (!Unicode.isBlank ·)) range' ∧ range' ≠ range := by
  obtain ⟨c, mem, isBlank⟩ := blank
  cases reads with
  | single undashed counts =>
    have plain := Text.writesNumber_of_count? counts
    rw [trimmed.trim_eq] at plain
    rw [not_isBlank_of_writesNumber (plain c mem)] at isBlank
    cases isBlank
  | @span first last start stop undashed undashed' begins ends =>
    by_cases inFirst : ∀ c ∈ first, Unicode.isBlank c = false
    · -- The word ends with the dash, and the number that closes the range is behind a blank.
      have plain : ∀ c ∈ first ++ ['-'], Unicode.isBlank c = false := by
        intro c mem
        rcases List.mem_append.mp mem with mem | mem
        · exact inFirst c mem
        · obtain rfl := List.mem_singleton.mp mem
          rfl
      have inLast : c ∈ last := by
        rw [List.append_cons, List.mem_append] at mem
        refine mem.resolve_left fun mem => ?_
        rw [plain c mem] at isBlank
        cases isBlank
      have written : ∀ c ∈ last.getLast?, Unicode.isBlank c = false := fun c isLast =>
        trimmed.ends c (by rw [List.getLast?_append, List.getLast?_cons, Option.mem_def.mp isLast]; rfl)
      obtain ⟨number, front, rfl, splits, indented, blank⟩ := ends.indented written inLast isBlank
      have word := Text.takeWhile_word plain blank indented (Text.trim last)
      rw [← splits, ← List.append_cons] at word
      rw [word]
      exact ⟨.span start none, .span undashed List.not_mem_nil begins (.opened rfl), by simp [HistoryRange.span]⟩
    · -- The word is the first number, which a blank follows.
      obtain ⟨c', inFirst, isBlank'⟩ : ∃ c ∈ first, Unicode.isBlank c = true := by simpa using inFirst
      have written : ∀ c ∈ first.head?, Unicode.isBlank c = false := fun c isFirst =>
        trimmed.begins c (by rw [List.head?_append, Option.mem_def.mp isFirst]; rfl)
      obtain ⟨number, back, counts, splits, behind, blank⟩ := begins.followed written inFirst isBlank'
      have plain := fun c mem => not_isBlank_of_writesNumber (begins.written c mem)
      have word := Text.takeWhile_word plain blank behind ('-' :: last)
      rw [← List.append_assoc, ← splits] at word
      have undashed'' : '-' ∉ Text.trim first :=
        fun dash => undashed (by rw [splits]; exact List.mem_append_left _ dash)
      rw [word]
      exact ⟨.single number,
        .single undashed'' (by rwa [Text.trim_eq_self plain]), by simp [HistoryRange.single, HistoryRange.span]⟩

private theorem Reads.word_iff {text : List Char} {range : HistoryRange} (trimmed : Text.Trimmed text)
    (reads : Reads text range) :
    ∃ range', Reads (text.takeWhile (!Unicode.isBlank ·)) range' ∧
    (range' = range ↔ ∀ c ∈ text, Unicode.isBlank c = false) := by
  by_cases plain : ∀ c ∈ text, Unicode.isBlank c = false
  · rw [List.takeWhile_eq_self_iff.mpr fun c mem => by rw [plain c mem]; rfl]
    exact ⟨range, reads, by simpa using plain⟩
  · obtain ⟨range', reads', other⟩ := reads.word trimmed (by simpa using plain)
    exact ⟨range', reads', fun same => absurd same other, fun all => absurd all plain⟩

end HistoryRange

/-- Two readings of a line that remove the same selection, or of which neither removes anything. -/
inductive SameRemoval : Option (Except CommandError Command) → Option (Except CommandError Command) → Prop
  | removes (range : HistoryRange) : SameRemoval (some (.ok (.remove range))) (some (.ok (.remove range)))
  | errors (first second : CommandError) : SameRemoval (some (.error first)) (some (.error second))

namespace Command

private theorem removal_cases (text : List Char) :
    (∃ range, HistoryRange.Reads (Text.trim text) range ∧ Command.remove <$> parseRange text = .ok (.remove range)) ∨
    (¬ ∃ range, HistoryRange.Reads (Text.trim text) range) ∧
    ∃ error, Command.remove <$> parseRange text = .error error := by
  unfold parseRange
  simp only [← HistoryRange.parse_ok_iff]
  cases HistoryRange.parse text with
  | ok range => exact .inl ⟨range, rfl, rfl⟩
  | error error => exact .inr ⟨by rintro ⟨range, ⟨⟩⟩, _, rfl⟩

private theorem ofWord_glued (home : Option String) (c : Char) (rest argument : List Char) :
    ofWord home (String.ofList ('r' :: 'm' :: c :: rest)) argument = .remove <$> parseRange (c :: rest) := by
  generalize isWord : String.ofList ('r' :: 'm' :: c :: rest) = word
  have text : word.toList = 'r' :: 'm' :: c :: rest := by rw [← isWord, String.toList_ofList]
  have others : ∀ other : String, other.toList.take 2 ≠ ['r', 'm'] ∨ other.toList.length = 2 →
      (word = other) = False := by
    refine fun other apart => eq_false ?_
    rintro rfl
    simp [text] at apart
  simp only [ofWord, others "help" (by decide), others "?" (by decide), others "h" (by decide),
    others "reset" (by decide), others "clear" (by decide), others "v" (by decide), others "vv" (by decide),
    others "q" (by decide), others "exit" (by decide), others "rm" (by decide), others "source" (by decide), or_self,
    ↓reduceIte, text]

section

variable (home : Option String) {range : String} {first : Char} {rest : List Char}
  (isText : range.toList = first :: rest) (starts : startsRange first = true)
include starts

private theorem isBlank_of_startsRange : Unicode.isBlank first = false :=
  have spares : Unicode.SparesBlanks startsRange := by decide +kernel
  spares.not_isBlank starts

include isText

private theorem trim_of_startsRange : Text.trim range.toList = first :: Text.trimEnd rest := by
  have written := isBlank_of_startsRange starts
  rw [isText, Text.trim, Text.trimStart_cons written]
  exact Text.trimEnd_append_cons written [] rest

private theorem trim_line (word : List Char) :
    Text.trim (':' :: word ++ range.toList) = ':' :: word ++ Text.trim range.toList := by
  rw [trim_of_startsRange isText starts, isText]
  exact Text.trimEnd_append_cons (isBlank_of_startsRange starts) (':' :: word) rest

private theorem parse?_glued : parse? home (":rm" ++ range) =
    some (.remove <$> parseRange (((Text.trim range.toList).takeWhile (!Unicode.isBlank ·)).map Char.toLower)) := by
  have written := isBlank_of_startsRange starts
  have trimmed := trim_of_startsRange isText starts
  have line : Text.trim (":rm" ++ range).toList = ':' :: 'r' :: 'm' :: Text.trim range.toList := by
    rw [String.toList_append]
    exact trim_line isText starts ['r', 'm']
  have word : (first :: Text.trimEnd rest).takeWhile (!Unicode.isBlank ·) =
      first :: (Text.trimEnd rest).takeWhile (!Unicode.isBlank ·) :=
    List.takeWhile_cons_of_pos (by simp [written])
  have whole : ('r' :: 'm' :: first :: Text.trimEnd rest).takeWhile (!Unicode.isBlank ·) =
      'r' :: 'm' :: first :: (Text.trimEnd rest).takeWhile (!Unicode.isBlank ·) := by
    rw [List.takeWhile_cons_of_pos (by decide), List.takeWhile_cons_of_pos (by decide), word]
  rw [parse?, line, trimmed, word]
  simp only [whole, List.map_cons]
  exact congrArg some (ofWord_glued home _ _ _)

private theorem parse?_spaced :
    parse? home (":rm " ++ range) = some (.remove <$> parseRange (Text.trim range.toList)) := by
  have line : Text.trim (":rm " ++ range).toList = ':' :: 'r' :: 'm' :: ' ' :: Text.trim range.toList := by
    rw [String.toList_append]
    exact trim_line isText starts ['r', 'm', ' ']
  have word : ('r' :: 'm' :: ' ' :: Text.trim range.toList).takeWhile (!Unicode.isBlank ·) = ['r', 'm'] := by
    rw [List.takeWhile_cons_of_pos (by decide), List.takeWhile_cons_of_pos (by decide),
      List.takeWhile_cons_of_neg (by decide)]
  have argument : Text.trim (' ' :: Text.trim range.toList) = Text.trim range.toList :=
    (Text.trimmed_trim range.toList).trim_eq
  have some : (Text.trim range.toList).isEmpty = false := by rw [trim_of_startsRange isText starts]; rfl
  rw [parse?, line]
  simp only [word]
  rw [if_neg (by decide), if_neg (by decide)]
  refine congrArg _ ?_
  rw [show ('r' :: 'm' :: ' ' :: Text.trim range.toList).drop ['r', 'm'].length =
    ' ' :: Text.trim range.toList from rfl, argument, show String.ofList (['r', 'm'].map Char.toLower) = "rm" from rfl]
  simp [ofWord, some]

/-- A removal with the selection in the word agrees with one behind it exactly if no blank is in the selection, or if
the word is not a selection. Otherwise it removes something else, without an error. -/
theorem remove_spellings : SameRemoval (parse? home (":rm" ++ range)) (parse? home (":rm " ++ range)) ↔
    (∀ c ∈ Text.trim range.toList, Unicode.isBlank c = false) ∨
    ∃ error, parse? home (":rm" ++ range) = some (.error error) := by
  rw [parse?_glued home isText starts, parse?_spaced home isText starts]
  have trimmed := Text.trimmed_trim range.toList
  generalize Text.trim range.toList = text at trimmed ⊢
  have plain : ∀ c ∈ text.takeWhile (!Unicode.isBlank ·), Unicode.isBlank c = false := fun c mem => by
    simpa using List.all_eq_true.mp List.all_takeWhile c mem
  have readWord := removal_cases ((text.takeWhile (!Unicode.isBlank ·)).map Char.toLower)
  rw [Text.trim_eq_self (List.forall_mem_map.mpr fun c mem => isBlank_toLower (plain c mem))] at readWord
  simp only [HistoryRange.reads_lower_iff] at readWord
  have readText := removal_cases text
  rw [trimmed.trim_eq] at readText
  rcases readWord with ⟨range', reads', removes'⟩ | ⟨unreadable, error, fails⟩
  · rw [removes']
    rcases readText with ⟨range, reads, removes⟩ | ⟨unreadable, error, fails⟩
    · obtain ⟨word, readsWord, same⟩ := reads.word_iff trimmed
      obtain rfl := readsWord.functional (Text.trimmed_of_written plain) reads'
      rw [removes, ← same]
      constructor
      · rintro ⟨⟩
        exact .inl rfl
      · rintro (rfl | ⟨error, ⟨⟩⟩)
        exact .removes word
    · rw [fails]
      constructor
      · rintro ⟨⟩
      · rintro (all | ⟨error, ⟨⟩⟩)
        rw [List.takeWhile_eq_self_iff.mpr fun c mem => by rw [all c mem]; rfl] at reads'
        exact absurd ⟨range', reads'⟩ unreadable
  · rw [fails]
    rcases readText with ⟨range, reads, removes⟩ | ⟨-, error', fails'⟩
    · obtain ⟨word, readsWord, -⟩ := reads.word_iff trimmed
      exact absurd ⟨word, readsWord⟩ unreadable
    · rw [fails']
      exact ⟨fun _ => .inr ⟨error, rfl⟩, fun _ => .errors error error'⟩

end

theorem remove_spellings_range : SameRemoval (parse? none ":rm3-5") (parse? none ":rm 3-5") := by
  have plain : (Text.trim "3-5".toList).all (!Unicode.isBlank ·) = true := by decide +kernel
  exact (@remove_spellings none "3-5" _ _ rfl rfl).mpr
    (.inl fun c mem => by simpa using List.all_eq_true.mp plain c mem)

/-- With blanks around its dash, a range behind the word is a range, but in the word it is its first number. -/
theorem remove_spellings_differ : parse? none ":rm3 - 5" = some (.ok (.remove (.single 3))) ∧
    parse? none ":rm 3 - 5" = some (.ok (.remove (.span (some 3) (some 5)))) ∧
    ¬ SameRemoval (parse? none ":rm3 - 5") (parse? none ":rm 3 - 5") := by
  have glued : parse? none ":rm3 - 5" = some (.ok (.remove (.single 3))) := by rfl
  have spaced : parse? none ":rm 3 - 5" = some (.ok (.remove (.span (some 3) (some 5)))) := by rfl
  refine ⟨glued, spaced, ?_⟩
  rw [glued, spaced]
  rintro ⟨⟩

end Command

end GoPrompt
