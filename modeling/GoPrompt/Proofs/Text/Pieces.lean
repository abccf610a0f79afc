import GoPrompt.Text.Trim

/-! Texts in pieces: what a text is without the white space around it, and what it is between its separators. -/

namespace GoPrompt.Text

theorem not_mem_of_mem_splitOn {separator : Char} {text piece : List Char} (mem : piece ∈ text.splitOn separator) :
    separator ∉ piece := by
  induction text generalizing piece with
  | nil =>
    obtain rfl := List.mem_singleton.mp mem
    exact List.not_mem_nil
  | cons c rest ih =>
    rw [List.splitOn_cons_eq_if_modifyHead] at mem
    split at mem
    next =>
      rcases List.mem_cons.mp mem with rfl | later
      · exact List.not_mem_nil
      · exact ih later
    next other =>
      obtain ⟨first, others, pieces⟩ := List.exists_cons_of_ne_nil (List.splitOn_ne_nil separator rest)
      rw [pieces, List.modifyHead_cons] at mem
      rw [pieces] at ih
      rcases List.mem_cons.mp mem with rfl | later
      · rw [List.mem_cons, not_or]
        exact ⟨fun same => other (beq_iff_eq.mpr same.symm), ih List.mem_cons_self⟩
      · exact ih (List.mem_cons_of_mem _ later)

theorem trimStart_cons {c : Char} (written : Unicode.isBlank c = false) (rest : List Char) :
    trimStart (c :: rest) = c :: rest :=
  List.dropWhile_cons_of_neg (Bool.eq_false_iff.mp written)

theorem trimEnd_append_cons {c : Char} (written : Unicode.isBlank c = false) (front rest : List Char) :
    trimEnd (front ++ c :: rest) = front ++ c :: trimEnd rest := by
  have stops : (c :: front.reverse).dropWhile Unicode.isBlank = c :: front.reverse := trimStart_cons written _
  have reversed : (front ++ c :: rest).reverse = rest.reverse ++ c :: front.reverse := by simp
  rw [trimEnd, reversed, List.dropWhile_append]
  split
  next none => rw [stops, trimEnd, List.isEmpty_iff.mp none]; simp
  next => simp [trimEnd]

private theorem trimEnd_split (text : List Char) :
    ∃ back, text = trimEnd text ++ back ∧ ∀ c ∈ back, Unicode.isBlank c = true := by
  refine ⟨(text.reverse.takeWhile Unicode.isBlank).reverse, ?_, fun c mem =>
    List.all_eq_true.mp List.all_takeWhile c (List.mem_reverse.mp mem)⟩
  rw [trimEnd, ← List.reverse_append, List.takeWhile_append_dropWhile, List.reverse_reverse]

theorem trim_split (text : List Char) : ∃ front back, text = front ++ trim text ++ back ∧
    (∀ c ∈ front, Unicode.isBlank c = true) ∧ ∀ c ∈ back, Unicode.isBlank c = true := by
  obtain ⟨back, splits, blank⟩ := trimEnd_split (trimStart text)
  refine ⟨text.takeWhile Unicode.isBlank, back, ?_, List.all_eq_true.mp List.all_takeWhile, blank⟩
  rw [List.append_assoc, trim, ← splits, trimStart, List.takeWhile_append_dropWhile]

theorem trim_ne_nil {text : List Char} {c : Char} (mem : c ∈ text) (written : Unicode.isBlank c = false) :
    trim text ≠ [] := by
  intro empty
  obtain ⟨front, back, splits, blank, blank'⟩ := trim_split text
  rw [splits, empty, List.append_nil, List.mem_append] at mem
  have isBlank : Unicode.isBlank c = true := mem.elim (blank c) (blank' c)
  rw [written] at isBlank
  cases isBlank

/-- With no blank in front of it, a text has blanks only behind what is written in it. -/
theorem split_of_begins {text : List Char} (begins : ∀ c ∈ text.head?, Unicode.isBlank c = false) :
    ∃ back, text = trim text ++ back ∧ ∀ c ∈ back, Unicode.isBlank c = true := by
  have start : trimStart text = text := by
    cases text with
    | nil => rfl
    | cons c rest => exact trimStart_cons (begins c rfl) rest
  have splits := trimEnd_split (trimStart text)
  rwa [show trimEnd (trimStart text) = trim text from rfl, start] at splits

/-- With no blank behind it, a text has blanks only in front of what is written in it. -/
theorem split_of_ends {text : List Char} (ends : ∀ c ∈ text.getLast?, Unicode.isBlank c = false) :
    ∃ front, text = front ++ trim text ∧ ∀ c ∈ front, Unicode.isBlank c = true := by
  obtain ⟨front, back, splits, blank, blank'⟩ := trim_split text
  cases last : back.getLast? with
  | none =>
    rw [List.getLast?_eq_none_iff.mp last, List.append_nil] at splits
    exact ⟨front, splits, blank⟩
  | some c =>
    have written := ends c (by rw [splits, List.getLast?_append, last]; rfl)
    rw [blank' c (List.mem_of_getLast? last)] at written
    cases written

theorem takeWhile_word {word blanks : List Char} (written : ∀ c ∈ word, Unicode.isBlank c = false)
    (blank : ∀ c ∈ blanks, Unicode.isBlank c = true) (nonempty : blanks ≠ []) (rest : List Char) :
    (word ++ (blanks ++ rest)).takeWhile (!Unicode.isBlank ·) = word := by
  obtain ⟨c, others, rfl⟩ := List.exists_cons_of_ne_nil nonempty
  rw [List.takeWhile_append_of_pos fun c mem => by rw [written c mem]; rfl, List.cons_append,
    List.takeWhile_cons_of_neg (by rw [blank c List.mem_cons_self]; decide), List.append_nil]

/-- A text with no blank at either end. -/
structure Trimmed (text : List Char) : Prop where
  begins : ∀ c ∈ text.head?, Unicode.isBlank c = false
  ends : ∀ c ∈ text.getLast?, Unicode.isBlank c = false

theorem trimmed_trim (text : List Char) : Trimmed (trim text) where
  begins c mem := by
    have begun := List.head?_dropWhile_not Unicode.isBlank text
    cases start : text.dropWhile Unicode.isBlank with
    | nil => simp [trim, trimStart, trimEnd, start] at mem
    | cons first rest =>
      rw [start] at begun
      have written : Unicode.isBlank first = false := by simpa using begun
      rw [trim, trimStart, start, ← List.nil_append (first :: rest), trimEnd_append_cons written] at mem
      obtain rfl : first = c := by simpa using mem
      exact written
  ends c mem := by
    have begun := List.head?_dropWhile_not Unicode.isBlank (trimStart text).reverse
    rw [trim, trimEnd, List.getLast?_reverse, Option.mem_def] at mem
    rw [mem] at begun
    simpa using begun

theorem Trimmed.trim_eq {text : List Char} (trimmed : Trimmed text) : trim text = text := by
  have keeps : ∀ text : List Char, (∀ c ∈ text.head?, Unicode.isBlank c = false) →
      text.dropWhile Unicode.isBlank = text := by
    intro text begins
    cases text with
    | nil => rfl
    | cons c rest => exact trimStart_cons (begins c rfl) rest
  rw [trim, trimStart, keeps text trimmed.begins, trimEnd, keeps _ (by simpa using trimmed.ends), List.reverse_reverse]

theorem trimmed_of_written {text : List Char} (written : ∀ c ∈ text, Unicode.isBlank c = false) : Trimmed text :=
  ⟨fun _ mem => written _ (List.mem_of_mem_head? mem), fun _ mem => written _ (List.mem_of_getLast? mem)⟩

theorem trim_eq_self {text : List Char} (written : ∀ c ∈ text, Unicode.isBlank c = false) : trim text = text :=
  (trimmed_of_written written).trim_eq

end GoPrompt.Text
