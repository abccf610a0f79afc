import GoPrompt.Lexical.Encoding
import GoPrompt.Proofs.Lexical.Extension

/-! The check of the encoding finds the first character that is not allowed, and a text without one is safe
to scan. -/

namespace GoPrompt

/-- Whether a character is not allowed behind the text `before`. -/
def Offends (before : List Char) (c : Char) : Prop := c = '\x00' ∨ (c = byteOrderMark ∧ before ≠ [])

/-- A text of allowed characters only. -/
def Encoded (text : List Char) : Prop := ∀ before c after, text = before ++ c :: after → ¬ Offends before c

/-- The first character of a text that is not allowed, and the text before it. -/
structure FirstOffence (text before : List Char) (c : Char) : Prop where
  there : ∃ after, text = before ++ c :: after
  offends : Offends before c
  first : Encoded before

theorem Encoded.concat {before : List Char} {c : Char} (encoded : Encoded before) (allowed : ¬ Offends before c) :
    Encoded (before ++ [c]) := by
  intro front d back splits
  rcases List.eq_nil_or_concat back with rfl | ⟨back, last, rfl⟩
  · obtain ⟨rfl, same⟩ := List.append_inj' splits rfl
    cases same
    exact allowed
  · rw [List.concat_eq_append, ← List.cons_append, ← List.append_assoc] at splits
    exact encoded front d back (List.append_inj' splits rfl).1

private theorem checkEncodingFrom_first {source : Nat} {before text : List Char}
    (fits : byteSize (before ++ text) ≤ maxOffset) (encoded : Encoded before) :
    (checkEncodingFrom source (byteSize before) text = .ok () ∧ Encoded (before ++ text)) ∨
      ∃ front c diagnostic, FirstOffence (before ++ text) front c ∧
        checkEncodingFrom source (byteSize before) text = .error (.malformed diagnostic) ∧
        diagnostic.span = Span.ofLength source (byteSize front) c.utf8Size := by
  induction text generalizing before with
  | nil => exact .inl ⟨rfl, by rwa [List.append_nil]⟩
  | cons c rest ih =>
    have sizes : byteSize before + (c.utf8Size + byteSize rest) ≤ maxOffset := by
      simpa only [byteSize_append, byteSize_cons] using fits
    have clamps : Span.between source (clampOffset (byteSize before)) (clampOffset (byteSize before + c.utf8Size)) =
        Span.ofLength source (byteSize before) c.utf8Size := by
      rw [show clampOffset (byteSize before) = byteSize before from Nat.min_eq_left (by omega),
        show clampOffset (byteSize before + c.utf8Size) = byteSize before + c.utf8Size from Nat.min_eq_left (by omega)]
      exact Span.between_of_le source (by omega)
    have behind : 0 < byteSize before ↔ before ≠ [] := by
      cases before with
      | nil => simp
      | cons d tail =>
        have := d.utf8Size_pos
        simp only [byteSize_cons, ne_eq, List.cons_ne_nil, not_false_eq_true, iff_true]
        omega
    simp only [checkEncodingFrom, clamps, behind]
    split
    next nul => exact .inr ⟨before, c, _, ⟨⟨rest, rfl⟩, .inl nul, encoded⟩, rfl, rfl⟩
    next notNul =>
      split
      next mark => exact .inr ⟨before, c, _, ⟨⟨rest, rfl⟩, .inr mark, encoded⟩, rfl, rfl⟩
      next notMark =>
        have moved : byteSize before + c.utf8Size = byteSize (before ++ [c]) := by simp
        have parts : before ++ c :: rest = before ++ [c] ++ rest := by simp
        rw [moved, parts]
        exact ih (by rwa [← parts]) (encoded.concat fun offends => offends.elim notNul notMark)

/-- The check accepts exactly the texts of allowed characters, and blames the first character of the others. -/
theorem checkEncoding_first {source : Nat} {text : List Char} (fits : byteSize text ≤ maxOffset) :
    (checkEncoding source text = .ok () ∧ Encoded text) ∨
      ∃ front c diagnostic, FirstOffence text front c ∧ checkEncoding source text = .error (.malformed diagnostic) ∧
        diagnostic.span = Span.ofLength source (byteSize front) c.utf8Size := by
  have nothing : Encoded [] := fun before c after splits => by simp at splits
  rw [← List.nil_append text] at fits ⊢
  exact checkEncodingFrom_first fits nothing

theorem encoded_iff {text : List Char} : Encoded text ↔ '\x00' ∉ text ∧ byteOrderMark ∉ text.tail := by
  constructor
  · intro encoded
    constructor
    · intro mem
      obtain ⟨before, after, splits⟩ := List.append_of_mem mem
      exact encoded before _ after splits (.inl rfl)
    · intro mem
      obtain ⟨before, after, splits⟩ := List.append_of_mem mem
      cases text with
      | nil => cases mem
      | cons first rest =>
        refine encoded (first :: before) _ after ?_ (.inr ⟨rfl, List.cons_ne_nil _ _⟩)
        rw [List.cons_append, ← splits, List.tail_cons]
  · rintro ⟨noNul, noMark⟩ before c after rfl (rfl | ⟨rfl, behind⟩)
    · exact noNul (by simp)
    · obtain ⟨first, rest, rfl⟩ := List.exists_cons_of_ne_nil behind
      exact noMark (by simp)

theorem Encoded.prefix {text more : List Char} (encoded : Encoded (text ++ more)) : Encoded text := by
  intro before c after splits
  exact encoded before c (after ++ more) (by rw [splits, List.append_assoc, List.cons_append])

/-- The byte-order mark that the lexer drops from the start of a text. -/
def leadingMark : List Char → List Char
  | [] => []
  | c :: _ => if c = byteOrderMark then [c] else []

namespace Lexer

theorem ofText_eq (source : Nat) (text : List Char) : ∃ rest, text = leadingMark text ++ rest ∧
    ofText source text = ⟨source, rest, byteSize (leadingMark text), false⟩ := by
  cases text with
  | nil => exact ⟨[], rfl, rfl⟩
  | cons c rest =>
    simp only [leadingMark, ofText]
    split
    next mark => exact ⟨rest, rfl, by simp [mark]⟩
    next => exact ⟨c :: rest, rfl, rfl⟩

theorem ofText_cut {source : Nat} {text front more : List Char} (splits : text = leadingMark text ++ (front ++ more)) :
    ofText source (leadingMark text ++ front) = { ofText source text with rest := front } := by
  cases text with
  | nil =>
    obtain ⟨rfl, -⟩ := List.append_eq_nil_iff.mp (List.append_eq_nil_iff.mp splits.symm).2
    rfl
  | cons c rest =>
    simp only [leadingMark] at splits ⊢
    split at splits
    next mark => simp only [mark, ofText, ↓reduceIte, List.cons_append, List.nil_append]
    next notMark =>
      rw [List.nil_append] at splits
      simp only [notMark, ↓reduceIte, List.nil_append]
      cases front with
      | nil => simp only [ofText, notMark, ↓reduceIte]
      | cons d tail =>
        obtain ⟨rfl, -⟩ := List.cons.inj splits
        simp only [ofText, notMark, ↓reduceIte]

theorem ofText_append {text : List Char} (nonempty : text ≠ []) (source : Nat) (more : List Char) :
    ofText source (text ++ more) = (ofText source text).withMore more := by
  cases text with
  | nil => exact absurd rfl nonempty
  | cons c rest =>
    simp only [List.cons_append, ofText]
    split <;> rfl

theorem ofText_behind {c : Char} (notMark : c ≠ byteOrderMark) (source : Nat) (text more : List Char) :
    ofText source (text ++ c :: more) = (ofText source text).withMore (c :: more) := by
  cases text with
  | nil => exact if_neg notMark
  | cons d rest => exact ofText_append (List.cons_ne_nil d rest) source _

theorem ofText_size (source : Nat) (text : List Char) :
    (ofText source text).offset + byteSize (ofText source text).rest = byteSize text := by
  obtain ⟨rest, splits, start⟩ := ofText_eq source text
  rw [start, ← byteSize_append, ← splits]

theorem ofText_sound {source : Nat} {text : List Char} (encoded : Encoded text) (fits : byteSize text ≤ maxOffset) :
    (ofText source text).Sound := by
  obtain ⟨noNul, noMark⟩ := encoded_iff.mp encoded
  cases text with
  | nil => exact ⟨fun _ mem => absurd mem List.not_mem_nil, Nat.zero_le _⟩
  | cons c rest =>
    rw [byteSize_cons] at fits
    simp only [ofText]
    split
    next mark =>
      rw [mark] at fits
      exact ⟨fun d mem => ⟨fun nul => noNul (nul ▸ List.mem_cons_of_mem _ mem), fun mark => noMark (mark ▸ mem)⟩, fits⟩
    next notMark =>
      refine ⟨fun d mem => ⟨fun nul => noNul (nul ▸ mem), fun mark => ?_⟩, by simpa using fits⟩
      rcases List.mem_cons.mp mem with rfl | later
      · exact notMark mark
      · exact noMark (mark ▸ later)

end Lexer

end GoPrompt
