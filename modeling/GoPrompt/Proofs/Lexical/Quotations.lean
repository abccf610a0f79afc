import GoPrompt.Lexical.Quoted
import GoPrompt.Proofs.Lexical.Separators

/-! The string and rune literals of the language, and what they look like while they are being written. -/

namespace GoPrompt

/-- The letters that stand for one character each behind a backslash. -/
def escapeLetters : List Char := ['a', 'b', 'f', 'n', 'r', 't', 'v', '\\']

/-- The escapes that give a character by its code: the mark behind the backslash, the base and the number of the digits,
and the largest code. -/
inductive CodeForm : List Char → Radix → Nat → Nat → Prop
  | octal : CodeForm [] .octal 3 0xFF
  | byte : CodeForm ['x'] .hexadecimal 2 0xFF
  | short : CodeForm ['u'] .hexadecimal 4 0x10FFFF
  | long : CodeForm ['U'] .hexadecimal 8 0x10FFFF

/-- Whether an escape may give this code: surrogates are no characters. -/
def IsCode (largest code : Nat) : Prop := code ≤ largest ∧ ¬ (0xD800 ≤ code ∧ code ≤ 0xDFFF)

instance (largest code : Nat) : Decidable (IsCode largest code) := inferInstanceAs (Decidable (_ ∧ ¬ _))

/-- The escapes between quotes of the given sort. -/
inductive EscapeSequence (quote : Char) : List Char → Prop
  | letter {c : Char} (isLetter : c ∈ escapeLetters ∨ c = quote) : EscapeSequence quote ['\\', c]
  | code {mark digits : List Char} {radix : Radix} {count largest : Nat} (form : CodeForm mark radix count largest)
      (isDigits : ∀ c ∈ digits, radix.HasDigit c) (counted : digits.length = count)
      (isCode : IsCode largest (Quoted.numeral radix.base digits)) : EscapeSequence quote ('\\' :: (mark ++ digits))

/-- One character between quotes, or the escape of one. -/
inductive QuotedUnit (quote : Char) : List Char → Prop
  | plain {c : Char} (notQuote : c ≠ quote) (notBackslash : c ≠ '\\') (notNewline : c ≠ '\n') : QuotedUnit quote [c]
  | escape {text : List Char} (isEscape : EscapeSequence quote text) : QuotedUnit quote text

/-- So many characters or escapes in a row. -/
inductive QuotedUnits (quote : Char) : Nat → List Char → Prop
  | nil : QuotedUnits quote 0 []
  | cons {count : Nat} {unit rest : List Char} (isUnit : QuotedUnit quote unit) (later : QuotedUnits quote count rest) :
      QuotedUnits quote (count + 1) (unit ++ rest)

inductive QuotedLiteral : LiteralKind → List Char → Prop
  | interpreted {count : Nat} {inner : List Char} (units : QuotedUnits Quoted.doubleQuote count inner) :
      QuotedLiteral .string (Quoted.doubleQuote :: (inner ++ [Quoted.doubleQuote]))
  | raw {inner : List Char} (plain : Quoted.backquote ∉ inner) :
      QuotedLiteral .string (Quoted.backquote :: (inner ++ [Quoted.backquote]))
  | rune {unit : List Char} (isUnit : QuotedUnit Quoted.singleQuote unit) :
      QuotedLiteral .rune (Quoted.singleQuote :: (unit ++ [Quoted.singleQuote]))

/-- An escape that lacks digits, and gives a code if they are all zeros. A lone backslash lacks three. -/
inductive BegunEscape : List Char → Prop
  | mk {mark digits : List Char} {radix : Radix} {count largest : Nat} (form : CodeForm mark radix count largest)
      (isDigits : ∀ c ∈ digits, radix.HasDigit c) (short : digits.length < count)
      (isCode : IsCode largest (Quoted.numeral radix.base (digits ++ List.replicate (count - digits.length) '0'))) :
      BegunEscape ('\\' :: (mark ++ digits))

/-- The string and rune literals that are written so far, and can be closed. -/
inductive BegunQuotation : LiteralKind → List Char → Prop
  | interpreted {count : Nat} {inner last : List Char} (units : QuotedUnits Quoted.doubleQuote count inner)
      (isLast : last = [] ∨ BegunEscape last) : BegunQuotation .string (Quoted.doubleQuote :: (inner ++ last))
  | raw {inner : List Char} (plain : Quoted.backquote ∉ inner) : BegunQuotation .string (Quoted.backquote :: inner)
  | rune {last : List Char} (isLast : last = [] ∨ QuotedUnit Quoted.singleQuote last ∨ BegunEscape last) :
      BegunQuotation .rune (Quoted.singleQuote :: last)

namespace Quoted

/-- What a digit counts for in front of so many others. -/
def placeValue (base : Nat) : Nat → Nat
  | 0 => 1
  | count + 1 => base * placeValue base count

private theorem placeValue_add (base first second : Nat) :
    placeValue base (first + second) = placeValue base first * placeValue base second := by
  induction first with
  | zero => rw [Nat.zero_add, placeValue, Nat.one_mul]
  | succ first ih => rw [Nat.succ_add, placeValue, placeValue, ih, Nat.mul_assoc]

section

variable {base : Nat} {first second digits : List Char}

private theorem foldl_numeral (base value : Nat) (digits : List Char) :
    digits.foldl (fun value c => value * base + digitValue c) value =
      value * placeValue base digits.length + numeral base digits := by
  induction digits generalizing value with
  | nil => simp [numeral, placeValue]
  | cons c digits ih =>
    have here : numeral base (c :: digits) =
        (0 * base + digitValue c) * placeValue base digits.length + numeral base digits := by
      rw [numeral, List.foldl_cons, ih]
    rw [List.foldl_cons, ih, here, List.length_cons, placeValue, Nat.zero_mul, Nat.zero_add, Nat.add_mul, Nat.mul_assoc,
      Nat.add_assoc]

private theorem numeral_append :
    numeral base (first ++ second) = numeral base first * placeValue base second.length + numeral base second := by
  rw [numeral, List.foldl_append, foldl_numeral]
  rfl

private theorem numeral_lt (small : ∀ c ∈ digits, digitValue c < base) :
    numeral base digits < placeValue base digits.length := by
  induction digits with
  | nil => exact Nat.one_pos
  | cons c digits ih =>
    obtain ⟨here, later⟩ := List.forall_mem_cons.mp small
    have below := ih later
    calc numeral base (c :: digits) = digitValue c * placeValue base digits.length + numeral base digits := by
          rw [← List.singleton_append, numeral_append]
          simp [numeral]
      _ < digitValue c * placeValue base digits.length + placeValue base digits.length := by omega
      _ = (digitValue c + 1) * placeValue base digits.length := (Nat.succ_mul _ _).symm
      _ ≤ base * placeValue base digits.length := Nat.mul_le_mul_right _ here

private theorem numeral_zeros (base count : Nat) : numeral base (List.replicate count '0') = 0 := by
  induction count with
  | zero => rfl
  | succ count ih =>
    rw [List.replicate_succ, ← List.singleton_append, numeral_append, ih]
    simp [numeral, show digitValue '0' = 0 by decide]

end

end Quoted

section

variable {mark digits more : List Char} {radix : Radix} {count largest : Nat}

theorem IsCode.filled (form : CodeForm mark radix count largest) {value rest missing : Nat}
    (isCode : IsCode largest (value * Quoted.placeValue radix.base missing + rest))
    (small : rest < Quoted.placeValue radix.base missing) :
    IsCode largest (value * Quoted.placeValue radix.base missing) := by
  obtain ⟨bounded, notSurrogate⟩ := isCode
  refine ⟨Nat.le_trans (Nat.le_add_right _ _) bounded, ?_⟩
  -- Four digits of base sixteen span all surrogates, and fewer span none or only surrogates.
  have hexadecimal : radix = .hexadecimal →
      ¬ (0xD800 ≤ value * Quoted.placeValue radix.base missing ∧
        value * Quoted.placeValue radix.base missing ≤ 0xDFFF) := by
    rintro rfl surrogate
    simp only [Radix.base] at notSurrogate small surrogate
    by_cases many : 4 ≤ missing
    · obtain ⟨beyond, rfl⟩ := Nat.exists_eq_add_of_le many
      have multiple : value * Quoted.placeValue 16 (4 + beyond) = 65536 * (value * Quoted.placeValue 16 beyond) := by
        rw [Quoted.placeValue_add, Nat.mul_left_comm]
        rfl
      rw [multiple] at surrogate
      omega
    · have few : missing = 0 ∨ missing = 1 ∨ missing = 2 ∨ missing = 3 := by omega
      rcases few with rfl | rfl | rfl | rfl <;> simp only [Quoted.placeValue] at notSurrogate small surrogate <;> omega
  cases form with
  | octal => omega
  | byte | short | long => exact hexadecimal rfl

theorem CodeForm.begun (form : CodeForm mark radix count largest) (isDigits : ∀ c ∈ digits ++ more, radix.HasDigit c)
    (counted : (digits ++ more).length = count) (unfinished : more ≠ [])
    (isCode : IsCode largest (Quoted.numeral radix.base (digits ++ more))) :
    BegunEscape ('\\' :: (mark ++ digits)) := by
  have missing : 0 < more.length := List.length_pos_iff.mpr unfinished
  rw [List.length_append] at counted
  have small : Quoted.numeral radix.base more < Quoted.placeValue radix.base more.length :=
    Quoted.numeral_lt fun c mem => (Number.continues_of_hasDigit (isDigits c (List.mem_append_right _ mem))).2
  rw [Quoted.numeral_append] at isCode
  refine .mk form (fun c mem => isDigits c (List.mem_append_left _ mem)) (by omega) ?_
  rw [show count - digits.length =
    more.length by omega, Quoted.numeral_append, Quoted.numeral_zeros, List.length_replicate, Nat.add_zero]
  exact isCode.filled form small

end

private theorem begunEscape_backslash : BegunEscape ['\\'] :=
  @BegunEscape.mk [] [] _ _ _ .octal nofun (by decide) (by decide)

section

variable {quote : Char} {text more : List Char} {kind : LiteralKind}

theorem EscapeSequence.begun (isEscape : EscapeSequence quote (text ++ more)) (begins : text ≠ [])
    (unfinished : more ≠ []) :
    BegunEscape text := by
  obtain ⟨c, text, rfl⟩ := List.exists_cons_of_ne_nil begins
  generalize whole : c :: text ++ more = escape at isEscape
  cases isEscape with
  | letter isLetter =>
    obtain ⟨rfl, rest⟩ := List.cons.inj whole
    obtain rfl : text = [] := (List.append_eq_singleton_iff.mp rest).elim And.left fun same => absurd same.2 unfinished
    exact begunEscape_backslash
  | @code mark digits radix count largest form isDigits counted isCode =>
    obtain ⟨rfl, rest⟩ := List.cons.inj whole
    rcases List.append_eq_append_iff.mp rest with ⟨behind, isMark, rfl⟩ | ⟨front, rfl, rfl⟩
    · -- The mark is one letter at most, so that none of it is there, or all of it.
      cases text with
      | nil => exact begunEscape_backslash
      | cons d text =>
        obtain ⟨rfl, rfl⟩ : text = [] ∧ behind = [] := by cases form <;> simp_all
        rw [List.append_nil] at isMark
        rw [List.nil_append] at unfinished
        have begun := @CodeForm.begun mark [] digits _ _ _ form isDigits counted unfinished isCode
        rwa [List.append_nil, isMark] at begun
    · exact form.begun isDigits counted unfinished isCode

theorem QuotedUnit.begun (isUnit : QuotedUnit quote (text ++ more)) (begins : text ≠ []) (unfinished : more ≠ []) :
    BegunEscape text := by
  generalize whole : text ++ more = unit at isUnit
  cases isUnit with
  | plain => exact absurd whole (by simp [List.append_eq_singleton_iff, begins, unfinished])
  | escape isEscape => exact EscapeSequence.begun (whole ▸ isEscape) begins unfinished

theorem QuotedUnits.begun {count : Nat} (units : QuotedUnits quote count (text ++ more)) :
    ∃ count inner last, text = inner ++ last ∧ QuotedUnits quote count inner ∧ (last = [] ∨ BegunEscape last) := by
  generalize whole : text ++ more = chars at units
  induction units generalizing text with
  | nil => exact ⟨0, [], [], (List.append_eq_nil_iff.mp whole).1, .nil, .inl rfl⟩
  | @cons count unit rest isUnit later ih =>
    rcases List.append_eq_append_iff.mp whole with ⟨behind, rfl, -⟩ | ⟨front, rfl, rfl⟩
    · by_cases begins : text = []
      · exact ⟨0, [], [], begins, .nil, .inl rfl⟩
      by_cases finished : behind = []
      · rw [finished, List.append_nil] at isUnit
        exact ⟨1, text ++ [], [], by simp, .cons isUnit .nil, .inl rfl⟩
      · exact ⟨0, [], text, rfl, .nil, .inr (isUnit.begun begins finished)⟩
    · obtain ⟨count, inner, last, rfl, units, isLast⟩ := ih rfl
      exact ⟨count + 1, unit ++ inner, last, (List.append_assoc _ _ _).symm, .cons isUnit units, isLast⟩

theorem QuotedLiteral.begun (literal : QuotedLiteral kind (text ++ more)) (begins : text ≠ []) (unfinished : more ≠ []) :
    BegunQuotation kind text := by
  obtain ⟨c, text, rfl⟩ := List.exists_cons_of_ne_nil begins
  obtain ⟨front, last, rfl⟩ : ∃ front last, more = front ++ [last] :=
    ⟨more.dropLast, more.getLast unfinished, (List.dropLast_concat_getLast unfinished).symm⟩
  generalize whole : c :: text ++ (front ++ [last]) = chars at literal
  cases literal with
  | @interpreted count inner units =>
    obtain ⟨rfl, rest⟩ := List.cons.inj whole
    obtain ⟨rfl, -⟩ := List.append_inj' ((List.append_assoc text front [last]).trans rest) rfl
    obtain ⟨count, inner, last, rfl, units, isLast⟩ := units.begun
    exact .interpreted units isLast
  | @raw inner plain =>
    obtain ⟨rfl, rest⟩ := List.cons.inj whole
    obtain ⟨rfl, -⟩ := List.append_inj' ((List.append_assoc text front [last]).trans rest) rfl
    exact .raw fun mem => plain (List.mem_append_left _ mem)
  | @rune unit isUnit =>
    obtain ⟨rfl, rest⟩ := List.cons.inj whole
    obtain ⟨rfl, -⟩ := List.append_inj' ((List.append_assoc text front [last]).trans rest) rfl
    by_cases begins : text = []
    · exact .rune (.inl begins)
    by_cases finished : front = []
    · rw [finished, List.append_nil] at isUnit
      exact .rune (.inr (.inl isUnit))
    · exact .rune (.inr (.inr (isUnit.begun begins finished)))

theorem BegunEscape.finished (quote : Char) (begun : BegunEscape text) :
    ∃ count ≤ 8, EscapeSequence quote (text ++ List.replicate count '0') := by
  cases begun with
  | @mk mark digits radix count largest form isDigits short isCode =>
    refine ⟨count - digits.length, by cases form <;> omega, ?_⟩
    rw [List.cons_append, List.append_assoc]
    refine .code form (fun c mem => ?_) (by rw [List.length_append, List.length_replicate]; omega) isCode
    rcases List.mem_append.mp mem with mem | mem
    · exact isDigits c mem
    · exact List.eq_of_mem_replicate mem ▸ radix.hasDigit_zero

theorem QuotedUnits.concat {count : Nat} {inner unit : List Char} (units : QuotedUnits quote count inner)
    (isUnit : QuotedUnit quote unit) : QuotedUnits quote (count + 1) (inner ++ unit) := by
  induction units with
  | nil => simpa using QuotedUnits.cons isUnit .nil
  | cons isFirst _ ih =>
    rw [List.append_assoc]
    exact .cons isFirst ih

theorem QuotedUnits.single {inner : List Char} (units : QuotedUnits quote 1 inner) : QuotedUnit quote inner := by
  cases units with
  | cons isUnit later =>
    cases later
    rwa [List.append_nil]

private theorem byteSize_zeros (count : Nat) : byteSize (List.replicate count '0') = count := by
  induction count with
  | zero => rfl
  | succ count ih =>
    rw [List.replicate_succ, byteSize_cons, ih, show ('0' : Char).utf8Size = 1 from rfl]
    omega

/-- A literal that is written so far can be closed, and does not take much for that. -/
theorem BegunQuotation.finished (begun : BegunQuotation kind text) :
    ∃ more, byteSize more ≤ 9 ∧ QuotedLiteral kind (text ++ more) := by
  have closed : ∀ {count : Nat} {last : Char}, count ≤ 8 → last.utf8Size = 1 →
      byteSize (List.replicate count '0' ++ [last]) ≤ 9 := by
    intro count last few single
    rw [byteSize_append, byteSize_zeros, byteSize_cons, single, byteSize_nil]
    omega
  cases begun with
  | @interpreted count inner last units isLast =>
    rcases isLast with rfl | isLast
    · exact ⟨[Quoted.doubleQuote], by decide, by simpa using .interpreted units⟩
    · obtain ⟨zeros, few, isEscape⟩ := isLast.finished Quoted.doubleQuote
      refine ⟨List.replicate zeros '0' ++ [Quoted.doubleQuote], closed few rfl, ?_⟩
      simpa using QuotedLiteral.interpreted (units.concat (.escape isEscape))
  | raw plain => exact ⟨[Quoted.backquote], by decide, .raw plain⟩
  | @rune last isLast =>
    rcases isLast with rfl | isUnit | isLast
    · exact ⟨['0', Quoted.singleQuote], by decide, .rune (.plain (by decide) (by decide) (by decide))⟩
    · exact ⟨[Quoted.singleQuote], by decide, .rune isUnit⟩
    · obtain ⟨zeros, few, isEscape⟩ := isLast.finished Quoted.singleQuote
      refine ⟨List.replicate zeros '0' ++ [Quoted.singleQuote], closed few rfl, ?_⟩
      simpa using QuotedLiteral.rune (.escape isEscape)

end

end GoPrompt
