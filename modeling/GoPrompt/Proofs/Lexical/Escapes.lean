import GoPrompt.Proofs.Lexical.Newlines
import GoPrompt.Proofs.Lexical.Quotations

/-! Between quotes the reader accepts the characters and escapes of the language, and no others. -/

namespace GoPrompt.Quoted

/-- The quotes between which escapes stand. -/
def IsQuote (quote : Char) : Prop := quote = doubleQuote ∨ quote = singleQuote

section

variable {quote c : Char} {text more mark digits : List Char} {radix : Radix} {count largest : Nat}

private theorem isDigit_of_digitValue_lt (isDigit : isHexDigit c = true) (small : digitValue c < 10) :
    c.isDigit = true := by
  refine Decidable.byContradiction fun notDigit => ?_
  simp only [isHexDigit, notDigit, Bool.false_or, Bool.or_eq_true] at isDigit
  simp only [digitValue, notDigit, Bool.false_eq_true, ↓reduceIte] at small
  split at small
  next => omega
  next notLower =>
    rw [if_pos (isDigit.resolve_left notLower)] at small
    omega

private theorem isDigitIn_iff : isDigitIn radix.base c = true ↔ radix.HasDigit c := by
  rw [isDigitIn, Bool.and_eq_true, decide_eq_true_eq]
  refine ⟨?_, fun isDigit => ⟨isDigit.isHexDigit, (Number.continues_of_hasDigit isDigit).2⟩⟩
  rintro ⟨isDigit, small⟩
  have notSeparator : c ≠ '_' := by
    rintro rfl
    cases isDigit
  have continued : Number.continues radix c = true := by
    cases radix with
    | hexadecimal => simp [Number.continues, Radix.base, isDigit]
    | decimal | legacyOctal | octal | binary =>
      simp only [Radix.base] at small
      exact Number.continues_digit (isDigit_of_digitValue_lt isDigit (by omega))
  exact (Number.hasDigit_of_continues continued (.inr small)).resolve_left notSeparator

private theorem digitEscape?_sound {form : DigitEscape} (known : digitEscape? c = some form) :
    ∃ mark radix, CodeForm mark radix form.digits form.largest ∧ form.mark = mark.length ∧ form.base = radix.base ∧
      (mark = [] ∨ mark = [c]) := by
  unfold digitEscape? at known
  split at known
  · obtain rfl := Option.some.inj known
    exact ⟨_, _, .octal, rfl, rfl, .inl rfl⟩
  · split at known
    next isMark =>
      obtain rfl := Option.some.inj known
      exact ⟨_, _, .byte, rfl, rfl, .inr (by rw [isMark])⟩
    · split at known
      next isMark =>
        obtain rfl := Option.some.inj known
        exact ⟨_, _, .short, rfl, rfl, .inr (by rw [isMark])⟩
      · split at known
        next isMark =>
          obtain rfl := Option.some.inj known
          exact ⟨_, _, .long, rfl, rfl, .inr (by rw [isMark])⟩
        · cases known

private theorem digitEscape?_complete (form : CodeForm mark radix count largest)
    (isDigits : ∀ c ∈ digits, radix.HasDigit c) (counted : digits.length = count) :
    ∃ first rest, mark ++ digits = first :: rest ∧
      digitEscape? first = some ⟨mark.length, count, radix.base, largest⟩ ∧
        (Radix.octal.HasDigit first ∨ first ∈ ['x', 'u', 'U']) := by
  cases form with
  | octal =>
    obtain ⟨first, rest, rfl⟩ := List.exists_cons_of_length_pos (show 0 < digits.length by omega)
    have isDigit := isDigits first List.mem_cons_self
    exact ⟨first, rest, rfl,
      if_pos (Bool.and_eq_true_iff.mpr ⟨decide_eq_true isDigit.1, decide_eq_true isDigit.2⟩), .inl isDigit⟩
  | byte => exact ⟨'x', digits, rfl, rfl, .inr (by decide)⟩
  | short => exact ⟨'u', digits, rfl, rfl, .inr (by decide)⟩
  | long => exact ⟨'U', digits, rfl, rfl, .inr (by decide)⟩

private theorem not_isSimpleEscape (isQuote : IsQuote quote) (announces : Radix.octal.HasDigit c ∨ c ∈ ['x', 'u', 'U']) :
    isSimpleEscape quote c = false := by
  have notQuote : ∀ {c}, c.isAlphanum = true → c ≠ quote := by
    rintro _ alphanum rfl
    rcases isQuote with rfl | rfl <;> cases alphanum
  rcases announces with isDigit | isMark
  · have low : 48 ≤ c.toNat := Number.le_iff_toNat.mp isDigit.1
    have high : c.toNat ≤ 55 := Number.le_iff_toNat.mp isDigit.2
    have apart : escapeLetters.contains c = false :=
      @char_of_code 56 (fun c => 48 ≤ c.toNat → escapeLetters.contains c = false) (by decide) c (by omega) low
    have alphanum : c.isAlphanum = true := Number.isAlphanum_of_isHexDigit isDigit.isHexDigit
    exact Bool.or_eq_false_iff.mpr ⟨apart, beq_eq_false_iff_ne.mpr (notQuote alphanum)⟩
  · simp only [List.mem_cons, List.not_mem_nil, or_false] at isMark
    rcases isMark with rfl | rfl | rfl
    all_goals exact Bool.or_eq_false_iff.mpr ⟨by decide, beq_eq_false_iff_ne.mpr (notQuote (by decide))⟩

private theorem isSurrogate_iff {code : Nat} : isSurrogate code = true ↔ 0xD800 ≤ code ∧ code ≤ 0xDFFF := by
  simp only [isSurrogate, Bool.and_eq_true, decide_eq_true_eq]
  omega

/-- An escape that the reader accepts is one of the language. -/
private theorem escape_sound {taken : Nat} (read : escape quote text = .valid taken) :
    EscapeSequence quote ('\\' :: text.take taken) := by
  cases text with
  | nil => cases read
  | cons c rest =>
    simp only [escape] at read
    split at read
    next simple =>
      obtain rfl := Escape.valid.inj read
      refine .letter ?_
      simpa [isSimpleEscape, escapeLetters, or_assoc] using simple
    next =>
      cases known : digitEscape? c with
      | none => simp [known] at read
      | some form =>
        obtain ⟨mark, radix, isForm, marked, based, isMark⟩ := digitEscape?_sound known
        obtain ⟨behind, splits⟩ : ∃ behind, c :: rest = mark ++ behind := by
          rcases isMark with rfl | rfl
          · exact ⟨c :: rest, rfl⟩
          · exact ⟨rest, rfl⟩
        simp only [known, marked, splits, List.drop_left] at read
        rw [read_eq] at read
        split at read
        next complete =>
          split at read
          next => cases read
          next isCode =>
            obtain rfl := Escape.valid.inj read
            have whole : form.found behind = behind.take form.digits := by
              refine (List.takeWhile_prefix _).eq_of_length_le ?_
              rw [List.length_take]
              exact Nat.le_trans (Nat.min_le_left _ _) (Nat.le_of_eq complete.symm)
            have isDigits : ∀ c ∈ form.found behind, radix.HasDigit c := fun c mem =>
              isDigitIn_iff.mp (based ▸ List.all_eq_true.mp List.all_takeWhile c mem)
            rw [marked, splits, List.take_length_add_append, ← whole]
            refine .code isForm isDigits complete ?_
            simpa [IsCode, isSurrogate_iff, based] using isCode
        next => split at read <;> cases read

private theorem escape_complete (isQuote : IsQuote quote) (isEscape : EscapeSequence quote ('\\' :: text))
    (more : List Char) :
    escape quote (text ++ more) = .valid text.length := by
  generalize whole : '\\' :: text = chars at isEscape
  cases isEscape with
  | @letter c isLetter =>
    obtain rfl := (List.cons.inj whole).2
    refine if_pos ?_
    simpa [isSimpleEscape, escapeLetters, or_assoc] using isLetter
  | @code mark digits radix count largest form isDigits counted isCode =>
    obtain rfl := (List.cons.inj whole).2
    obtain ⟨first, rest, starts, known, announces⟩ := digitEscape?_complete form isDigits counted
    have all : ∀ c ∈ digits, isDigitIn radix.base c = true := fun c mem => isDigitIn_iff.mpr (isDigits c mem)
    have found : DigitEscape.found ⟨mark.length, count, radix.base, largest⟩ (digits ++ more) = digits := by
      rw [DigitEscape.found, ← counted, List.take_left]
      simpa using @List.takeWhile_append_of_pos _ _ digits [] all
    have notBad : ¬ (largest < numeral radix.base digits || isSurrogate (numeral radix.base digits)) = true := by
      simpa [IsCode, isSurrogate_iff] using isCode
    rw [starts, List.cons_append, escape, if_neg (Bool.eq_false_iff.mp (not_isSimpleEscape isQuote announces)), known]
    dsimp only
    rw [← List.cons_append, ← starts, List.append_assoc, List.drop_left, read_eq, found, if_pos counted, if_neg notBad,
      List.length_append, counted]

private theorem body_flaw_isSome (quote : Char) (skip length units : Nat) (flaw : Option Flaw) (text : List Char)
    (found : flaw.isSome = true) : (body quote skip length units flaw text).flaw.isSome = true := by
  fun_induction body quote skip length units flaw text with
  | case1 | case3 | case4 | case7 => exact found
  | case2 _ _ _ _ _ _ further => exact further found
  | case5 _ _ _ _ _ _ _ _ further => exact further found
  | case6 _ _ flaw _ _ _ _ _ _ _ further => exact further (by cases flaw <;> rfl)
  | case8 _ _ _ _ _ _ _ _ further => exact further found

/-- A body that the closing quote ends without a flaw consists of units. -/
theorem body_sound {skip length units : Nat} {flaw : Option Flaw} (text : List Char)
    (closed : (body quote skip length units flaw text).ending = .closed)
    (flawless : (body quote skip length units flaw text).flaw = none) :
    ∃ count inner behind, text.drop skip = inner ++ quote :: behind ∧
      QuotedUnits quote count inner ∧ (body quote skip length units flaw text).length = length + inner.length + 1 ∧
        (body quote skip length units flaw text).units = units + count := by
  fun_induction body quote skip length units flaw text with
  | case1 | case4 | case7 => cases closed
  | case2 _ _ _ _ _ _ further => exact further closed flawless
  | case3 _ _ _ rest => exact ⟨0, [], rest, rfl, .nil, rfl, rfl⟩
  | case5 length units _ rest taken read _ _ further =>
    have within : taken ≤ rest.length := escape_taken_le (by rw [read]; rfl)
    obtain ⟨count, inner, behind, splits, isUnits, isLength, isCount⟩ := further closed flawless
    refine ⟨count + 1, ('\\' :: rest.take taken) ++ inner, behind, ?_, .cons (.escape (escape_sound read)) isUnits,
      ?_, by rw [isCount]; omega⟩
    · rw [List.append_assoc, ← splits, List.cons_append, List.take_append_drop, List.drop_zero]
    · rw [isLength, List.length_append, List.length_cons, List.length_take_of_le within]
      omega
  | case6 length units flaw rest taken cause =>
    -- The first flaw is kept to the end.
    have kept := body_flaw_isSome quote taken (length + 1 + taken) (units + 1)
      (flaw.or (some ⟨length, length + 1 + taken, cause⟩)) rest (by cases flaw <;> rfl)
    rw [flawless] at kept
    cases kept
  | case8 length units _ c rest notQuote notNewline notBackslash further =>
    obtain ⟨count, inner, behind, splits, isUnits, isLength, isCount⟩ := further closed flawless
    exact ⟨count + 1, c :: inner, behind, congrArg (c :: ·) splits,
      .cons (.plain notQuote notBackslash notNewline) isUnits, by rw [isLength, List.length_cons]; omega,
      by rw [isCount]; omega⟩

theorem body_complete {length units count : Nat} {flaw : Option Flaw} {inner : List Char} (isQuote : IsQuote quote)
    (isUnits : QuotedUnits quote count inner) (more : List Char) :
    body quote 0 length units flaw (inner ++ quote :: more) =
      ⟨length + inner.length + 1, units + count, flaw, .closed⟩ := by
  have notBackslash : '\\' ≠ quote := by rcases isQuote with rfl | rfl <;> decide
  induction isUnits generalizing length units with
  | nil => simp [body]
  | @cons count unit rest isUnit later ih =>
    cases isUnit with
    | @plain c notQuote isPlain notNewline =>
      simp only [List.cons_append, List.nil_append, body, notQuote, isPlain, notNewline,
        ↓reduceIte, ih, List.length_cons]
      simp only [Body.mk.injEq, and_true]
      omega
    | escape isEscape =>
      obtain ⟨text, rfl⟩ : ∃ text, unit = '\\' :: text := by cases isEscape <;> exact ⟨_, rfl⟩
      have read := escape_complete isQuote isEscape (rest ++ quote :: more)
      rw [List.append_assoc, List.cons_append, body, if_neg notBackslash, if_neg (by decide), if_pos rfl, read]
      dsimp only
      rw [body_skip, List.drop_left, ih]
      simp only [Body.mk.injEq, and_true, List.cons_append, List.length_append, List.length_cons]
      omega

end

end GoPrompt.Quoted
