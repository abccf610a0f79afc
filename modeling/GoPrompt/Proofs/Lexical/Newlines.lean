import GoPrompt.Proofs.Lexical.Lexes
import GoPrompt.Unicode.Blanks

/-! What a newline behind a text does to its last token. A literal that the end of the text cuts off is spoilt,
except that a raw string stays open, as an open comment does; and the semicolon inserted at the end of the text
becomes one inserted at the end of the line. Blanks on the next line make no difference to that. -/

namespace GoPrompt

variable {blanks : List Char}

theorem ne_of_blank {c other : Char} (blank : Unicode.isBlank c = true) (written : Unicode.isBlank other = false) :
    c ≠ other := by
  rintro rfl
  rw [blank] at written
  cases written

/-- Whether a property holds of no blank, which the ranges of the blanks decide. -/
def Unicode.SparesBlanks (p : Char → Bool) : Prop :=
  (Unicode.blankRanges.flatMap fun range => List.range' range.1 (range.2 + 1 - range.1)).all
    (fun code => !p (Char.ofNat code)) = true

instance {p : Char → Bool} : Decidable (Unicode.SparesBlanks p) := inferInstanceAs (Decidable (_ = _))

theorem Unicode.SparesBlanks.of_isBlank {p : Char → Bool} (spares : SparesBlanks p) {c : Char}
    (blank : isBlank c = true) :
    p c = false := by
  obtain ⟨range, mem, above, below⟩ := (inRanges_iff _ _).mp blank
  have there : c.toNat ∈ blankRanges.flatMap fun range => List.range' range.1 (range.2 + 1 - range.1) :=
    List.mem_flatMap.mpr ⟨range, mem, List.mem_range'_1.mpr ⟨above, by omega⟩⟩
  have apart := List.all_eq_true.mp spares c.toNat there
  rwa [Char.ofNat_toNat, Bool.not_eq_true'] at apart

theorem Unicode.SparesBlanks.not_isBlank {p : Char → Bool} (spares : SparesBlanks p) {c : Char} (holds : p c = true) :
    isBlank c = false :=
  Bool.eq_false_iff.mpr fun blank => Bool.false_ne_true ((spares.of_isBlank blank).symm.trans holds)

def beginsToken (c : Char) : Bool :=
  isNameStart c || c.isDigit || ['.', Quoted.doubleQuote, Quoted.backquote, Quoted.singleQuote, ';'].contains c ||
    Operator.longestFirst.any fun operator => operator.spelling.head?.all (· == c)

theorem scanToken_blank {c : Char} (blank : Unicode.isBlank c = true) (rest : List Char) :
    ∃ flaw, scanToken c rest = ⟨1, .invalid flaw⟩ := by
  have spares : Unicode.SparesBlanks beginsToken := by decide +kernel
  have apart := spares.of_isBlank blank
  simp only [beginsToken, Bool.or_eq_false_iff, List.contains_eq_mem, decide_eq_false_iff_not,
    List.mem_cons, not_or, List.any_eq_false, List.not_mem_nil] at apart
  obtain ⟨⟨⟨name, digit⟩, point, double, back, single, semicolon, -⟩, operators⟩ := apart
  have noOperator : operator? (c :: rest) = none := by
    refine List.find?_eq_none.mpr fun operator mem isPrefix => operators operator mem ?_
    cases spelling : operator.spelling with
    | nil => rfl
    | cons first others =>
      rw [spelling, List.isPrefixOf_cons_cons, Bool.and_eq_true] at isPrefix
      exact isPrefix.1
  have noNumber : startsNumber c rest = false := by simp [startsNumber, digit, point]
  simp only [scanToken, name, noNumber, double, back, single, semicolon, noOperator, Bool.false_eq_true, ↓reduceIte]
  exact ⟨_, rfl⟩

theorem startsBlank_newline : StartsBlank ('\n' :: blanks) := rfl

/-- A text that begins with the end of a line, marked by one character or by two. -/
inductive BreaksLine : List Char → Prop
  | newline (rest : List Char) : BreaksLine ('\n' :: rest)
  | returned (rest : List Char) : BreaksLine ('\r' :: '\n' :: rest)

private theorem BreaksLine.exists_cons {behind : List Char} (breaks : BreaksLine behind) :
    ∃ c rest, behind = c :: rest ∧ isBlank c = true := by
  cases breaks <;> exact ⟨_, _, rfl, rfl⟩

theorem BreaksLine.startsBlank {behind : List Char} (breaks : BreaksLine behind) : StartsBlank behind := by
  cases breaks <;> rfl

namespace Quoted

private theorem isDigitIn_blank (base : Nat) (c : Char) (blank : isBlank c = true) : isDigitIn base c = false := by
  have apart : isHexDigit c = false := by rcases isBlank_iff.mp blank with rfl | rfl | rfl | rfl <;> decide
  rw [isDigitIn, apart, Bool.false_and]

private theorem found_blank (form : DigitEscape) (text : List Char) {c : Char} (blank : isBlank c = true)
    (rest : List Char) :
    form.found (text ++ c :: rest) = form.found text := by
  unfold DigitEscape.found
  rw [List.take_append]
  cases form.digits - text.length with
  | zero => rw [List.take_zero, List.append_nil]
  | succ missing =>
    rw [List.take_succ_cons]
    refine (takeWhile_append_or _ _ _).resolve_right fun ⟨_, starts⟩ => ?_
    rw [List.head?_cons, Option.any_some, isDigitIn_blank form.base c blank] at starts
    cases starts

private theorem read_blank {form : DigitEscape} {text : List Char} (cut : form.read text = .cutOff) {c : Char}
    (blank : isBlank c = true) (rest : List Char) :
    ∃ cause, form.read (text ++ c :: rest) = .invalid (form.mark + text.length) cause := by
  have within := (found_length_le form text).2
  rw [read_eq] at cut
  split at cut
  next => split at cut <;> cases cut
  next short =>
    split at cut
    next ended =>
      have whole : (form.found text).length = text.length := Nat.le_antisymm within (List.drop_eq_nil_iff.mp ended)
      refine ⟨.escapeCharacter c, ?_⟩
      rw [read_eq, found_blank form text blank, if_neg short, List.drop_append_of_le_length within, ended, whole]
      rfl
    next => cases cut

private theorem escape_blank {quote : Char} (apart : isBlank quote = false) {text : List Char}
    (cut : escape quote text = .cutOff) {c : Char} (blank : isBlank c = true) (rest : List Char) :
    ∃ cause, escape quote (text ++ c :: rest) = .invalid text.length cause := by
  cases text with
  | nil =>
    have notQuote : c ≠ quote := fun same => by
      rw [same, apart] at blank
      cases blank
    have notSimple : isSimpleEscape quote c = false := by
      rcases isBlank_iff.mp blank with rfl | rfl | rfl | rfl <;> simp [isSimpleEscape, notQuote]
    have noDigits : digitEscape? c = none := by rcases isBlank_iff.mp blank with rfl | rfl | rfl | rfl <;> rfl
    refine ⟨.unknownEscape, ?_⟩
    simp only [List.nil_append, escape, notSimple, noDigits, Bool.false_eq_true, ↓reduceIte, List.length_nil]
  | cons d tail =>
    simp only [escape, List.cons_append] at cut ⊢
    split at cut
    next => cases cut
    next notSimple =>
      rw [if_neg notSimple]
      cases known : digitEscape? d with
      | none =>
        rw [known] at cut
        cases cut
      | some form =>
        rw [known] at cut
        have marked : form.mark ≤ (d :: tail).length := Nat.le_trans (digitEscape_mark known) (by simp)
        obtain ⟨cause, read⟩ := read_blank cut blank rest
        refine ⟨cause, ?_⟩
        dsimp only
        rw [← List.cons_append, List.drop_append_of_le_length marked, read, List.length_drop,
          Nat.add_sub_cancel' marked]

theorem body_skip (quote : Char) (skip length units : Nat) (flaw : Option Flaw) (text : List Char) :
    body quote skip length units flaw text = body quote 0 length units flaw (text.drop skip) := by
  induction text generalizing skip with
  | nil => simp [body]
  | cons c rest ih =>
    cases skip with
    | zero => rfl
    | succ skip => exact ih skip

section

variable {behind : List Char} (breaks : BreaksLine behind)
include breaks

/-- A literal that the end of the text cuts off ends with the line, in front of the newline. -/
private theorem body_break {quote : Char} (apart : isBlank quote = false) (skip length units : Nat) (flaw : Option Flaw)
    (text : List Char) (within : skip ≤ text.length)
    (cut : (body quote skip length units flaw text).ending.isCut = true) :
    (body quote skip length units flaw (text ++ behind)).ending = .newline ∧
      (behind.head? = some '\n' → (body quote skip length units flaw (text ++ behind)).length =
        length + (text.length - skip)) := by
  -- What stands behind the text is the end of the line, and not the closing quote.
  have ended : ∀ length units flaw, (body quote 0 length units flaw behind).ending = .newline ∧
      (behind.head? = some '\n' → (body quote 0 length units flaw behind).length = length) := by
    have notNewline : '\n' ≠ quote := by
      rintro rfl
      cases apart
    have notReturn : '\r' ≠ quote := by
      rintro rfl
      cases apart
    intro length units flaw
    cases breaks <;> simp [body, notNewline, notReturn]
  fun_induction body quote skip length units flaw text with
  | case1 _ length units flaw =>
    obtain rfl := Nat.le_zero.mp within
    exact ended length units flaw
  | case2 _ _ _ _ _ _ further =>
    rw [List.length_cons, Nat.succ_eq_add_one, Nat.add_sub_add_right]
    exact further (Nat.le_of_succ_le_succ within) cut
  | case3 | case4 => cases cut
  | case5 _ _ _ rest taken read notQuote notNewline further =>
    have same := (escape_append quote rest behind).resolve_right (by rw [read]; rintro ⟨⟨⟩, -⟩)
    have within : taken ≤ rest.length := escape_taken_le (by rw [read]; rfl)
    obtain ⟨ending, size⟩ := further within cut
    simp only [List.cons_append, List.length_cons, body, notQuote, notNewline, ↓reduceIte, same, read]
    exact ⟨ending, fun newline => (size newline).trans (by omega)⟩
  | case6 _ _ _ rest taken _ read _ notQuote notNewline further =>
    have same := (escape_append quote rest behind).resolve_right (by rw [read]; rintro ⟨⟨⟩, -⟩)
    have within : taken ≤ rest.length := escape_taken_le (by rw [read]; rfl)
    obtain ⟨ending, size⟩ := further within cut
    simp only [List.cons_append, List.length_cons, body, notQuote, notNewline, ↓reduceIte, same, read]
    exact ⟨ending, fun newline => (size newline).trans (by omega)⟩
  | case7 length units flaw rest cutOff notQuote notNewline =>
    -- What stands behind the text spoils the escape, and the reading goes on to the end of the line.
    obtain ⟨c, tail, rfl, blank⟩ := breaks.exists_cons
    obtain ⟨cause, spoilt⟩ := escape_blank apart cutOff blank tail
    obtain ⟨ending, size⟩ :=
      ended (length + 1 + rest.length) (units + 1) (flaw.or (some ⟨length, length + 1 + rest.length, cause⟩))
    simp only [List.cons_append, List.length_cons, body, notQuote, notNewline, ↓reduceIte, spoilt]
    rw [body_skip, List.drop_left]
    exact ⟨ending, fun newline => (size newline).trans (by omega)⟩
  | case8 _ _ _ _ _ notQuote notNewline plain further =>
    obtain ⟨ending, size⟩ := further (Nat.zero_le _) cut
    simp only [List.cons_append, List.length_cons, body, notQuote, notNewline, plain, ↓reduceIte]
    exact ⟨ending, fun newline => (size newline).trans (by omega)⟩

private theorem interpreted_break {quote : Char} (apart : isBlank quote = false) {text : List Char}
    (nonempty : text ≠ []) (cut : (interpreted quote text).ending.isCut = true) :
    (interpreted quote (text ++ behind)).ending = .newline ∧
      (behind.head? = some '\n' → (interpreted quote (text ++ behind)).length = text.length) := by
  have one : 1 ≤ text.length := List.length_pos_iff.mpr nonempty
  unfold interpreted at cut ⊢
  rw [List.drop_append_of_le_length one]
  obtain ⟨ending, size⟩ := body_break breaks apart 0 1 0 none _ (Nat.zero_le _) cut
  rw [List.length_drop] at size
  exact ⟨ending, fun newline => (size newline).trans (by omega)⟩

private theorem Reader.scan_break (reader : Reader) {text : List Char} (nonempty : text ≠ []) {kind : LiteralKind}
    {cause : CutoffCause} (cutOff : (reader.scan text).outcome = .cutOff kind cause) :
    (∃ flaw, (reader.scan (text ++ behind)).outcome = .invalid flaw) ∧
      (behind.head? = some '\n' → (reader.scan (text ++ behind)).length = text.length) ∧
      kind = reader.kind ∧ (cause = reader.cut ∨ cause = reader.cutEscape) := by
  have judges := reader.judges (interpreted reader.quote text)
  rw [show reader.outcome _ = _ from cutOff] at judges
  obtain ⟨isCut, isKind, isCause⟩ := judges.isCut
  have apart : isBlank reader.quote = false := by rcases reader.isQuote with same | same <;> rw [same] <;> decide
  obtain ⟨ending, size⟩ := interpreted_break breaks apart nonempty isCut
  exact ⟨(reader.judges _).of_newline ending, size, isKind, isCause⟩

end

/-- A raw string goes on behind the newline. -/
private theorem scanRawString_newline (blank : ∀ c ∈ blanks, Unicode.isBlank c = true) {text : List Char}
    (nonempty : text ≠ []) {kind : LiteralKind} {cause : CutoffCause}
    (cutOff : (scanRawString text).outcome = .cutOff kind cause) :
    (scanRawString (text ++ '\n' :: blanks)).outcome = .cutOff .string .rawString ∧
    kind = .string ∧ cause = .rawString := by
  have one : 1 ≤ text.length := List.length_pos_iff.mpr nonempty
  rw [scanRawString_eq] at cutOff ⊢
  dsimp only at cutOff ⊢
  split at cutOff
  next => cases cutOff
  next isOpen =>
    cases cutOff
    have inside := (List.takeWhile_sublist (l := text.drop 1) (· != backquote)).length_le
    have whole : ((text.drop 1).takeWhile (· != backquote)).length = (text.drop 1).length := by
      rw [List.length_drop] at inside ⊢
      omega
    have apart : ∀ c ∈ '\n' :: blanks, (c != backquote) = true := by
      intro c mem
      rcases List.mem_cons.mp mem with rfl | mem
      · decide
      · exact bne_iff_ne.mpr (ne_of_blank (blank c mem) (by decide))
    have unclosed : ('\n' :: blanks).takeWhile (· != backquote) = '\n' :: blanks := by
      simpa using @List.takeWhile_append_of_pos _ (· != backquote) _ [] apart
    rw [List.drop_append_of_le_length one, List.takeWhile_append, if_pos whole, unclosed, if_neg]
    · exact ⟨rfl, rfl, rfl⟩
    · simp only [List.length_append, List.length_drop]
      omega

end Quoted

namespace Number

/-- The kind of a number, or of what is wrong with one. -/
def kindOf : Except Fault (LiteralKind × Nat) → LiteralKind
  | .ok value => value.1
  | .error fault => fault.kind

private theorem Mantissa.kind_ne (read : Mantissa) : read.kind ≠ .string := by
  unfold Mantissa.kind
  split <;> simp

private theorem mantissaBehind_kind {radix : Radix} {whole rest : List Char} {length : Nat} {fault : Fault}
    (failed : mantissaBehind radix whole length rest = .error fault) : fault.kind ≠ .string := by
  unfold mantissaBehind at failed
  dsimp only at failed
  split at failed
  next =>
    split at failed
    next =>
      cases failed
      simp
    next =>
      split at failed <;> cases failed
      simp [Mantissa.kind]
  next =>
    split at failed <;> cases failed
    simp [Mantissa.kind]

private theorem exponent_kind (text : List Char) (read : Mantissa) : kindOf (exponent text read) ≠ .string := by
  have digits : kindOf (exponentDigits text (read.length + 1)) ≠ .string := by
    unfold exponentDigits
    dsimp only
    split <;> simp [kindOf]
  rw [exponent_eq]
  unfold exponentAt
  split
  case h_5 =>
    split
    · simp [kindOf]
    · exact read.kind_ne
  all_goals
    split
    · exact digits
    · exact read.kind_ne

private theorem finish_kind (text : List Char) (mark : Nat) (read : Mantissa) {value : LiteralKind × Nat}
    (numeric : value.1 ≠ .string) :
    kindOf (finish text mark read value) ≠ .string := by
  have ended : (endAt value.1 value.2 (text.drop value.2).head?).1 ≠ .string := by
    unfold endAt
    split
    · simp
    · exact numeric
  have judgement : ∀ kind length, kindOf (judged text mark read kind length) = kind := by
    intro kind length
    unfold judged
    dsimp only
    split
    next =>
      split
      · rfl
      · split
        · rfl
        · split <;> rfl
    next => split <;> rfl
  unfold finish
  rw [judgement]
  exact ended

private theorem read_kind {text : List Char} {fault : Fault} (failed : Number.read text = .error fault) :
    fault.kind ≠ .string := by
  rw [read_eq] at failed
  cases mantissa : mantissa text with
  | error found =>
    rw [mantissa] at failed
    cases failed
    rw [mantissa_eq] at mantissa
    exact mantissaBehind_kind mantissa
  | ok read =>
    rw [mantissa] at failed
    have numeric := exponent_kind text read
    cases exponent : exponent text read with
    | error found =>
      simp only [bind, Except.bind, exponent] at failed
      cases failed
      rwa [exponent] at numeric
    | ok value =>
      rw [exponent] at numeric
      have finished := finish_kind text (announced text).2 read numeric
      simp only [bind, Except.bind, exponent] at failed
      rwa [failed] at finished

/-- A number that may still be repaired at the end of the text is beyond repair at the end of a line. -/
private theorem scan_break {behind : List Char} (breaks : BreaksLine behind) {text : List Char} (nonempty : text ≠ [])
    {kind : LiteralKind} {cause : CutoffCause} (cutOff : (scan text).outcome = .cutOff kind cause) :
    (∃ flaw, (scan (text ++ behind)).outcome = .invalid flaw) ∧ (scan (text ++ behind)).length = text.length ∧
      kind ≠ .string := by
  have covers := scan_covers text kind cause cutOff
  unfold scan at cutOff
  split at cutOff
  next => cases cutOff
  next fault read =>
    have numeric := read_kind read
    split at cutOff
    next =>
      cases cutOff
      have reaches : text.length ≤ fault.length := by
        rw [scan_length_eq, read] at covers
        exact covers
      have within : fault.length ≤ text.length := by
        have := covered_read_le text
        rwa [read] at this
      have left : (text ++ behind).drop fault.length = behind := by
        rw [List.drop_append_of_le_length within, List.drop_eq_nil_of_le reaches, List.nil_append]
      have plain : behind.head?.any isOfNumber = false := by
        cases breaks with
        | newline => exact show isOfNumber '\n' = false by decide
        | returned => exact show isOfNumber '\r' = false by decide
      have more : behind.isEmpty = false := by cases breaks <;> rfl
      simp only [scan, read_append_of_plain nonempty plain, read, left, more, Bool.and_false,
        Bool.false_eq_true, ↓reduceIte]
      exact ⟨⟨_, rfl⟩, Nat.le_antisymm within reaches, numeric⟩
    next => cases cutOff

end Number

theorem scanToken_backquote (rest : List Char) :
    scanToken Quoted.backquote rest = (Quoted.scanRawString (Quoted.backquote :: rest)).toTokenScan := by
  have notName : isNameStart Quoted.backquote = false := by decide
  have notNumber : startsNumber Quoted.backquote rest = false := by
    simp [startsNumber, Quoted.backquote, show '\x60'.isDigit = false by decide]
  simp only [scanToken, notName, notNumber, Bool.false_eq_true, ↓reduceIte,
    show Quoted.backquote ≠ Quoted.doubleQuote by decide]

theorem LiteralScan.outcome_of_cutOff {scan : LiteralScan} {kind : LiteralKind} {cause : CutoffCause}
    (cut : scan.toTokenScan.shape = .cutOff kind cause) : scan.outcome = .cutOff kind cause := by
  unfold LiteralScan.toTokenScan at cut
  cases outcome : scan.outcome <;> simp only [outcome] at cut <;> cases cut
  rfl

/-- A token that the end of the text cuts off is spoilt by the end of a line, unless it is a raw string. -/
theorem scanToken_break {behind : List Char} (breaks : BreaksLine behind) {first : Char} {rest : List Char}
    {kind : LiteralKind} {cause : CutoffCause} (notRaw : first ≠ Quoted.backquote)
    (cutOff : (scanToken first rest).shape = .cutOff kind cause) :
    (∃ flaw, (scanToken first (rest ++ behind)).shape = .invalid flaw) ∧
      (behind.head? = some '\n' → (scanToken first (rest ++ behind)).length = rest.length + 1) ∧
      (kind = .string → cause.construct = .string) := by
  have nonempty : first :: rest ≠ [] := by simp
  have digit : startsNumber first (rest ++ behind) = startsNumber first rest :=
    (startsNumber_append first rest behind).resolve_right fun ⟨_, _, digit⟩ => by
      rw [breaks.startsBlank.any_eq_false not_isDigit_of_isBlank] at digit
      cases digit
  have spoilt : ∀ {scan : LiteralScan}, (∃ flaw, scan.outcome = .invalid flaw) →
      ∃ flaw, scan.toTokenScan.shape = .invalid flaw := by
    rintro scan ⟨flaw, invalid⟩
    exact ⟨flaw, by simp only [LiteralScan.toTokenScan, invalid]⟩
  have starts := tokenSort_starts first (startsNumber first rest)
  rw [scanToken_eq] at cutOff
  rw [scanToken_eq, digit]
  obtain ⟨sort, isLiteral⟩ := TokenSort.literal_of_cutOff cutOff
  rw [isLiteral] at cutOff starts ⊢
  have cutOff := LiteralScan.outcome_of_cutOff cutOff
  cases sort with
  | number =>
    obtain ⟨invalid, size, numeric⟩ := Number.scan_break breaks nonempty cutOff
    exact ⟨spoilt invalid, fun _ => size, fun isString => absurd isString numeric⟩
  | interpreted =>
    rw [LiteralSort.scan, Quoted.scanString_eq] at cutOff
    rw [TokenSort.scan, LiteralSort.scan, Quoted.scanString_eq]
    obtain ⟨invalid, size, -, isCause⟩ := Quoted.Reader.string.scan_break breaks nonempty cutOff
    exact ⟨spoilt invalid, size, fun _ => by rcases isCause with rfl | rfl <;> rfl⟩
  | raw => exact absurd starts notRaw
  | rune =>
    obtain ⟨invalid, size, isRune, -⟩ := Quoted.Reader.rune.scan_break breaks nonempty cutOff
    exact ⟨spoilt invalid, size, fun isString => by cases isRune.symm.trans isString⟩

/-- A token that the end of the text cuts off is spoilt by a newline, but a raw string stays open. -/
theorem scanToken_newline (blank : ∀ c ∈ blanks, Unicode.isBlank c = true) {first : Char} {rest : List Char}
    {kind : LiteralKind} {cause : CutoffCause} (cutOff : (scanToken first rest).shape = .cutOff kind cause) :
    ((∃ flaw, (scanToken first (rest ++ '\n' :: blanks)).shape = .invalid flaw) ∧
      (kind = .string → cause.construct = .string)) ∨
      ((scanToken first (rest ++ '\n' :: blanks)).shape = .cutOff .string .rawString ∧ kind = .string ∧
        cause = .rawString) := by
  by_cases raw : first = Quoted.backquote
  · rw [raw, scanToken_backquote] at cutOff ⊢
    obtain ⟨isOpen, isString, isRaw⟩ :=
      Quoted.scanRawString_newline blank (List.cons_ne_nil _ rest) (LiteralScan.outcome_of_cutOff cutOff)
    exact .inr ⟨by simp only [LiteralScan.toTokenScan, ← List.cons_append, isOpen], isString, isRaw⟩
  · obtain ⟨spoilt, -, construct⟩ := scanToken_break (.newline blanks) raw cutOff
    exact .inl ⟨spoilt, construct⟩

end GoPrompt
