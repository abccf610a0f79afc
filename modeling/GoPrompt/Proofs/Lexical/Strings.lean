import GoPrompt.Proofs.Lexical.Numbers

/-! What becomes of a string or rune literal when the text goes on behind it. A literal that is closed, or
broken by a newline, stays as it is; one that the end of the text cuts off is closed behind it, if at
all. -/

namespace GoPrompt.Quoted

variable {quote : Char} {text more : List Char}

namespace Escape

/-- How many characters an escape takes behind its backslash, if it is all there. -/
def taken? : Escape → Option Nat
  | valid length | invalid length _ => some length
  | cutOff => none

end Escape

/-- The digits of an escape, as many as there are. -/
def DigitEscape.found (form : DigitEscape) (text : List Char) : List Char :=
  (text.take form.digits).takeWhile (isDigitIn form.base)

theorem read_eq (form : DigitEscape) (text : List Char) : form.read text =
    if (form.found text).length = form.digits then
      if form.largest < numeral form.base (form.found text) || isSurrogate (numeral form.base (form.found text)) then
        .invalid (form.mark + form.digits) .escapeCodePoint
      else .valid (form.mark + form.digits)
    else
      match text.drop (form.found text).length with
      | [] => .cutOff
      | c :: _ => .invalid (form.mark + (form.found text).length) (.escapeCharacter c) := rfl

theorem found_length_le (form : DigitEscape) (text : List Char) :
    (form.found text).length ≤ form.digits ∧ (form.found text).length ≤ text.length := by
  have taken : (form.found text).length ≤ (text.take form.digits).length := (List.takeWhile_sublist _).length_le
  rw [List.length_take] at taken
  omega

private theorem read_taken {form : DigitEscape} {taken : Nat} (read : (form.read text).taken? = some taken) :
    taken = form.mark + (form.found text).length := by
  rw [read_eq] at read
  split at read
  next complete =>
    split at read <;> exact (Option.some.inj read).symm.trans (by rw [complete])
  next =>
    split at read
    · cases read
    · exact (Option.some.inj read).symm

private theorem found_append (form : DigitEscape) (text more : List Char) :
    form.found (text ++ more) = form.found text ∨
    (form.found text = text ∧ text.length < form.digits ∧ text.length < (form.found (text ++ more)).length) := by
  have longer := takeWhile_append_or (isDigitIn form.base) (text.take form.digits)
    (more.take (form.digits - text.length))
  rw [← List.take_append] at longer
  refine longer.imp_right fun ⟨beyond, _⟩ => ?_
  have limit := (found_length_le form (text ++ more)).1
  rw [List.length_take] at beyond
  have short : text.length < form.digits := by
    have : min form.digits text.length < form.digits := Nat.lt_of_lt_of_le beyond limit
    omega
  rw [Nat.min_eq_right (Nat.le_of_lt short)] at beyond
  refine ⟨?_, short, beyond⟩
  have whole := beyond
  rw [List.take_append, List.takeWhile_append, List.take_of_length_le (Nat.le_of_lt short)] at whole
  split at whole
  next all =>
    rw [DigitEscape.found, List.take_of_length_le (Nat.le_of_lt short)]
    exact (List.takeWhile_prefix _).eq_of_length all
  next => exact absurd whole (Nat.not_lt.mpr (List.takeWhile_sublist _).length_le)

/-- An escape in a longer text is the escape in the shorter one, if that is not cut off. -/
theorem read_append (form : DigitEscape) (text more : List Char) :
    form.read (text ++ more) = form.read text ∨ (form.read text = .cutOff ∧ (form.found text).length = text.length ∧
      text.length ≤ (form.found (text ++ more)).length) := by
  have within := (found_length_le form text).2
  rcases found_append form text more with same | ⟨whole, short, beyond⟩
  · by_cases complete : (form.found text).length = form.digits
    · left
      simp only [read_eq, same, complete, ↓reduceIte]
    · cases rest : text.drop (form.found text).length with
      | nil =>
        right
        have ended : (form.found text).length = text.length := Nat.le_antisymm within (List.drop_eq_nil_iff.mp rest)
        refine ⟨?_, ended, Nat.le_of_eq (by rw [same, ended])⟩
        simp only [read_eq, complete, ↓reduceIte, rest]
      | cons c tail =>
        left
        simp only [read_eq, same, complete, ↓reduceIte, List.drop_append_of_le_length within, rest, List.cons_append]
  · right
    refine ⟨?_, by rw [whole], Nat.le_of_lt beyond⟩
    simp only [read_eq, whole, Nat.ne_of_lt short, ↓reduceIte, List.drop_length]

theorem digitEscape_mark {c : Char} {form : DigitEscape} (known : digitEscape? c = some form) : form.mark ≤ 1 := by
  unfold digitEscape? at known
  split at known
  · exact Option.some.inj known ▸ Nat.zero_le 1
  · split at known
    · exact Option.some.inj known ▸ Nat.le_refl 1
    · split at known
      · exact Option.some.inj known ▸ Nat.le_refl 1
      · split at known
        · exact Option.some.inj known ▸ Nat.le_refl 1
        · cases known

theorem escape_append (quote : Char) (text more : List Char) :
    escape quote (text ++ more) = escape quote text ∨ (escape quote text = .cutOff ∧
      ∀ taken, (escape quote (text ++ more)).taken? = some taken → text.length ≤ taken) := by
  cases text with
  | nil => exact .inr ⟨rfl, fun _ _ => Nat.zero_le _⟩
  | cons c rest =>
    simp only [escape, List.cons_append]
    split
    next => exact .inl rfl
    next =>
      cases known : digitEscape? c with
      | none => exact .inl rfl
      | some form =>
        have marked : form.mark ≤ 1 := digitEscape_mark known
        dsimp only
        rw [← List.cons_append, List.drop_append_of_le_length (by simpa using Nat.le_trans marked (by omega))]
        refine (read_append form ((c :: rest).drop form.mark) more).imp_right fun ⟨cut, _, beyond⟩ =>
          ⟨cut, fun taken read => ?_⟩
        rw [read_taken read]
        rw [List.length_drop] at beyond
        omega

theorem escape_taken_le {quote : Char} {text : List Char} {taken : Nat} (read : (escape quote text).taken? = some taken) :
    taken ≤ text.length := by
  cases text with
  | nil => cases read
  | cons c rest =>
    simp only [escape] at read
    split at read
    next => exact Option.some.inj read ▸ by simp
    next =>
      cases known : digitEscape? c with
      | none =>
        simp only [known] at read
        exact Option.some.inj read ▸ Nat.zero_le _
      | some form =>
        simp only [known] at read
        have marked := digitEscape_mark known
        have found := (found_length_le form ((c :: rest).drop form.mark)).2
        rw [read_taken read]
        simp only [List.length_drop, List.length_cons] at found ⊢
        omega

namespace Ending

/-- Whether the end of the text cuts the literal off. -/
def isCut : Ending → Bool
  | endOfInput | cutEscape => true
  | closed | newline => false

end Ending

section

variable (quote : Char) (skip length units : Nat) (flaw : Option Flaw)

private theorem lt_body_of_closed (text : List Char)
    (closed : (body quote skip length units flaw text).ending = .closed) :
    length < (body quote skip length units flaw text).length := by
  fun_induction body quote skip length units flaw text with
  | case1 | case4 | case7 => cases closed
  | case2 _ _ _ _ _ _ further => exact further closed
  | case3 => exact Nat.lt_succ_self _
  | case5 _ _ _ _ _ _ _ _ further => exact Nat.lt_trans (by omega) (further closed)
  | case6 _ _ _ _ _ _ _ _ _ _ further => exact Nat.lt_trans (by omega) (further closed)
  | case8 _ _ _ _ _ _ _ _ further => exact Nat.lt_trans (Nat.lt_succ_self _) (further closed)

private theorem le_body_of_cut (text : List Char) (cut : (body quote skip length units flaw text).ending.isCut = true) :
    length + (text.length - skip) ≤ (body quote skip length units flaw text).length := by
  fun_induction body quote skip length units flaw text with
  | case1 => simp
  | case2 _ _ _ _ _ _ further => exact Nat.le_trans (by simp only [List.length_cons]; omega) (further cut)
  | case3 | case4 => cases cut
  | case5 _ _ _ _ _ _ _ _ further => exact Nat.le_trans (by simp only [List.length_cons]; omega) (further cut)
  | case6 _ _ _ _ _ _ _ _ _ _ further => exact Nat.le_trans (by simp only [List.length_cons]; omega) (further cut)
  | case7 => simp only [List.length_cons]; omega
  | case8 _ _ _ _ _ _ _ _ further => exact Nat.le_trans (by simp only [List.length_cons]; omega) (further cut)

private theorem body_length_le (text : List Char) (within : skip ≤ text.length) :
    (body quote skip length units flaw text).length ≤ length + (text.length - skip) := by
  fun_induction body quote skip length units flaw text with
  | case1 => simp
  | case2 _ _ _ _ _ _ further =>
    exact Nat.le_trans (further (Nat.le_of_succ_le_succ within)) (by simp only [List.length_cons]; omega)
  | case3 | case4 | case7 => simp only [List.length_cons]; omega
  | case5 _ _ _ rest taken read _ _ further =>
    have within : taken ≤ rest.length := escape_taken_le (by rw [read]; rfl)
    exact Nat.le_trans (further within) (by simp only [List.length_cons]; omega)
  | case6 _ _ _ rest taken _ read _ _ _ further =>
    have within : taken ≤ rest.length := escape_taken_le (by rw [read]; rfl)
    exact Nat.le_trans (further within) (by simp only [List.length_cons]; omega)
  | case8 _ _ _ _ _ _ _ _ further =>
    exact Nat.le_trans (further (Nat.zero_le _)) (by simp only [List.length_cons]; omega)

/-- Reading goes on in a longer text only where the shorter one cuts it off. -/
private theorem body_append (text more : List Char) :
    body quote skip length units flaw (text ++ more) = body quote skip length units flaw text ∨
      ((body quote skip length units flaw text).ending.isCut = true ∧
        ((body quote skip length units flaw (text ++ more)).ending = .closed →
          length + (text.length - skip) < (body quote skip length units flaw (text ++ more)).length)) := by
  fun_induction body quote skip length units flaw text with
  | case1 =>
    refine .inr ⟨rfl, fun closed => ?_⟩
    simpa using lt_body_of_closed quote _ _ _ _ more closed
  | case2 _ _ _ _ _ _ further =>
    simpa only [List.cons_append, body, List.length_cons, Nat.add_sub_add_right, Nat.succ_eq_add_one] using further
  | case3 => exact .inl (if_pos rfl)
  | case4 _ _ _ _ notQuote => exact .inl ((if_neg notQuote).trans (if_pos rfl))
  | case5 _ _ _ rest _ read notQuote notNewline further =>
    have same := (escape_append quote rest more).resolve_right (by rw [read]; rintro ⟨⟨⟩, -⟩)
    simp only [List.cons_append, List.length_cons, body, notQuote, notNewline, ↓reduceIte, same, read]
    exact further.imp_right (And.imp_right fun closes closed => Nat.lt_of_le_of_lt (by omega) (closes closed))
  | case6 _ _ _ rest _ _ read _ notQuote notNewline further =>
    have same := (escape_append quote rest more).resolve_right (by rw [read]; rintro ⟨⟨⟩, -⟩)
    simp only [List.cons_append, List.length_cons, body, notQuote, notNewline, ↓reduceIte, same, read]
    exact further.imp_right (And.imp_right fun closes closed => Nat.lt_of_le_of_lt (by omega) (closes closed))
  | case7 _ _ _ rest cutOff notQuote notNewline =>
    -- The rest of the escape may stand in the longer text: then it goes beyond the shorter one.
    have beyond : ∀ taken, (escape quote (rest ++ more)).taken? = some taken → rest.length ≤ taken :=
      (escape_append quote rest more).elim (fun same _ read => by rw [same, cutOff] at read; cases read) (·.2)
    refine .inr ⟨rfl, fun closed => ?_⟩
    simp only [List.cons_append, List.length_cons, body, notQuote, notNewline, ↓reduceIte] at closed ⊢
    split at closed
    next taken read =>
      have := beyond taken (by rw [read]; rfl)
      have := lt_body_of_closed quote taken _ _ _ _ closed
      omega
    next taken _ read =>
      have := beyond taken (by rw [read]; rfl)
      have := lt_body_of_closed quote taken _ _ _ _ closed
      omega
    next => cases closed
  | case8 _ _ _ _ _ notQuote notNewline plain further =>
    simp only [List.cons_append, List.length_cons, body, notQuote, notNewline, plain, ↓reduceIte]
    exact further.imp_right (And.imp_right fun closes closed => Nat.lt_of_le_of_lt (by omega) (closes closed))

end

/-- How the reading of one literal changes when the text, which has `size` characters, goes on. -/
def Continues (kind : LiteralKind) (size : Nat) (longer shorter : LiteralScan) : Prop :=
  longer = shorter ∨ (∃ cause, shorter.outcome = .cutOff kind cause) ∧
    (∀ found, longer.outcome = .complete found → found = kind ∧ size < longer.length) ∧
    (∀ found cause, longer.outcome = .cutOff found cause → found = kind)

private theorem interpreted_append (quote : Char) {text : List Char} (nonempty : text ≠ []) (more : List Char) :
    interpreted quote (text ++ more) = interpreted quote text ∨
      ((interpreted quote text).ending.isCut = true ∧
        ((interpreted quote (text ++ more)).ending = .closed →
          text.length < (interpreted quote (text ++ more)).length)) := by
  have one : 1 ≤ text.length := List.length_pos_iff.mpr nonempty
  unfold interpreted
  rw [List.drop_append_of_le_length one]
  refine (body_append quote 0 1 0 none (text.drop 1) more).imp_right fun ⟨cut, closes⟩ => ⟨cut, fun closed => ?_⟩
  have := closes closed
  rw [List.length_drop] at this
  omega

/-- What is made of the body of a literal between quotes: the kind of a closed one, unless something is wrong with it as
a whole, and the causes to name where a newline breaks it or the end of the text cuts it off. -/
structure Reader where
  kind : LiteralKind
  quote : Char
  broken : LexCause
  cut : CutoffCause
  cutEscape : CutoffCause
  wrong? : Body → Option Flaw
  isQuote : quote = doubleQuote ∨ quote = singleQuote
  wrong?_whole : ∀ {read : Body} {flaw : Flaw}, wrong? read = some flaw → flaw.first = 0 ∧ flaw.last = read.length

namespace Reader

def string : Reader where
  kind := .string
  quote := doubleQuote
  broken := .newlineInString
  cut := .string
  cutEscape := .stringEscape
  wrong? _ := none
  isQuote := .inl rfl
  wrong?_whole := nofun

def rune : Reader where
  kind := .rune
  quote := singleQuote
  broken := .newlineInRune
  cut := .rune
  cutEscape := .runeEscape
  wrong? := unitFlaw?
  isQuote := .inr rfl
  wrong?_whole := by
    intro read flaw found
    unfold unitFlaw? at found
    split at found
    · cases found
      exact ⟨rfl, rfl⟩
    · split at found
      · cases found
        exact ⟨rfl, rfl⟩
      · cases found

variable (reader : Reader) {read : Body} {result : LiteralOutcome}

def outcome (read : Body) : LiteralOutcome :=
  match read.ending with
  | .closed => (read.flaw.or (reader.wrong? read)).elim (.complete reader.kind) .invalid
  | .newline => .invalid (read.flaw.getD ⟨0, read.length, reader.broken⟩)
  | .endOfInput => .cutOff reader.kind reader.cut
  | .cutEscape => .cutOff reader.kind reader.cutEscape

def scan (text : List Char) : LiteralScan :=
  ⟨(interpreted reader.quote text).length, reader.outcome (interpreted reader.quote text)⟩

/-- The outcomes for a body. -/
inductive Judges (read : Body) : LiteralOutcome → Prop
  | complete (closed : read.ending = .closed) (flawless : read.flaw = none) (right : reader.wrong? read = none) :
      Judges read (.complete reader.kind)
  | invalid {flaw : Flaw} (uncut : read.ending.isCut = false)
      (known : read.flaw = some flaw ∨ flaw.first = 0 ∧ flaw.last = read.length) : Judges read (.invalid flaw)
  | cutOff {cause : CutoffCause} (isCut : read.ending.isCut = true)
      (isCause : cause = reader.cut ∨ cause = reader.cutEscape) :
      Judges read (.cutOff reader.kind cause)

theorem judges (read : Body) : reader.Judges read (reader.outcome read) := by
  unfold outcome
  cases ending : read.ending with
  | closed =>
    cases flaw : read.flaw with
    | some found => exact .invalid (by rw [ending]; rfl) (.inl flaw)
    | none =>
      cases wrong : reader.wrong? read with
      | some found => exact .invalid (by rw [ending]; rfl) (.inr (reader.wrong?_whole wrong))
      | none => exact .complete ending flaw wrong
  | newline =>
    cases flaw : read.flaw with
    | some found => exact .invalid (by rw [ending]; rfl) (.inl flaw)
    | none => exact .invalid (by rw [ending]; rfl) (.inr ⟨rfl, rfl⟩)
  | endOfInput => exact .cutOff (by rw [ending]; rfl) (.inl rfl)
  | cutEscape => exact .cutOff (by rw [ending]; rfl) (.inr rfl)

variable {reader}

theorem Judges.isCut {kind : LiteralKind} {cause : CutoffCause} (judges : reader.Judges read (.cutOff kind cause)) :
    read.ending.isCut = true ∧ kind = reader.kind ∧ (cause = reader.cut ∨ cause = reader.cutEscape) := by
  cases judges with
  | cutOff isCut isCause => exact ⟨isCut, rfl, isCause⟩

private theorem Judges.of_cut (judges : reader.Judges read result) (isCut : read.ending.isCut = true) :
    ∃ cause, result = .cutOff reader.kind cause := by
  cases judges with
  | complete closed =>
    rw [closed] at isCut
    cases isCut
  | invalid uncut => cases uncut.symm.trans isCut
  | cutOff => exact ⟨_, rfl⟩

theorem Judges.of_newline (judges : reader.Judges read result) (ended : read.ending = .newline) :
    ∃ flaw, result = .invalid flaw := by
  cases judges with
  | complete closed => cases closed.symm.trans ended
  | invalid => exact ⟨_, rfl⟩
  | cutOff isCut =>
    rw [ended] at isCut
    cases isCut

variable (reader)

theorem scan_append {text : List Char} (nonempty : text ≠ []) (more : List Char) :
    Continues reader.kind text.length (reader.scan (text ++ more)) (reader.scan text) := by
  have longer := reader.judges (interpreted reader.quote (text ++ more))
  rcases interpreted_append reader.quote nonempty more with same | ⟨cut, closes⟩
  · exact .inl (by rw [scan, scan, same])
  · refine .inr ⟨(reader.judges _).of_cut cut, fun found complete => ?_, fun found cause cutOff => ?_⟩
    · rw [show reader.outcome _ = _ from complete] at longer
      cases longer with
      | complete closed => exact ⟨rfl, closes closed⟩
    · rw [show reader.outcome _ = _ from cutOff] at longer
      exact longer.isCut.2.1

end Reader

theorem scanString_eq : scanString = Reader.string.scan := by
  funext text
  have unflawed : ∀ flaw : Option Flaw, flaw.or (Reader.string.wrong? (interpreted Reader.string.quote text)) = flaw :=
    fun _ => Option.or_none
  rw [Reader.scan, Reader.outcome, unflawed]
  rfl

theorem scanRune_eq : scanRune = Reader.rune.scan := rfl

theorem scanRawString_eq (text : List Char) :
    scanRawString text =
      let inner := (text.drop 1).takeWhile (· != backquote)
      if 1 + inner.length < text.length then ⟨1 + inner.length + 1, .complete .string⟩
      else ⟨1 + inner.length, .cutOff .string .rawString⟩ := by
  unfold scanRawString
  dsimp only
  split
  next ended =>
    rw [if_neg]
    simpa using List.drop_eq_nil_iff.mp ended
  next c rest more =>
    rw [if_pos]
    have := congrArg List.length more
    simp only [List.length_drop, List.length_cons] at this
    omega

/-- A raw string that has no end up to a place is closed behind the place, if at all. -/
private theorem scanRawString_beyond {text : List Char} {size : Nat}
    (unclosed : size ≤ 1 + ((text.drop 1).takeWhile (· != backquote)).length) :
    (∀ found, (scanRawString text).outcome = .complete found → found = .string ∧ size < (scanRawString text).length) ∧
    ∀ found cause, (scanRawString text).outcome = .cutOff found cause → found = .string := by
  rw [scanRawString_eq]
  dsimp only
  split
  next =>
    refine ⟨?_, nofun⟩
    rintro _ ⟨⟩
    exact ⟨rfl, Nat.lt_succ_of_le unclosed⟩
  next =>
    refine ⟨nofun, ?_⟩
    rintro _ _ ⟨⟩
    rfl

theorem scanRawString_append {text : List Char} (nonempty : text ≠ []) (more : List Char) :
    Continues .string text.length (scanRawString (text ++ more)) (scanRawString text) := by
  have one : 1 ≤ text.length := List.length_pos_iff.mpr nonempty
  have size : (text.drop 1).length = text.length - 1 := List.length_drop
  have behind : (text ++ more).drop 1 = text.drop 1 ++ more := List.drop_append_of_le_length one
  rcases takeWhile_append_or (· != backquote) (text.drop 1) more with same | ⟨beyond, _⟩
  · by_cases closed : 1 + ((text.drop 1).takeWhile (· != backquote)).length < text.length
    · left
      rw [scanRawString_eq, scanRawString_eq text, behind, same, List.length_append]
      dsimp only
      rw [if_pos closed, if_pos (by omega)]
    · refine .inr ⟨⟨.rawString, ?_⟩, scanRawString_beyond (by rw [behind, same]; omega)⟩
      rw [scanRawString_eq, if_neg closed]
  · refine .inr ⟨⟨.rawString, ?_⟩, scanRawString_beyond (by rw [behind]; omega)⟩
    have all := beyond
    rw [List.takeWhile_append] at all
    rw [scanRawString_eq, if_neg]
    split at all
    next whole => omega
    next => exact absurd all (Nat.not_lt.mpr (List.takeWhile_sublist _).length_le)

theorem interpreted_length_le (quote : Char) {text : List Char} (nonempty : text ≠ []) :
    (interpreted quote text).length ≤ text.length := by
  have one : 1 ≤ text.length := List.length_pos_iff.mpr nonempty
  have := body_length_le quote 0 1 0 none (text.drop 1) (Nat.zero_le _)
  rw [List.length_drop] at this
  unfold interpreted
  omega

theorem le_interpreted_of_cut (quote : Char) (text : List Char) (cut : (interpreted quote text).ending.isCut = true) :
    text.length ≤ (interpreted quote text).length := by
  have := le_body_of_cut quote 0 1 0 none (text.drop 1) cut
  rw [List.length_drop] at this
  unfold interpreted
  omega

end GoPrompt.Quoted
