import GoPrompt.Proofs.Lexical.Literals

/-! Numbers as they are while they are written. What stands in front of a place inside a number is a number of its own,
or lacks something that may still come, and its separators are in their places as far as it goes. -/

namespace GoPrompt

/-- What a literal of a kind may be in a longer text: a point, an exponent or a suffix behind its digits changes
its kind. -/
def LiteralKind.MayBecome : LiteralKind → LiteralKind → Prop
  | .int, later => later = .int ∨ later = .float ∨ later = .imaginary
  | .float, later => later = .float ∨ later = .imaginary
  | kind, later => later = kind

/-- Whether every separator stands behind a digit or the mark of a base, and in front of a digit, as far as the
text goes. -/
def SeparatorsFit (text : List Char) : Prop :=
  ∀ front first second behind, text = front ++ first :: second :: behind →
    (second = '_' → Radix.hexadecimal.HasDigit first ∨ ∃ radix : Radix, first ∈ radix.marks) ∧
      (first = '_' → Radix.hexadecimal.HasDigit second)

theorem SeparatorsFit.left {text more : List Char} (fit : SeparatorsFit (text ++ more)) : SeparatorsFit text := by
  intro front first second behind splits
  exact fit front first second (behind ++ more) (by rw [splits, List.append_assoc]; rfl)

private theorem separatorsFit_cons {c : Char} {rest : List Char} : SeparatorsFit (c :: rest) ↔
    (∀ d ∈ rest.head?, (d = '_' → Radix.hexadecimal.HasDigit c ∨ ∃ radix : Radix, c ∈ radix.marks) ∧
      (c = '_' → Radix.hexadecimal.HasDigit d)) ∧ SeparatorsFit rest := by
  constructor
  · intro fit
    refine ⟨fun d isHead => ?_, fun front first second behind splits =>
      fit (c :: front) first second behind (by rw [splits]; rfl)⟩
    obtain ⟨rest, rfl⟩ := List.head?_eq_some_iff.mp isHead
    exact fit [] c d rest rfl
  · rintro ⟨here, later⟩ front first second behind splits
    cases front with
    | nil =>
      obtain ⟨rfl, rfl⟩ := List.cons.inj splits
      exact here second rfl
    | cons d front =>
      obtain ⟨rfl, rfl⟩ := List.cons.inj splits
      exact later front first second behind rfl

namespace Number

theorem hasDigit_hexadecimal {c : Char} : Radix.hexadecimal.HasDigit c ↔ isHexDigit c = true := by
  simp only [isHexDigit, Bool.or_eq_true, Bool.and_eq_true, decide_eq_true_eq, ← hasDigit_decimal,
    Radix.HasDigit, or_assoc]

section

variable {before : Bool} {text mark : List Char} {radix : Radix}

private theorem separated_iff (plain : ∀ c ∈ text, ∀ radix : Radix, c ∈ radix.marks → isHexDigit c = true) :
    separated before true text = true ↔ (text.head? = some '_' → before = true) ∧ SeparatorsFit text := by
  induction text generalizing before with
  | nil => simp [separated, SeparatorsFit]
  | cons c rest ih =>
    obtain ⟨here, later⟩ := List.forall_mem_cons.mp plain
    have behindDigit : (Radix.hexadecimal.HasDigit c ∨ ∃ radix : Radix, c ∈ radix.marks) ↔ isHexDigit c = true := by
      rw [hasDigit_hexadecimal]
      refine ⟨?_, .inl⟩
      rintro (isDigit | ⟨radix, isMark⟩)
      · exact isDigit
      · exact here radix isMark
    rw [separatorsFit_cons, behindDigit]
    by_cases separator : c = '_'
    · subst separator
      have notDigit : isHexDigit '_' = false := rfl
      cases rest with
      | nil => simp [separated, SeparatorsFit]
      | cons d tail =>
        have single : separated false true (d :: tail) = true ↔ d ≠ '_' ∧ SeparatorsFit (d :: tail) := by
          simpa using @ih false later
        rw [separated, if_pos rfl, Bool.and_eq_true, Bool.and_eq_true, single]
        simp only [List.head?_cons, Option.mem_def, Option.some.injEq, forall_eq', notDigit,
          hasDigit_hexadecimal, forall_const, Option.elim_some, Bool.false_eq_true, imp_false, and_assoc]
        exact and_congr_right fun _ => and_left_comm
    · rw [separated, if_neg separator, ih later]
      simp only [List.head?_cons, Option.some.injEq, separator, false_implies, and_true, true_and]
      exact and_congr_left fun _ => ⟨fun isDigit d isHead isNext => isDigit (isNext ▸ isHead), fun isDigit isHead =>
        isDigit '_' isHead rfl⟩

private theorem marks_cases {whole : List Char} (marks : radix.Marks mark whole) :
    mark = [] ∨ ∃ letter ∈ radix.marks, letter ≠ '_' ∧ mark = ['0', letter] := by
  cases radix with
  | decimal | legacyOctal => exact .inl marks.1
  | hexadecimal | octal | binary => rcases marks with rfl | rfl <;> exact .inr ⟨_, by decide, by decide, rfl⟩

private theorem separatorsFit_mark {whole : List Char} (marks : radix.Marks mark whole) :
    SeparatorsFit (mark ++ text) ↔ SeparatorsFit text := by
  rcases marks_cases marks with rfl | ⟨letter, isMark, notSeparator, rfl⟩
  · rfl
  · rw [List.cons_append, List.cons_append, List.nil_append, separatorsFit_cons, separatorsFit_cons]
    refine ⟨fun fit => fit.2.2, fun fit => ⟨?_, ?_, fit⟩⟩
    · rintro _ ⟨⟩
      exact ⟨fun same => absurd same notSeparator, fun same => by cases same⟩
    · exact fun d _ => ⟨fun _ => .inr ⟨radix, isMark⟩, fun same => absurd same notSeparator⟩

end

private theorem looseSeparator?_atEnd {before : Bool} {index found : Nat} {text : List Char}
    (passes : separated before true text = true) (loose : looseSeparator? before index text = some found) :
    found + 1 = index + text.length := by
  induction text generalizing before index with
  | nil => cases loose
  | cons c rest ih =>
    have later : ∀ {before : Bool}, separated before true rest = true →
      looseSeparator? before (index + 1) rest = some found →
        found + 1 = index + (rest.length + 1) := by
      intro before passes loose
      rw [ih passes loose]
      omega
    by_cases separator : c = '_'
    · subst separator
      rw [separated, if_pos rfl, Bool.and_eq_true, Bool.and_eq_true] at passes
      obtain ⟨⟨rfl, next⟩, passes⟩ := passes
      cases rest with
      | nil =>
        cases loose
        rfl
      | cons d tail =>
        have isDigit : isHexDigit d = true := next
        rw [looseSeparator?, if_neg (by simp [isDigit])] at loose
        exact later passes loose
    · rw [separated, if_neg separator] at passes
      rw [looseSeparator?, if_neg fun misplaced => separator misplaced.1] at loose
      exact later passes loose

/-- The judgement over a number: about its separators, unless a digit is too large, which more text may mend in an
integer with a leading zero. -/
theorem judged_cases (text : List Char) (mark : Nat) (read : Mantissa) (kind : LiteralKind) (length : Nat) :
    (wrongDigit? read.radix read.digits = none ∨ read.radix = .legacyOctal) ∧
      (judged text mark read kind length = (misplacedSeparator? mark (text.take length)).elim (.ok (kind, length))
        (fun index => .error ⟨length, kind, .separator, index + 1 == length⟩) ∨
          kind = .int ∧ ∃ cause, judged text mark read kind length = .error ⟨length, kind, cause, true⟩) ∨
      ¬ (wrongDigit? read.radix read.digits = none ∨ read.radix = .legacyOctal) ∧
        ∃ cause, judged text mark read kind length = .error ⟨length, kind, cause, false⟩ := by
  unfold judged
  dsimp only
  cases wrongDigit? read.radix read.digits with
  | none =>
    left
    refine ⟨.inl rfl, .inl ?_⟩
    cases misplacedSeparator? mark (text.take length) <;> rfl
  | some digit =>
    dsimp only
    by_cases legacy : read.radix = .legacyOctal
    · rw [if_neg (not_not_intro legacy)]
      left
      refine ⟨.inr legacy, ?_⟩
      by_cases isInt : kind = .int
      · rw [if_pos isInt]
        exact .inr ⟨isInt, _, rfl⟩
      · rw [if_neg isInt]
        left
        cases misplacedSeparator? mark (text.take length) <;> rfl
    · rw [if_pos legacy]
      right
      refine ⟨?_, _, rfl⟩
      rintro (none | isLegacy)
      · cases none
      · exact legacy isLegacy

private theorem judged_or_reparable {text : List Char} {mark length : Nat} {read : Mantissa} {kind : LiteralKind}
    (digits : wrongDigit? read.radix read.digits = none ∨ read.radix = .legacyOctal)
    (atEnd : ∀ index, misplacedSeparator? mark (text.take length) = some index → index + 1 = length) :
    judged text mark read kind length = .ok (kind, length) ∨
      ∃ cause, judged text mark read kind length = .error ⟨length, kind, cause, true⟩ := by
  rcases judged_cases text mark read kind length with ⟨-, separators | ⟨-, lacks⟩⟩ | ⟨wrong, -⟩
  · cases misplaced : misplacedSeparator? mark (text.take length) with
    | none =>
      rw [misplaced] at separators
      exact .inl separators
    | some index =>
      rw [misplaced, Option.elim_some,
        show (index + 1 == length) = true from beq_iff_eq.mpr (atEnd index misplaced)] at separators
      exact .inr ⟨_, separators⟩
  · exact .inr lacks
  · exact absurd digits wrong

/-- A character that marks a base only if it is a digit, too. -/
def IsPlain (c : Char) : Prop := ∀ radix : Radix, c ∈ radix.marks → isHexDigit c = true

private theorem isPlain_of_notMark {c : Char} (other : c ∉ ['x', 'X', 'o', 'O']) : IsPlain c := by
  intro radix isMark
  simp only [List.mem_cons, List.not_mem_nil, or_false, not_or] at other
  cases radix with
  | decimal | legacyOctal => cases isMark
  | hexadecimal | octal => simp [Radix.marks, other] at isMark
  | binary =>
    simp only [Radix.marks, List.mem_cons, List.not_mem_nil, or_false] at isMark
    rcases isMark with rfl | rfl <;> rfl

private theorem isPlain_of_continues {radix : Radix} {c : Char} (continued : continues radix c = true) : IsPlain c := by
  refine isPlain_of_notMark fun isMark => ?_
  simp only [List.mem_cons, List.not_mem_nil, or_false] at isMark
  rcases isMark with rfl | rfl | rfl | rfl <;> cases radix <;> cases continued

/-- An exponent as it is while it is written, perhaps without a digit. -/
structure Exponent.Begun (radix : Radix) (exponent : Exponent) : Prop where
  mark : (radix = .decimal ∨ radix = .legacyOctal) ∧ (exponent.mark = 'e' ∨ exponent.mark = 'E') ∨
    radix = .hexadecimal ∧ (exponent.mark = 'p' ∨ exponent.mark = 'P')
  sign : exponent.sign = [] ∨ exponent.sign = ['+'] ∨ exponent.sign = ['-']
  digits : ∀ c ∈ exponent.digits, continues .decimal c = true

theorem Exponent.Fits.begun {radix : Radix} {exponent : Exponent} (fits : exponent.Fits radix) : exponent.Begun radix :=
  ⟨fits.mark, fits.sign, fits.digits⟩

/-- A number that is written so far. -/
structure Draft where
  front : Front
  exponent : Option Exponent

namespace Draft

def chars (draft : Draft) : List Char := draft.front.chars ++ power draft.exponent

def digits (draft : Draft) : List Char := draft.front.whole ++ (draft.front.point ++ power draft.exponent)

def kind (draft : Draft) : LiteralKind := draft.front.kind draft.exponent

structure Begun (draft : Draft) : Prop where
  front : draft.front.Begun
  /-- An exponent needs digits in front of it. -/
  exponent : ∀ found ∈ draft.exponent, found.Begun draft.front.radix ∧ hasDigits draft.front.digits = true
  /-- Digits that are too large may stand behind a leading zero. -/
  digits : wrongDigit? draft.front.radix draft.front.digits = none ∨ draft.front.radix = .legacyOctal

section

variable {draft : Draft}

theorem chars_eq (draft : Draft) : draft.chars = draft.front.mark ++ draft.digits := by
  simp only [chars, digits, Front.chars, List.append_assoc]

theorem chars_unraised (front : Front) : chars ⟨front, none⟩ = front.chars := by simp [chars, power]

theorem Begun.isPlain (begun : draft.Begun) : ∀ c ∈ draft.digits, IsPlain c := by
  intro c mem
  simp only [Draft.digits, List.mem_append] at mem
  rcases mem with mem | mem | mem
  · exact isPlain_of_continues (begun.front.whole c mem)
  · obtain ⟨⟨radix, mark, whole, fraction⟩, exponent⟩ := draft
    cases fraction with
    | none => cases mem
    | some fraction =>
      rcases List.mem_cons.mp mem with rfl | mem
      · exact isPlain_of_notMark (by decide)
      · exact isPlain_of_continues (begun.front.fraction fraction rfl c mem)
  · obtain ⟨front, exponent⟩ := draft
    cases exponent with
    | none => cases mem
    | some found =>
      have started := (begun.exponent found rfl).1
      rcases List.mem_cons.mp mem with rfl | mem
      · rcases started.mark with ⟨-, isMark | isMark⟩ | ⟨-, isMark | isMark⟩ <;> rw [isMark] <;>
          exact isPlain_of_notMark (by decide)
      · rcases List.mem_append.mp mem with mem | mem
        · refine isPlain_of_notMark ?_
          rcases started.sign with isSign | isSign | isSign <;> rw [isSign] at mem
          · cases mem
          · obtain rfl := List.mem_singleton.mp mem
            decide
          · obtain rfl := List.mem_singleton.mp mem
            decide
        · exact isPlain_of_continues (started.digits c mem)

private theorem Begun.separatorsFit_iff (begun : draft.Begun) :
    SeparatorsFit draft.chars ↔ SeparatorsFit draft.digits := by
  rw [chars_eq]
  exact separatorsFit_mark begun.front.marks

/-- The power that is begun starts with a letter that ends the digits in front of it. -/
theorem Begun.stops (begun : draft.Begun) : Stops (continues draft.front.radix) (power draft.exponent) ∧
    Stops announces (power draft.exponent) ∧ (power draft.exponent).head? ≠ some '.' := by
  obtain ⟨front, exponent⟩ := draft
  cases exponent with
  | none => exact ⟨rfl, rfl, nofun⟩
  | some found =>
    obtain ⟨mark, sign, digits⟩ := found
    rcases (begun.exponent _ rfl).1.mark with ⟨isDecimal | isLegacy, isMark⟩ | ⟨isHexadecimal, isMark⟩
    · rcases isMark with rfl | rfl <;> rw [isDecimal] <;> exact ⟨rfl, rfl, nofun⟩
    · rcases isMark with rfl | rfl <;> rw [isLegacy] <;> exact ⟨rfl, rfl, nofun⟩
    · rcases isMark with rfl | rfl <;> rw [isHexadecimal] <;> exact ⟨rfl, rfl, nofun⟩

theorem Begun.announces (begun : draft.Begun) : announced draft.chars = (draft.front.radix, draft.front.mark.length) :=
  announced_front begun.front begun.stops.2.1

/-- Behind the digits that are written so far, an exponent is missing, or lacks digits, or is read. -/
theorem Begun.raised (begun : draft.Begun) :
    (∃ cause, Number.exponent draft.chars draft.front.mantissa = .error ⟨draft.chars.length, draft.kind, cause, true⟩) ∨
      Number.exponent draft.chars draft.front.mantissa = .ok (draft.kind, draft.chars.length) := by
  obtain ⟨front, exponent⟩ := draft
  cases exponent with
  | none =>
    have whole := chars_unraised front
    have raised : Number.exponent (Draft.chars ⟨front, none⟩) front.mantissa =
        if front.radix = .hexadecimal ∧ front.fraction.isSome = true then
          .error ⟨(Draft.chars ⟨front, none⟩).length, .float, .noBinaryExponent, true⟩
        else .ok (front.kind none, (Draft.chars ⟨front, none⟩).length) := by
      rw [exponent_eq_of_none (by rw [whole, Front.mantissa, List.drop_length]; rfl), whole, ← front.mantissa_kind]
      rfl
    rw [raised]
    split
    next lacks =>
      left
      exact ⟨.noBinaryExponent, by simp [Draft.kind, Front.kind, lacks.2]⟩
    next => exact .inr rfl
  | some found =>
    obtain ⟨mark, sign, digits⟩ := found
    obtain ⟨marked, isSign, continued⟩ := (begun.exponent _ rfl).1
    have parts : Draft.chars ⟨front, some ⟨mark, sign, digits⟩⟩ =
        (front.chars ++ [mark]) ++ (sign ++ (digits ++ [])) := by
      simp [chars, power, Exponent.chars]
    have size : front.mantissa.length + 1 = (front.chars ++ [mark]).length := by simp [Front.mantissa]
    have behind : ((front.chars ++ [mark]) ++ (sign ++ (digits ++ []))).drop front.mantissa.length =
        mark :: (sign ++ (digits ++ [])) := by
      rw [Front.mantissa, List.append_assoc, List.drop_left]
      rfl
    have total : (front.chars ++ [mark]).length + (sign ++ digits).length =
        (Draft.chars ⟨front, some ⟨mark, sign, digits⟩⟩).length := by
      rw [parts]
      simp only [List.append_nil, List.length_append]
    have isFloat : Draft.kind ⟨front, some ⟨mark, sign, digits⟩⟩ = .float := by simp [Draft.kind, Front.kind]
    have raised : Number.exponent (Draft.chars ⟨front, some ⟨mark, sign, digits⟩⟩) front.mantissa =
        if hasDigits digits then .ok (.float, (Draft.chars ⟨front, some ⟨mark, sign, digits⟩⟩).length)
        else .error ⟨(Draft.chars ⟨front, some ⟨mark, sign, digits⟩⟩).length, .float, .noExponentDigits, true⟩ := by
      have stops : Stops (continues .decimal) [] := rfl
      rw [← total, parts, exponent_eq, size, exponentDigits_begun isSign continued stops fun _ =>
        rfl, behind, List.head?_cons]
      rcases marked with ⟨decimal, rfl | rfl⟩ | ⟨binary, rfl | rfl⟩
      · exact if_pos decimal
      · exact if_pos decimal
      · exact if_pos binary
      · exact if_pos binary
    rw [raised, isFloat]
    split
    next => exact .inr rfl
    next => exact .inl ⟨_, rfl⟩

theorem Begun.read (begun : draft.Begun) :
    (∃ cause, Number.read draft.chars = .error ⟨draft.chars.length, draft.kind, cause, true⟩) ∨
      Number.read draft.chars =
        judged draft.chars draft.front.mark.length draft.front.mantissa draft.kind draft.chars.length := by
  obtain ⟨stops, notMark, notPoint⟩ := begun.stops
  have upTo : mantissa draft.chars = draft.front.read := mantissa_begun begun.front stops (fun _ => notPoint) notMark
  rw [Number.read_eq, begun.announces, upTo, Front.read]
  by_cases hasDigits : Number.hasDigits draft.front.digits = true
  · rw [if_pos hasDigits]
    show (∃ cause, (Number.exponent _ draft.front.mantissa >>= _) = _) ∨
      (Number.exponent _ draft.front.mantissa >>= _) = _
    rcases begun.raised with ⟨cause, lacks⟩ | raised
    · rw [lacks]
      exact .inl ⟨cause, rfl⟩
    · right
      rw [raised]
      show finish _ _ _ _ = _
      simp only [finish, List.drop_length, List.head?_nil, endAt, reduceCtorEq, ↓reduceIte]
  · rw [if_neg hasDigits]
    obtain ⟨front, exponent⟩ := draft
    obtain rfl : exponent = none := by
      cases exponent with
      | none => rfl
      | some found => exact absurd (begun.exponent found rfl).2 hasDigits
    left
    refine ⟨.noDigits front.radix, ?_⟩
    simp only [chars, power, Option.elim_none, List.append_nil, front.mantissa_kind]
    rfl

theorem Begun.separated (begun : draft.Begun) (fit : SeparatorsFit draft.chars) (starts : draft.chars.head? ≠ some '_') :
    Number.separated (draft.front.mark.length != 0) true draft.digits = true := by
  refine (separated_iff begun.isPlain).mpr ⟨fun behind => ?_, begun.separatorsFit_iff.mp fit⟩
  rcases marks_cases begun.front.marks with unmarked | ⟨letter, -, -, isMark⟩
  · rw [chars_eq, unmarked, List.nil_append] at starts
    exact absurd behind starts
  · rw [isMark]
    rfl

/-- A number that is written so far, with its separators in their places, is whole or cut off. -/
theorem Begun.scan (begun : draft.Begun) (fit : SeparatorsFit draft.chars) (starts : draft.chars.head? ≠ some '_') :
    (Number.scan draft.chars).outcome = .complete draft.kind ∨
      ∃ cause, (Number.scan draft.chars).outcome = .cutOff draft.kind cause := by
  have cutOff : ∀ {cause}, Number.read draft.chars = .error ⟨draft.chars.length, draft.kind, cause, true⟩ →
      (Number.scan draft.chars).outcome = .complete draft.kind ∨
        ∃ cause, (Number.scan draft.chars).outcome = .cutOff draft.kind cause := by
    intro cause read
    simp only [Number.scan, read, List.drop_length, List.isEmpty_nil, Bool.and_self, ↓reduceIte]
    exact .inr ⟨_, rfl⟩
  rcases begun.read with ⟨cause, lacks⟩ | judgement
  · exact cutOff lacks
  · have atEnd : ∀ index,
      misplacedSeparator? draft.front.mark.length (draft.chars.take draft.chars.length) = some index →
        index + 1 = draft.chars.length := by
      intro index misplaced
      rw [List.take_length, misplacedSeparator?, chars_eq, List.drop_left] at misplaced
      rw [looseSeparator?_atEnd (begun.separated fit starts) misplaced, chars_eq, List.length_append]
    rcases @judged_or_reparable _ _ _ draft.front.mantissa draft.kind begun.digits atEnd with whole | ⟨cause, reparable⟩
    · left
      simp only [Number.scan, judgement.trans whole]
    · exact cutOff (judgement.trans reparable)

end

end Draft

/-- What stands in front of a place in the pieces up to the exponent. -/
structure Front.Cut (front shorter : Front) (text : List Char) : Prop where
  begun : shorter.Begun
  chars : shorter.chars = text
  point : shorter.fraction.isSome = true → front.fraction.isSome = true
  /-- A leading zero in front of the mark of a base marks no base yet. -/
  digits : shorter.radix = .legacyOctal ∨ shorter.radix = front.radix ∧ shorter.digits ⊆ front.digits

section

variable {front : Front} {text more : List Char}

private theorem Front.Begun.cut_mark (begun : front.Begun) (parts : front.mark = text ++ more) (begins : text ≠ []) :
    ∃ shorter, front.Cut shorter text := by
  rcases marks_cases begun.marks with unmarked | ⟨letter, isMark, -, marked⟩
  · rw [unmarked] at parts
    exact absurd (List.append_eq_nil_iff.mp parts.symm).1 begins
  · obtain ⟨c, text, rfl⟩ := List.exists_cons_of_ne_nil begins
    obtain ⟨rfl, behind⟩ := List.cons.inj (marked.symm.trans parts)
    cases text with
    | nil =>
      have isDigit : ∀ c ∈ ['0'], continues .legacyOctal c = true := fun c mem => by
        rw [List.mem_singleton.mp mem]
        rfl
      exact ⟨⟨.legacyOctal, [], ['0'], none⟩, ⟨⟨rfl, rfl⟩, isDigit, nofun, nofun⟩, rfl, nofun, .inl rfl⟩
    | cons d text =>
      obtain ⟨rfl, rest⟩ := List.cons.inj behind
      obtain ⟨rfl, -⟩ := List.append_eq_nil_iff.mp rest.symm
      refine ⟨⟨front.radix, ['0', letter], [], none⟩, ⟨?_, nofun, nofun, nofun⟩, rfl, nofun, .inr ⟨rfl, nofun⟩⟩
      have marks := begun.marks
      rw [marked] at marks
      obtain ⟨radix, mark, whole, fraction⟩ := front
      cases radix with
      | decimal | legacyOctal => cases isMark
      | hexadecimal | octal | binary => exact marks

private theorem Front.Begun.cut_whole (begun : front.Begun) (parts : front.whole = text ++ more)
    (begins : front.mark ++ text ≠ []) :
    ∃ shorter, front.Cut shorter (front.mark ++ text) := by
  refine ⟨⟨front.radix, front.mark, text, none⟩,
    ⟨?_, fun c mem => begun.whole c (parts ▸ List.mem_append_left _ mem), nofun,
    nofun⟩, by simp [Front.chars, Front.point], nofun, .inr ⟨rfl, fun c mem => ?_⟩⟩
  · have marks := begun.marks
    rw [parts] at marks
    have same : text ≠ [] → (text ++ more).head? = text.head? := by
      cases text with
      | nil => exact fun nonempty => absurd rfl nonempty
      | cons => exact fun _ => rfl
    obtain ⟨radix, mark, whole, fraction⟩ := front
    cases radix with
    | decimal | legacyOctal =>
      obtain ⟨rfl, starts⟩ := marks
      rw [same begins] at starts
      exact ⟨rfl, starts⟩
    | hexadecimal | octal | binary => exact marks
  · simp only [Front.digits, Option.getD_none, List.append_nil] at mem
    exact List.mem_append_left _ (parts ▸ List.mem_append_left _ mem)

/-- What stands in front of a place in the pieces up to the exponent are such pieces, too. -/
theorem Front.Begun.cut (begun : front.Begun) (parts : front.chars = text ++ more) (begins : text ≠ []) :
    ∃ shorter, front.Cut shorter text := by
  rcases List.append_eq_append_iff.mp parts with ⟨text, rfl, behindMark⟩ | ⟨behind, inMark, -⟩
  · rcases List.append_eq_append_iff.mp behindMark with ⟨text, rfl, inPoint⟩ | ⟨behind, inWhole, -⟩
    · cases text with
      | nil =>
        rw [List.append_nil] at begins ⊢
        exact begun.cut_whole (List.append_nil front.whole).symm begins
      | cons c text =>
        obtain ⟨radix, mark, whole, fraction⟩ := front
        cases fraction with
        | none => cases inPoint
        | some fraction =>
          obtain ⟨rfl, inFraction⟩ := List.cons.inj (show '.' :: fraction = c :: (text ++ more) from inPoint)
          refine ⟨⟨radix, mark, whole, some text⟩,
            ⟨begun.marks, begun.whole, ?_, fun _ => begun.point rfl⟩, rfl, fun _ => rfl, .inr ⟨rfl, ?_⟩⟩
          · rintro _ ⟨⟩ c mem
            exact begun.fraction fraction rfl c (inFraction ▸ List.mem_append_left _ mem)
          · intro c mem
            simp only [Front.digits, Option.getD_some, List.mem_append] at mem ⊢
            exact mem.imp_right fun mem => inFraction ▸ List.mem_append_left _ mem
    · exact begun.cut_whole inWhole begins
  · exact begun.cut_mark inMark begins

theorem Exponent.Begun.cut {radix : Radix} {exponent : Exponent} (begun : exponent.Begun radix)
    (parts : exponent.chars = text ++ more) (begins : text ≠ []) :
    ∃ shorter : Exponent, shorter.Begun radix ∧ shorter.chars = text := by
  obtain ⟨mark, sign, digits⟩ := exponent
  obtain ⟨c, text, rfl⟩ := List.exists_cons_of_ne_nil begins
  obtain ⟨rfl, behind⟩ := List.cons.inj (show mark :: (sign ++ digits) = c :: (text ++ more) from parts)
  rcases List.append_eq_append_iff.mp behind with ⟨text, rfl, inDigits⟩ | ⟨behind, inSign, -⟩
  · exact ⟨⟨mark, sign, text⟩,
      ⟨begun.mark, begun.sign, fun c mem => begun.digits c (inDigits ▸ List.mem_append_left _ mem)⟩, rfl⟩
  · refine ⟨⟨mark, text, []⟩, ⟨begun.mark, ?_, nofun⟩, by simp [Exponent.chars]⟩
    have isSign : sign = [] ∨ sign = ['+'] ∨ sign = ['-'] := begun.sign
    rw [inSign] at isSign
    cases text with
    | nil => exact .inl rfl
    | cons d text =>
      rcases isSign with isSign | isSign | isSign
      · cases isSign
      all_goals
        obtain ⟨rfl, rest⟩ := List.cons.inj isSign
        obtain ⟨rfl, -⟩ := List.append_eq_nil_iff.mp rest
        first | exact .inr (.inl rfl) | exact .inr (.inr rfl)

end

private theorem wrongDigit?_subset {radix : Radix} {digits more : List Char} (right : wrongDigit? radix more = none)
    (within : digits ⊆ more) : wrongDigit? radix digits = none :=
  List.find?_eq_none.mpr fun c mem => List.find?_eq_none.mp right c (within mem)

theorem Front.Begun.draft {front : Front} (begun : front.Begun)
    (digits : wrongDigit? front.radix front.digits = none ∨ front.radix = .legacyOctal) : Draft.Begun ⟨front, none⟩ :=
  ⟨begun, fun _ isFound => (by cases isFound), digits⟩

/-- What stands in front of a place in a number that is written so far was written before. -/
theorem Draft.Begun.cut {draft : Draft} {text more : List Char} (begun : draft.Begun)
    (parts : draft.chars = text ++ more) (begins : text ≠ []) :
    ∃ shorter : Draft, shorter.Begun ∧ shorter.chars = text ∧
      (shorter.front.fraction.isSome = true → draft.front.fraction.isSome = true) ∧
        (shorter.exponent.isSome = true → draft.exponent.isSome = true) := by
  obtain ⟨front, exponent⟩ := draft
  rcases List.append_eq_append_iff.mp parts with ⟨text, rfl, inPower⟩ | ⟨behind, inFront, -⟩
  · by_cases empty : text = []
    · rw [empty, List.append_nil]
      exact ⟨⟨front, none⟩, begun.front.draft begun.digits, Draft.chars_unraised front, id,
        fun raised => by cases raised⟩
    · cases exponent with
      | none => exact absurd (List.append_eq_nil_iff.mp inPower.symm).1 empty
      | some found =>
        obtain ⟨begunPower, hasDigits⟩ := begun.exponent found rfl
        obtain ⟨shorter, begunShorter, rfl⟩ := begunPower.cut inPower empty
        refine ⟨⟨front, some shorter⟩, ⟨begun.front, ?_, begun.digits⟩, rfl, id, fun _ => rfl⟩
        rintro _ ⟨⟩
        exact ⟨begunShorter, hasDigits⟩
  · obtain ⟨shorter, begunShorter, rfl, point, digits⟩ := begun.front.cut inFront begins
    refine ⟨⟨shorter, none⟩, begunShorter.draft ?_, Draft.chars_unraised shorter, point, fun raised => by cases raised⟩
    rcases digits with legacy | ⟨same, within⟩
    · exact .inr legacy
    · rw [same]
      exact begun.digits.imp_left fun right => wrongDigit?_subset right within

namespace Pieces

/-- What is written of a number in front of its suffix. -/
def draft (pieces : Pieces) : Draft := ⟨pieces.front, pieces.exponent⟩

section

variable {pieces : Pieces} {text more : List Char}

theorem Fits.draft (fits : pieces.Fits) : pieces.draft.Begun :=
  ⟨fits.front.begun, fun found isFound => ⟨(fits.raises.fits found isFound).begun, fits.front.hasDigits⟩,
    fits.digits.imp_right And.left⟩

private theorem draft_append (parts : pieces.chars = text ++ more) (unfinished : more ≠ []) :
    ∃ behind, pieces.draft.chars = text ++ behind := by
  have upToSuffix : pieces.draft.chars ++ pieces.suffix = pieces.chars := by simp [chars_eq, Draft.chars, Pieces.draft]
  rcases List.append_eq_append_iff.mp (upToSuffix.trans parts) with ⟨text, rfl, inSuffix⟩ | ⟨behind, inDraft, -⟩
  · obtain rfl : text = [] := by
      unfold suffix at inSuffix
      split at inSuffix
      · exact (List.append_eq_singleton_iff.mp inSuffix.symm).elim And.left fun same => absurd same.2 unfinished
      · exact (List.append_eq_nil_iff.mp inSuffix.symm).1
    exact ⟨[], by simp⟩
  · exact ⟨behind, inDraft⟩

private theorem kind_mayBecome {shorter : Draft}
    (point : shorter.front.fraction.isSome = true → pieces.front.fraction.isSome = true)
    (raised : shorter.exponent.isSome = true → pieces.exponent.isSome = true) : shorter.kind.MayBecome pieces.kind := by
  by_cases isFloat : (shorter.front.fraction.isSome || shorter.exponent.isSome) = true
  · have stays : (pieces.front.fraction.isSome || pieces.exponent.isSome) = true := by
      rw [Bool.or_eq_true] at isFloat ⊢
      exact isFloat.imp point raised
    simp only [Draft.kind, Front.kind, if_pos isFloat, kind, if_pos stays]
    split
    · exact .inr rfl
    · exact .inl rfl
  · simp only [Draft.kind, Front.kind, if_neg isFloat, kind]
    split
    · exact .inr (.inr rfl)
    · split
      · exact .inr (.inl rfl)
      · exact .inl rfl

/-- What stands in front of a place in a number is a number that is written so far, of a kind that may become that of
the number. -/
theorem Fits.cut (fits : pieces.Fits) (parts : pieces.chars = text ++ more) (begins : text ≠ [])
    (unfinished : more ≠ []) :
    ∃ shorter : Draft, shorter.Begun ∧ shorter.chars = text ∧ shorter.kind.MayBecome pieces.kind := by
  obtain ⟨behind, inDraft⟩ := draft_append parts unfinished
  obtain ⟨shorter, begun, isText, point, raised⟩ := fits.draft.cut inDraft begins
  exact ⟨shorter, begun, isText, kind_mayBecome point raised⟩

end

end Pieces

private theorem separated_left {before behind : Bool} {first second : List Char}
    (passes : separated before behind (first ++ second) = true) :
    separated before true first = true := by
  induction first generalizing before with
  | nil => rfl
  | cons c first ih =>
    rw [List.cons_append, separated] at passes
    rw [separated]
    split
    next separator =>
      rw [if_pos separator, Bool.and_eq_true, Bool.and_eq_true] at passes
      obtain ⟨⟨isBefore, next⟩, passes⟩ := passes
      rw [isBefore, ih passes]
      cases first with
      | nil => rfl
      | cons d first =>
        rw [List.head?_cons, Option.elim_some, show isHexDigit d = true from next]
        rfl
    next notSeparator =>
      rw [if_neg notSeparator] at passes
      exact ih passes

private theorem Pieces.Fits.separatorsFit {pieces : Pieces} {text more : List Char} (fits : pieces.Fits)
    (parts : pieces.chars = text ++ more) (unfinished : more ≠ []) : SeparatorsFit text := by
  have passes := fits.separators
  have behindMark : pieces.digits = pieces.draft.digits ++ pieces.suffix := by
    simp [Pieces.digits, Draft.digits, Pieces.draft]
  rw [misplacedSeparator?, Pieces.chars, List.drop_left, looseSeparator?_eq_none_iff, behindMark] at passes
  have whole : SeparatorsFit pieces.draft.chars :=
    fits.draft.separatorsFit_iff.mpr ((separated_iff fits.draft.isPlain).mp (separated_left passes)).2
  obtain ⟨behind, inDraft⟩ := Pieces.draft_append parts unfinished
  rw [inDraft] at whole
  exact whole.left

/-- A text with a number that goes on is whole or cut off, and its separators are in their places. -/
theorem scan_of_longer {text more : List Char} {kind : LiteralKind} {length : Nat} (begins : text ≠ [])
    (starts : text.head? ≠ some '_') (longer : Number.read (text ++ more) = .ok (kind, length)) :
    (∃ shorter, (Number.scan text).outcome = .complete shorter) ∨
      SeparatorsFit text ∧ ∃ shorter cause, (Number.scan text).outcome = .cutOff shorter cause ∧
      shorter.MayBecome kind := by
  rcases read_append begins more with same | ⟨beyond, -, -⟩
  · left
    refine ⟨kind, ?_⟩
    simp only [Number.scan, same.symm.trans longer]
  · obtain ⟨pieces, rest, splits, fits, rfl, rfl⟩ := read_sound longer
    rw [longer] at beyond
    rcases List.append_eq_append_iff.mp splits with ⟨behind, parts, -⟩ | ⟨behind, parts, -⟩
    · have unfinished : behind ≠ [] := by
        rintro rfl
        rw [parts, List.append_nil] at beyond
        exact Nat.lt_irrefl _ beyond
      have fit := fits.separatorsFit parts unfinished
      obtain ⟨draft, begun, rfl, becomes⟩ := fits.cut parts begins unfinished
      exact (begun.scan fit starts).imp (fun whole => ⟨_, whole⟩) fun ⟨cause, cutOff⟩ =>
        ⟨fit, _, cause, cutOff, becomes⟩
    · rw [parts, List.length_append] at beyond
      exact absurd beyond (Nat.not_lt.mpr (Nat.le_add_right _ _))

end Number

end GoPrompt
