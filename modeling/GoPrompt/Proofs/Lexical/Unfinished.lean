import GoPrompt.Proofs.Lexical.Drafts

/-! Numbers that are cut off. What is written of them is exactly what a number may start with, up to its separators, and
a zero with little more behind it makes a number of it, unless a separator has no digit beside it. -/

namespace GoPrompt.Number

section

variable {radix : Radix} {digits : List Char}

private theorem continues_zero (continued : ∀ c ∈ digits, continues radix c = true) :
    ∀ c ∈ digits ++ ['0'], continues radix c = true := by
  intro c mem
  rcases List.mem_append.mp mem with mem | mem
  · exact continued c mem
  · rw [List.mem_singleton.mp mem]
    exact (continues_of_hasDigit radix.hasDigit_zero).1

private theorem wrongDigit?_zero (right : wrongDigit? radix digits = none) :
    wrongDigit? radix (digits ++ ['0']) = none :=
  wrongDigit?_append right (wrongDigit?_eq_none_iff.mpr fun _ mem =>
    .inr (List.mem_singleton.mp mem ▸ (continues_of_hasDigit radix.hasDigit_zero).2))

private theorem hasDigits_zero (digits : List Char) : hasDigits (digits ++ ['0']) = true := by simp [hasDigits]

private theorem separated_zero {before : Bool} {text tail : List Char} (passes : separated before true text = true)
    (isTail : separated true false tail = true) : separated before false (text ++ '0' :: tail) = true := by
  rw [separated_append (by simp), List.head?_cons, Option.elim_some,
    show isHexDigit '0' = true from rfl, passes, separated, if_neg (by decide), show isHexDigit '0' = true from rfl,
    isTail]
  rfl

theorem Marks.zero {mark whole : List Char} (marks : radix.Marks mark whole) (nonempty : mark ++ whole ≠ []) :
    radix.Marks mark (whole ++ ['0']) := by
  have same : mark = [] → (whole ++ ['0']).head? = whole.head? := by
    rintro rfl
    cases whole with
    | nil => exact absurd rfl nonempty
    | cons => rfl
  cases radix with
  | decimal | legacyOctal =>
    obtain ⟨rfl, starts⟩ := marks
    exact ⟨rfl, by rwa [same rfl]⟩
  | hexadecimal | octal | binary => exact marks

end

/-- The last run of digits of a number gets a zero. -/
def Front.withZero (front : Front) : Front :=
  match front.fraction with
  | none => { front with whole := front.whole ++ ['0'] }
  | some fraction => { front with fraction := some (fraction ++ ['0']) }

section

variable {front : Front}

private theorem Front.withZero_eq (front : Front) :
    front.withZero.radix = front.radix ∧ front.withZero.mark = front.mark ∧
    front.withZero.chars = front.chars ++ ['0'] ∧ front.withZero.digits = front.digits ++ ['0'] ∧
      front.withZero.fraction.isSome = front.fraction.isSome := by
  obtain ⟨radix, mark, whole, fraction⟩ := front
  cases fraction <;> simp [withZero, chars, point, digits]

private theorem Front.Begun.withZero (begun : front.Begun) (nonempty : front.chars ≠ []) : front.withZero.Fits := by
  obtain ⟨radix, mark, whole, fraction⟩ := front
  cases fraction with
  | none =>
    have behind : mark ++ whole ≠ [] := by simpa [Front.chars, Front.point] using nonempty
    exact ⟨Marks.zero begun.marks behind, continues_zero begun.whole, fun _ isFraction => (by cases isFraction),
      by simp [Front.withZero, digits, hasDigits_zero], fun pointed => by cases pointed⟩
  | some fraction =>
    refine ⟨begun.marks, begun.whole, ?_, by simp [Front.withZero, digits, ← List.append_assoc, hasDigits_zero],
      fun _ => begun.point rfl⟩
    rintro _ ⟨⟩
    exact continues_zero (begun.fraction fraction rfl)

end

namespace Draft

variable {draft : Draft}

/-- The pieces of a number that goes on with a zero behind what is written so far, and ends with the tail. -/
structure GoesOn (draft : Draft) (tail : List Char) (pieces : Pieces) : Prop where
  front : pieces.front.Fits
  raises : pieces.front.Raises pieces.exponent
  mark : pieces.front.mark = draft.front.mark
  digits : wrongDigit? pieces.front.radix pieces.front.digits = none ∨
    pieces.front.radix = .legacyOctal ∧ pieces.kind ≠ .int
  chars : pieces.chars = draft.chars ++ '0' :: tail

theorem GoesOn.read {tail : List Char} {pieces : Pieces} (goesOn : draft.GoesOn tail pieces) (begun : draft.Begun)
    (fit : SeparatorsFit draft.chars) (starts : draft.chars.head? ≠ some '_')
    (isTail : separated true false tail = true) :
    ∃ kind, Number.read (draft.chars ++ '0' :: tail) = .ok (kind, (draft.chars ++ '0' :: tail).length) := by
  have separators : misplacedSeparator? pieces.front.mark.length pieces.chars = none := by
    rw [misplacedSeparator?, looseSeparator?_eq_none_iff, goesOn.chars, goesOn.mark, draft.chars_eq, List.append_assoc,
      List.drop_left]
    exact separated_zero (begun.separated fit starts) isTail
  have whole : pieces.Fits := ⟨goesOn.front, goesOn.raises, goesOn.digits, separators⟩
  have read := @read_complete pieces [] whole fun _ isHead => by cases isHead
  rw [List.append_nil, goesOn.chars] at read
  exact ⟨_, read⟩

private theorem Begun.goesOn_raised {front : Front} {mark : Char} {sign digits : List Char}
    (begun : Begun ⟨front, some ⟨mark, sign, digits⟩⟩) :
    GoesOn ⟨front, some ⟨mark, sign, digits⟩⟩ [] ⟨front, some ⟨mark, sign, digits ++ ['0']⟩, false⟩ := by
  obtain ⟨begunPower, hasDigits⟩ := begun.exponent _ rfl
  have fits : Exponent.Fits front.radix ⟨mark, sign, digits ++ ['0']⟩ :=
    ⟨begunPower.mark, begunPower.sign, continues_zero begunPower.digits, hasDigits_zero digits⟩
  exact {
    front := begun.front.fits hasDigits
    raises := ⟨fun _ isFound => Option.some.inj isFound ▸ fits, fun _ _ => rfl⟩
    mark := rfl
    digits := begun.digits.imp_right fun legacy => ⟨legacy, by simp [Pieces.kind, Front.kind]⟩
    chars := by simp [Pieces.chars_eq, Pieces.suffix, Draft.chars, power, Exponent.chars] }

section

variable {front : Front}

private theorem Begun.goesOn_pointed (begun : Begun ⟨front, none⟩) (nonempty : front.chars ≠ [])
    (point : front.fraction.isSome = true) (notHexadecimal : front.radix ≠ .hexadecimal) :
    GoesOn ⟨front, none⟩ [] ⟨front.withZero, none, false⟩ := by
  obtain ⟨sameRadix, sameMark, chars, digits, samePoint⟩ := front.withZero_eq
  exact {
    front := begun.front.withZero nonempty
    raises := raises_none fun lacks => notHexadecimal (sameRadix ▸ lacks.1)
    mark := sameMark
    digits := by
      rw [sameRadix, digits]
      exact begun.digits.imp wrongDigit?_zero fun legacy =>
        ⟨legacy, by simp [Pieces.kind, Front.kind, samePoint, point]⟩
    chars := by simp [Pieces.chars_eq, Pieces.suffix, chars, chars_unraised, power] }

private theorem Begun.goesOn_hexadecimal (begun : Begun ⟨front, none⟩) (nonempty : front.chars ≠ [])
    (isHexadecimal : front.radix = .hexadecimal) :
    GoesOn ⟨front, none⟩ ['p', '0'] ⟨front.withZero, some ⟨'p', [], ['0']⟩, false⟩ := by
  obtain ⟨sameRadix, sameMark, chars, digits, -⟩ := front.withZero_eq
  have fits : Exponent.Fits front.withZero.radix ⟨'p', [], ['0']⟩ :=
    ⟨.inr ⟨sameRadix.trans isHexadecimal, .inl rfl⟩, .inl rfl, @continues_zero .decimal [] (List.forall_mem_nil _), rfl⟩
  exact {
    front := begun.front.withZero nonempty
    raises := ⟨fun _ isFound => Option.some.inj isFound ▸ fits, fun _ _ => rfl⟩
    mark := sameMark
    digits := by
      rw [sameRadix, digits]
      exact begun.digits.imp wrongDigit?_zero fun legacy => ⟨legacy, by simp [Pieces.kind, Front.kind]⟩
    chars := by simp [Pieces.chars_eq, Pieces.suffix, chars, chars_unraised, power, Exponent.chars] }

private theorem Begun.goesOn_legacy (begun : Begun ⟨front, none⟩) (nonempty : front.chars ≠ [])
    (whole : front.fraction = none) (legacy : front.radix = .legacyOctal) :
    GoesOn ⟨front, none⟩ ['.'] ⟨{ front.withZero with fraction := some [] }, none, false⟩ := by
  obtain ⟨sameRadix, sameMark, -, -, -⟩ := front.withZero_eq
  have withZero := begun.front.withZero nonempty
  have isLegacy : front.withZero.radix = .legacyOctal := sameRadix.trans legacy
  exact {
    front := {
      marks := withZero.marks
      whole := withZero.whole
      fraction := fun _ isFraction => Option.some.inj isFraction ▸ List.forall_mem_nil _
      hasDigits := by simp [Front.withZero, whole, Front.digits, hasDigits_zero]
      point := fun _ even => by simp [isLegacy] at even }
    raises := raises_none fun lacks => by simp [isLegacy] at lacks
    mark := sameMark
    digits := .inr ⟨isLegacy, by simp [Pieces.kind, Front.kind]⟩
    chars := by
      simp [Pieces.chars_eq, Pieces.suffix, chars_unraised, power, Front.withZero, whole, Front.chars, Front.point] }

private theorem Begun.goesOn_whole (begun : Begun ⟨front, none⟩) (nonempty : front.chars ≠ [])
    (whole : front.fraction = none) (notLegacy : front.radix ≠ .legacyOctal) :
    GoesOn ⟨front, none⟩ [] ⟨front.withZero, none, false⟩ := by
  obtain ⟨sameRadix, sameMark, chars, digits, samePoint⟩ := front.withZero_eq
  exact {
    front := begun.front.withZero nonempty
    raises := raises_none fun lacks => by simp [samePoint, whole] at lacks
    mark := sameMark
    digits := by
      rw [sameRadix, digits]
      exact .inl (wrongDigit?_zero (begun.digits.resolve_right notLegacy))
    chars := by simp [Pieces.chars_eq, Pieces.suffix, chars, chars_unraised, power] }

end

/-- A number that is written so far is whole with a zero behind it, and perhaps a point or an exponent. -/
theorem Begun.finished (begun : draft.Begun) (fit : SeparatorsFit draft.chars) (nonempty : draft.chars ≠ [])
    (starts : draft.chars.head? ≠ some '_') : ∃ tail ∈ [[], ['.'], ['p', '0']], ∃ kind,
      Number.read (draft.chars ++ '0' :: tail) = .ok (kind, (draft.chars ++ '0' :: tail).length) := by
  obtain ⟨front, exponent⟩ := draft
  cases exponent with
  | some found => exact ⟨[], by simp, begun.goesOn_raised.read begun fit starts rfl⟩
  | none =>
    have isFront : front.chars ≠ [] := chars_unraised front ▸ nonempty
    by_cases point : front.fraction.isSome = true
    · by_cases hexadecimal : front.radix = .hexadecimal
      · exact ⟨['p', '0'], by simp, (begun.goesOn_hexadecimal isFront hexadecimal).read begun fit starts rfl⟩
      · exact ⟨[], by simp, (begun.goesOn_pointed isFront point hexadecimal).read begun fit starts rfl⟩
    · have whole : front.fraction = none := by simpa using point
      by_cases legacy : front.radix = .legacyOctal
      · exact ⟨['.'], by simp, (begun.goesOn_legacy isFront whole legacy).read begun fit starts rfl⟩
      · exact ⟨[], by simp, (begun.goesOn_whole isFront whole legacy).read begun fit starts rfl⟩

end Draft

private theorem looseSeparator?_found {before : Bool} {index found : Nat} {text : List Char}
    (loose : looseSeparator? before index text = some found) :
    ∃ front behind, text = front ++ '_' :: behind ∧ found = index + front.length := by
  induction text generalizing before index with
  | nil => cases loose
  | cons c rest ih =>
    rw [looseSeparator?] at loose
    split at loose
    next misplaced =>
      obtain rfl := Option.some.inj loose
      exact ⟨[], rest, by rw [misplaced.1]; rfl, rfl⟩
    next =>
      obtain ⟨front, behind, rfl, rfl⟩ := ih loose
      exact ⟨c :: front, behind, rfl, by rw [List.length_cons]; omega⟩

private theorem misplacedSeparator?_last {mark index : Nat} {text : List Char} {c : Char} (behind : mark ≤ text.length)
    (misplaced : misplacedSeparator? mark (text ++ [c]) = some index) (isLast : index = text.length) : c = '_' := by
  rw [misplacedSeparator?, List.drop_append_of_le_length behind] at misplaced
  obtain ⟨front, rest, splits, found⟩ := looseSeparator?_found misplaced
  have size : (text.drop mark).length = front.length := by rw [List.length_drop]; omega
  exact (List.cons.inj (List.append_inj splits size).2).1

/-- The bases that a number with an exponent may have. -/
def Front.Raisable (front : Front) : Prop :=
  (front.radix = .decimal ∨ front.radix = .legacyOctal) ∨ front.radix = .hexadecimal

section

variable {front : Front} {behind : List Char} {fault : Fault}

theorem Front.Begun.continued (begun : front.Begun) : ∀ c ∈ front.digits, continues front.radix c = true := by
  intro c mem
  rcases List.mem_append.mp mem with mem | mem
  · exact begun.whole c mem
  · obtain ⟨radix, mark, whole, fraction⟩ := front
    cases fraction with
    | none => cases mem
    | some fraction => exact begun.fraction fraction rfl c mem

/-- Digits that are too large end a number whose base is marked and allows no exponent. -/
theorem Front.Begun.right (begun : front.Begun) (raisable : front.Raisable) :
    wrongDigit? front.radix front.digits = none ∨ front.radix = .legacyOctal := by
  have right : ∀ {radix : Radix}, (∀ c ∈ front.digits, c = '_' ∨ radix.HasDigit c) →
      wrongDigit? radix front.digits = none :=
    fun isRun => wrongDigit?_eq_none_iff.mpr fun c mem => (isRun c mem).imp_right fun isDigit =>
      (continues_of_hasDigit isDigit).2
  have continued := begun.continued
  rcases raisable with (decimal | legacy) | hexadecimal
  · rw [decimal] at continued ⊢
    exact .inl (right (isRun_decimal (.inl rfl) continued))
  · exact .inr legacy
  · rw [hexadecimal] at continued ⊢
    refine .inl (right fun c mem => ?_)
    have either := continued c mem
    simp only [continues, Radix.base, Nat.reduceLeDiff, ↓reduceIte, Bool.or_eq_true, beq_iff_eq] at either
    exact either.imp_right hasDigit_hexadecimal.mpr

/-- What is read behind the digits of a number that lacks something of its exponent. -/
structure Front.Lacks (front : Front) (behind : List Char) (length : Nat) (exponent : Option Exponent)
    (rest : List Char) : Prop where
  parts : behind = power exponent ++ rest
  begun : ∀ found ∈ exponent, found.Begun front.radix
  raisable : front.Raisable
  length : length = front.chars.length + (power exponent).length

private theorem exponentDigits_lacks {c : Char} (failed : exponentDigits (front.chars ++ c :: behind) (front.chars.length + 1) = .error fault)
    (marked : (front.radix = .decimal ∨ front.radix = .legacyOctal) ∧ (c = 'e' ∨ c = 'E') ∨
      front.radix = .hexadecimal ∧ (c = 'p' ∨ c = 'P')) :
    ∃ exponent rest, front.Lacks (c :: behind) fault.length exponent rest := by
  have parts : front.chars ++ c :: behind = (front.chars ++ [c]) ++ behind := by simp
  have size : front.chars.length + 1 = (front.chars ++ [c]).length := by simp
  obtain ⟨sign, digits, rest, rfl, isSign, continued, read⟩ := exponentDigits_cases (front.chars ++ [c]) behind
  rw [parts, size, read] at failed
  split at failed
  next => cases failed
  next =>
    cases failed
    refine ⟨some ⟨c, sign, digits⟩, rest, by simp [power, Exponent.chars], ?_, marked.imp And.left And.left, ?_⟩
    · rintro _ ⟨⟩
      exact ⟨marked, isSign, continued⟩
    · simp only [power, Exponent.chars, Option.elim_some, List.length_append, List.length_cons, List.length_nil]
      omega

private theorem exponent_lacks (failed : exponent (front.chars ++ behind) front.mantissa = .error fault)
    (reparable : fault.reparable = true) :
    ∃ exponent rest, front.Lacks behind fault.length exponent rest := by
  rw [exponent_eq, show front.mantissa.length = front.chars.length from rfl, List.drop_left] at failed
  have marked : ∀ c, behind.head? = some c →
    exponentDigits (front.chars ++ behind) (front.chars.length + 1) = .error fault →
      ((front.radix = .decimal ∨ front.radix = .legacyOctal) ∧ (c = 'e' ∨ c = 'E') ∨
        front.radix = .hexadecimal ∧ (c = 'p' ∨ c = 'P')) →
        ∃ exponent rest, front.Lacks behind fault.length exponent rest := by
    intro c starts failed isMark
    obtain ⟨behind, rfl⟩ := List.head?_eq_some_iff.mp starts
    exact exponentDigits_lacks failed isMark
  have irreparable : ∀ {length kind cause},
      (Except.error ⟨length, kind, cause, false⟩ : Except Fault (LiteralKind × Nat)) ≠ .error fault := by
    rintro _ _ _ ⟨⟩
    cases reparable
  unfold exponentAt at failed
  split at failed
  next starts =>
    split at failed
    next decimal => exact marked _ starts failed (.inl ⟨decimal, .inl rfl⟩)
    next => exact absurd failed irreparable
  next starts =>
    split at failed
    next decimal => exact marked _ starts failed (.inl ⟨decimal, .inr rfl⟩)
    next => exact absurd failed irreparable
  next starts =>
    split at failed
    next binary => exact marked _ starts failed (.inr ⟨binary, .inl rfl⟩)
    next => exact absurd failed irreparable
  next starts =>
    split at failed
    next binary => exact marked _ starts failed (.inr ⟨binary, .inr rfl⟩)
    next => exact absurd failed irreparable
  next =>
    split at failed
    next lacks =>
      cases failed
      exact ⟨none, behind, rfl, nofun, .inr lacks.1, rfl⟩
    next => cases failed

end

section

variable {text : List Char} {mark length : Nat} {read : Mantissa} {kind : LiteralKind} {fault : Fault}

private theorem judged_reparable (failed : judged text mark read kind length = .error fault)
    (reparable : fault.reparable = true) :
    fault.length = length ∧ (wrongDigit? read.radix read.digits = none ∨ read.radix = .legacyOctal) ∧
      (kind = .int ∨ ∃ index, misplacedSeparator? mark (text.take length) = some index ∧ index + 1 = length) := by
  rcases judged_cases text mark read kind length with ⟨digits, separators | ⟨isInt, cause, lacks⟩⟩ | ⟨-, cause, wrong⟩
  · rw [separators] at failed
    cases misplaced : misplacedSeparator? mark (text.take length) with
    | none =>
      rw [misplaced] at failed
      cases failed
    | some index =>
      rw [misplaced] at failed
      cases failed
      exact ⟨rfl, digits, .inr ⟨index, rfl, beq_iff_eq.mp reparable⟩⟩
  · rw [lacks] at failed
    cases failed
    exact ⟨rfl, digits, .inl isInt⟩
  · rw [wrong] at failed
    cases failed
    cases reparable

end

/-- A number that is cut off is a number that is written so far. -/
private theorem draft_of_read {text : List Char} {fault : Fault} (failed : Number.read text = .error fault)
    (reparable : fault.reparable = true) (ended : text.length ≤ fault.length) :
    ∃ draft : Draft, draft.Begun ∧ draft.chars = text := by
  have nothing : ∀ {rest : List Char} (size : Nat), size + rest.length ≤ size → rest = [] := fun _ short =>
    List.eq_nil_of_length_eq_zero (by omega)
  rw [read_eq] at failed
  rcases mantissa_cases text with ⟨other, upTo, irreparable⟩ | ⟨front, behind, rfl, announces, begun, upTo⟩
  · rw [upTo] at failed
    cases failed
    rw [irreparable] at reparable
    cases reparable
  · rw [upTo, Front.read] at failed
    by_cases hasDigits : Number.hasDigits front.digits = true
    · rw [if_pos hasDigits] at failed
      cases raised : Number.exponent (front.chars ++ behind) front.mantissa with
      | error other =>
        simp only [bind, Except.bind, raised] at failed
        cases failed
        obtain ⟨exponent, rest, rfl, begunPower, raisable, length⟩ := exponent_lacks raised reparable
        obtain rfl : rest = [] := nothing fault.length (by simpa [length, Nat.add_assoc] using ended)
        exact ⟨⟨front, exponent⟩,
          ⟨begun, fun found isFound => ⟨begunPower found isFound, hasDigits⟩, begun.right raisable⟩,
          by simp [Draft.chars]⟩
      | ok value =>
        obtain ⟨kind, length⟩ := value
        obtain ⟨exponent, rest, rfl, raises, rfl, rfl⟩ := exponent_sound raised
        simp only [bind, Except.bind, raised] at failed
        rw [finish, drop_two] at failed
        dsimp only at failed
        obtain ⟨length, digits, wrong⟩ := judged_reparable failed reparable
        by_cases suffix : rest.head? = some 'i'
        -- A separator in front of the suffix is not the last character.
        · obtain ⟨rest, rfl⟩ := List.head?_eq_some_iff.mp suffix
          have upToSuffix : (front.chars ++ (power exponent ++ 'i' :: rest)).take
            (front.chars.length + (power exponent).length + 1) =
              (front.chars ++ power exponent) ++ ['i'] := by
            rw [← List.append_assoc, List.append_cons, ← List.length_append]
            exact List.take_left' (by simp [Nat.add_assoc])
          have behindMark : front.mark.length ≤ (front.chars ++ power exponent).length := by
            simp only [Front.chars, List.length_append]
            omega
          simp only [endAt, suffix, ↓reduceIte, upToSuffix, announces] at wrong
          rcases wrong with isInt | ⟨index, misplaced, isLast⟩
          · cases isInt
          · cases misplacedSeparator?_last behindMark misplaced (by rw [List.length_append]; omega)
        · simp only [endAt, suffix, ↓reduceIte] at length
          obtain rfl : rest = [] := nothing fault.length (by simpa [length, Nat.add_assoc] using ended)
          exact ⟨⟨front, exponent⟩,
            ⟨begun, fun found isFound => ⟨(raises.fits found isFound).begun, hasDigits⟩, digits⟩, by simp [Draft.chars]⟩
    · rw [if_neg hasDigits] at failed
      cases failed
      obtain rfl : behind = [] := nothing front.chars.length (by simpa using ended)
      refine ⟨⟨front, none⟩,
        begun.draft (.inl (wrongDigit?_eq_none_iff.mpr fun c mem => .inl ?_)), by simp [Draft.chars_unraised]⟩
      exact Decidable.byContradiction fun isDigit => hasDigits (hasDigits_iff.mpr ⟨c, mem, isDigit⟩)

theorem draft_of_cutOff {text : List Char} {kind : LiteralKind} {cause : CutoffCause}
    (cutOff : (Number.scan text).outcome = .cutOff kind cause) : ∃ draft : Draft, draft.Begun ∧ draft.chars = text := by
  unfold Number.scan at cutOff
  split at cutOff
  next => cases cutOff
  next fault failed =>
    split at cutOff
    next reparable =>
      rw [Bool.and_eq_true, List.isEmpty_iff, List.drop_eq_nil_iff] at reparable
      exact draft_of_read failed reparable.1 reparable.2
    next => cases cutOff

end GoPrompt.Number
