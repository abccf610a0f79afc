import GoPrompt.Proofs.Lexical.Separators

/-! The pieces of a number fit together exactly if they spell a numeric literal of the language, with loose
exponents. -/

namespace GoPrompt.Number

section

variable {pieces : Pieces} {before : Bool}

/-- Whether the exponent starts with a letter that is taken for a digit. -/
def raising (exponent : Option Exponent) : Bool := exponent.any fun found => isHexDigit found.mark

/-- Whether the separators in the exponent are in their places. -/
def powerSeparated (exponent : Option Exponent) : Bool :=
  exponent.all fun found => separated (found.sign.isEmpty && isHexDigit found.mark) false found.digits

private theorem Pieces.suffix_head (pieces : Pieces) :
    pieces.suffix.head? ≠ some '_' ∧ pieces.suffix.head?.elim false isHexDigit = false ∧
    separated false false pieces.suffix = true := by
  simp only [suffix]
  cases pieces.imaginary <;> decide

/-- The end of a number, from its exponent on. -/
private theorem Pieces.power_separated (raises : pieces.front.Raises pieces.exponent) :
    (power pieces.exponent ++ pieces.suffix).head? ≠ some '_' ∧
      (power pieces.exponent ++ pieces.suffix).head?.elim false isHexDigit = raising pieces.exponent ∧
      separated false false (power pieces.exponent ++ pieces.suffix) = powerSeparated pieces.exponent := by
  obtain ⟨apart, notDigit, last⟩ := pieces.suffix_head
  obtain ⟨front, exponent, imaginary⟩ := pieces
  cases exponent with
  | none => exact ⟨apart, notDigit, last⟩
  | some found =>
    obtain ⟨mark, sign, digits⟩ := found
    have fits := raises.fits _ rfl
    have isMark : mark ∈ ['e', 'E', 'p', 'P'] := by
      rcases fits.mark with ⟨-, rfl | rfl⟩ | ⟨-, rfl | rfl⟩ <;> decide
    have notSeparator : mark ≠ '_' := by
      rintro rfl
      revert isMark
      decide
    refine ⟨fun same => notSeparator (Option.some.inj same), rfl, ?_⟩
    simp only [power, Option.elim_some, Exponent.chars, List.cons_append, List.append_assoc, separated,
      notSeparator, ↓reduceIte, powerSeparated, Option.all_some]
    rcases fits.sign with isSign | isSign | isSign
    all_goals
      obtain rfl := show sign = _ from isSign
      simp only [List.cons_append, List.nil_append, separated, List.isEmpty_nil, List.isEmpty_cons,
        Bool.true_and, Bool.false_and]
    · rw [separated_append apart, notDigit, last, Bool.and_true]
    · show separated false false _ = _
      rw [separated_append apart, notDigit, last, Bool.and_true]
    · show separated false false _ = _
      rw [separated_append apart, notDigit, last, Bool.and_true]

theorem Pieces.separated_digits (raises : pieces.front.Raises pieces.exponent) : separated before false pieces.digits =
    (separated before (pieces.front.fraction.isNone && raising pieces.exponent) pieces.front.whole &&
      (pieces.front.fraction.all (separated false (raising pieces.exponent)) && powerSeparated pieces.exponent)) := by
  obtain ⟨apart, next, last⟩ := Pieces.power_separated raises
  obtain ⟨⟨radix, mark, whole, fraction⟩, exponent, imaginary⟩ := pieces
  cases fraction with
  | none =>
    simp only [Pieces.digits, Front.point, Option.elim_none, List.nil_append, Option.isNone_none,
      Bool.true_and, Option.all_none]
    rw [separated_append apart, next, last]
  | some fraction =>
    have point : separated false false ('.' :: (fraction ++ (power exponent ++ Pieces.suffix
        ⟨⟨radix, mark, whole, some fraction⟩, exponent, imaginary⟩))) =
        (separated false (raising exponent) fraction && powerSeparated exponent) := by
      rw [← last, ← next, ← separated_append apart]
      rfl
    simp only [Pieces.digits, Front.point, Option.elim_some, List.cons_append, Option.isNone_some,
      Bool.false_and, Option.all_some]
    rw [separated_append (by simp), point]
    rfl

private theorem misplacedSeparator?_pieces (raises : pieces.front.Raises pieces.exponent) :
    misplacedSeparator? pieces.front.mark.length pieces.chars = none ↔
      separated (pieces.front.mark.length != 0) (pieces.front.fraction.isNone && raising pieces.exponent)
        pieces.front.whole = true ∧
        pieces.front.fraction.all (separated false (raising pieces.exponent)) = true ∧
          powerSeparated pieces.exponent = true := by
  rw [misplacedSeparator?, Pieces.chars, List.drop_left, looseSeparator?_eq_none_iff, Pieces.separated_digits raises,
    Bool.and_eq_true, Bool.and_eq_true]

end

section

variable {radix : Radix} {run : List Char} {before behind : Bool}

private theorem digits_or_nil (isRun : ∀ c ∈ run, c = '_' ∨ radix.HasDigit c)
    (passes : separated before behind run = true) (notBoth : before = true → behind = false) :
    run = [] ∨ SpacedDigits radix before behind run := by
  rcases separated_sound isRun passes with empty | ⟨isBefore, isBehind, -⟩ | spaced
  · exact .inl empty
  · rw [notBoth isBefore] at isBehind
    cases isBehind
  · exact .inr spaced

private theorem SpacedDigits.led (spaced : SpacedDigits radix before false run) : LedDigits radix run := by
  obtain ⟨lead, digits, trail, rfl, isLead, rfl | ⟨impossible, -⟩, isDigits⟩ := spaced
  · rw [List.append_nil]
    rcases isLead with rfl | ⟨-, rfl⟩
    · exact .inl isDigits
    · exact .inr ⟨digits, rfl, isDigits⟩
  · cases impossible

theorem SpacedDigits.trailing (spaced : SpacedDigits radix false behind run) :
    ∃ digits trail, run = digits ++ trail ∧ Digits radix digits ∧ OptionalSeparator behind trail := by
  obtain ⟨lead, digits, trail, rfl, rfl | ⟨impossible, -⟩, isTrail, isDigits⟩ := spaced
  · exact ⟨digits, trail, rfl, isDigits, isTrail⟩
  · cases impossible

theorem SpacedDigits.digits (spaced : SpacedDigits radix false false run) : Digits radix run := by
  obtain ⟨digits, trail, rfl, isDigits, rfl | ⟨impossible, -⟩⟩ := spaced.trailing
  · rwa [List.append_nil]
  · cases impossible

theorem isRun_decimal (isDecimal : radix = .decimal ∨ radix = .legacyOctal)
    (continued : ∀ c ∈ run, continues radix c = true) :
    ∀ c ∈ run, c = '_' ∨ Radix.decimal.HasDigit c := by
  intro c mem
  have continued := continued c mem
  rcases isDecimal with rfl | rfl
  all_goals
    simp only [continues, Radix.base, Nat.reduceLeDiff, ↓reduceIte, Bool.or_eq_true, beq_iff_eq] at continued
    exact continued.imp_right hasDigit_decimal.mpr

theorem wrongDigit?_eq_none_iff : wrongDigit? radix run = none ↔ ∀ c ∈ run, c = '_' ∨ digitValue c < radix.base := by
  rw [wrongDigit?, List.find?_eq_none]
  refine forall₂_congr fun c _ => ?_
  simp only [Bool.and_eq_true, bne_iff_ne, ne_eq, decide_eq_true_eq, not_and, Nat.not_le]
  exact Decidable.or_iff_not_imp_left.symm

theorem hasDigits_iff : hasDigits run = true ↔ ∃ c ∈ run, c ≠ '_' := by simp [hasDigits]

end

section

variable {exponent : Option Exponent} {radix : Radix} {behindDigit : Bool}

private theorem Exponent.Fits.digits_spaced {found : Exponent} (fits : found.Fits radix)
    (passes : separated before false found.digits = true) : SpacedDigits .decimal before false found.digits := by
  refine (digits_or_nil (isRun_decimal (.inl rfl) fits.digits) passes fun _ => rfl).resolve_left fun empty => ?_
  have hasDigits := fits.hasDigits
  rw [empty] at hasDigits
  cases hasDigits

private theorem decimalExponent_sound {found : Exponent} (fits : found.Fits radix)
    (isDecimal : radix = .decimal ∨ radix = .legacyOctal) (passes : powerSeparated (some found) = true) :
    DecimalExponent true behindDigit found.chars ∧ isHexDigit found.mark = true := by
  obtain ⟨mark, sign, digits⟩ := found
  have isMark : mark ∈ ['e', 'E'] := by
    rcases fits.mark with ⟨-, isMark⟩ | ⟨hexadecimal, -⟩
    · simpa using isMark
    · rcases isDecimal with rfl | rfl <;> cases hexadecimal
  have isDigit : isHexDigit mark = true := by
    simp only [List.mem_cons, List.not_mem_nil, or_false] at isMark
    rcases isMark with rfl | rfl <;> rfl
  refine ⟨?_, isDigit⟩
  simp only [powerSeparated, Option.all_some, isDigit, Bool.and_true] at passes
  obtain ⟨lead, digits, trail, rfl, isLead, rfl | ⟨impossible, -⟩, isDigits⟩ := fits.digits_spaced passes
  · rw [List.append_nil]
    rcases isLead with rfl | ⟨unsigned, rfl⟩
    · exact .strict isMark fits.sign isDigits
    · obtain rfl := List.isEmpty_iff.mp unsigned
      exact .behindMark rfl isMark isDigits
  · cases impossible

private theorem binaryExponent_sound {found : Exponent} (fits : found.Fits .hexadecimal)
    (passes : powerSeparated (some found) = true) :
    BinaryExponent found.chars ∧ isHexDigit found.mark = false := by
  obtain ⟨mark, sign, digits⟩ := found
  have isMark : mark ∈ ['p', 'P'] := by
    rcases fits.mark with ⟨impossible | impossible, -⟩ | ⟨-, isMark⟩
    · cases impossible
    · cases impossible
    · simpa using isMark
  have notDigit : isHexDigit mark = false := by
    simp only [List.mem_cons, List.not_mem_nil, or_false] at isMark
    rcases isMark with rfl | rfl <;> rfl
  refine ⟨?_, notDigit⟩
  simp only [powerSeparated, Option.all_some, notDigit, Bool.and_false] at passes
  exact .mk isMark fits.sign (fits.digits_spaced passes).digits

private theorem power_sound (isDecimal : radix = .decimal ∨ radix = .legacyOctal)
    (fits : ∀ found ∈ exponent, found.Fits radix) (passes : powerSeparated exponent = true) :
    power exponent = [] ∨ DecimalExponent true behindDigit (power exponent) := by
  cases exponent with
  | none => exact .inl rfl
  | some found => exact .inr (decimalExponent_sound (fits found rfl) isDecimal passes).1

private theorem ledPower_sound (isDecimal : radix = .decimal ∨ radix = .legacyOctal)
    (fits : ∀ found ∈ exponent, found.Fits radix) (passes : powerSeparated exponent = true) {trail : List Char}
    (isTrail : OptionalSeparator (raising exponent) trail) :
    trail ++ power exponent = [] ∨ DecimalExponent true true (trail ++ power exponent) := by
  rcases isTrail with rfl | ⟨isRaising, rfl⟩
  · exact power_sound isDecimal fits passes
  · cases exponent with
    | none => cases isRaising
    | some found => exact .inr (.beforeMark rfl (decimalExponent_sound (fits found rfl) isDecimal passes).1)

end

section

variable {front : Front} {exponent : Option Exponent} {radix : Radix} {run digits : List Char}

/-- A floating-point literal without a mark of its base. -/
private theorem decimalFloat_sound (fits : front.Fits) (isDecimal : front.radix = .decimal ∨ front.radix = .legacyOctal)
    (raises : front.Raises exponent) (isFloat : front.kind exponent = .float)
    (wholePasses : separated false (front.fraction.isNone && raising exponent) front.whole = true)
    (fractionPasses : front.fraction.all (separated false (raising exponent)) = true)
    (powerPasses : powerSeparated exponent = true) :
    FloatLiteral true (front.whole ++ (front.point ++ power exponent)) := by
  have isWhole := digits_or_nil (isRun_decimal isDecimal fits.whole) wholePasses nofun
  have hasDigits := fits.hasDigits
  have fractionRun := fits.fraction
  obtain ⟨radix, mark, whole, fraction⟩ := front
  cases fraction with
  | none =>
    have spaced := isWhole.resolve_left fun empty => by
      obtain rfl := show whole = [] from empty
      cases hasDigits
    obtain ⟨digits, trail, rfl, isDigits, isTrail⟩ := spaced.trailing
    simp only [Front.point, Option.elim_none, List.nil_append, List.append_assoc]
    refine .whole isDigits ((ledPower_sound isDecimal raises.fits powerPasses isTrail).resolve_left fun empty => ?_)
    cases exponent with
    | none => cases isFloat
    | some found => cases (List.append_eq_nil_iff.mp empty).2
  | some fraction =>
    have isFraction := digits_or_nil (isRun_decimal isDecimal (fractionRun fraction rfl)) fractionPasses nofun
    simp only [Front.point, Option.elim_some, List.cons_append]
    rcases isWhole with rfl | spaced
    · have spaced := isFraction.resolve_left fun empty => by
        obtain rfl := empty
        cases hasDigits
      obtain ⟨digits, trail, rfl, isDigits, isTrail⟩ := spaced.trailing
      rw [List.append_assoc]
      exact .fraction isDigits (ledPower_sound isDecimal raises.fits powerPasses isTrail)
    · rcases isFraction with rfl | spacedFraction
      · exact .point spaced.digits (power_sound isDecimal raises.fits powerPasses)
      · obtain ⟨digits, trail, rfl, isDigits, isTrail⟩ := spacedFraction.trailing
        rw [List.append_assoc]
        exact .both spaced.digits isDigits (ledPower_sound isDecimal raises.fits powerPasses isTrail)

private theorem isRun_of_right (continued : ∀ c ∈ run, continues radix c = true)
    (right : wrongDigit? radix digits = none) (within : ∀ c ∈ run, c ∈ digits) :
    ∀ c ∈ run, c = '_' ∨ radix.HasDigit c :=
  fun c mem => hasDigit_of_continues (continued c mem) (wrongDigit?_eq_none_iff.mp right c (within c mem))

private theorem digits_tail {first : Char} {rest : List Char} (isDigits : Digits radix (first :: rest)) :
    rest = [] ∨ LedDigits radix rest := by
  cases isDigits with
  | single => exact .inl rfl
  | next _ later => exact .inr (.inl later)
  | apart _ later => exact .inr (.inr ⟨_, rfl, later⟩)

theorem Front.isRun (fits : front.Fits) (right : wrongDigit? front.radix front.digits = none) :
    (∀ c ∈ front.whole, c = '_' ∨ front.radix.HasDigit c) ∧
      ∀ fraction ∈ front.fraction, ∀ c ∈ fraction, c = '_' ∨ front.radix.HasDigit c := by
  refine ⟨isRun_of_right fits.whole right fun c mem => List.mem_append_left _ mem, fun fraction isFraction => ?_⟩
  refine isRun_of_right (fits.fraction fraction isFraction) right fun c mem => List.mem_append_right _ ?_
  rwa [Option.mem_def.mp isFraction]

/-- A floating-point literal behind the mark of base sixteen. -/
private theorem hexadecimalFloat_sound (fits : front.Fits) (isHexadecimal : front.radix = .hexadecimal)
    (right : wrongDigit? front.radix front.digits = none) (raises : front.Raises exponent)
    (isFloat : front.kind exponent = .float)
    (wholePasses : separated true (front.fraction.isNone && raising exponent) front.whole = true)
    (fractionPasses : front.fraction.all (separated false (raising exponent)) = true)
    (powerPasses : powerSeparated exponent = true) {mark : Char} (isMark : mark ∈ Radix.hexadecimal.marks) :
    FloatLiteral true ('0' :: mark :: (front.whole ++ (front.point ++ power exponent))) := by
  have hasDigits := fits.hasDigits
  obtain ⟨wholeRun, fractionRun⟩ := front.isRun fits right
  obtain ⟨radix, _, whole, fraction⟩ := front
  obtain rfl : radix = .hexadecimal := isHexadecimal
  obtain ⟨found, rfl⟩ : ∃ found, exponent = some found := by
    cases exponent with
    | some found => exact ⟨found, rfl⟩
    | none =>
      cases fraction with
      | none => cases isFloat
      | some fraction => cases raises.needed rfl rfl
  obtain ⟨isExponent, notDigit⟩ := binaryExponent_sound (raises.fits found rfl) powerPasses
  have notRaising : raising (some found) = false := notDigit
  rw [notRaising, Bool.and_false] at wholePasses
  rw [notRaising] at fractionPasses
  have isWhole := digits_or_nil wholeRun wholePasses fun _ => rfl
  have mantissa : HexadecimalMantissa (whole ++ Front.point ⟨.hexadecimal, [], whole, fraction⟩) := by
    cases fraction with
    | none =>
      have spaced := isWhole.resolve_left fun empty => by
        obtain rfl := show whole = [] from empty
        cases hasDigits
      simpa only [Front.point, Option.elim_none, List.append_nil] using .whole spaced.led
    | some fraction =>
      have isFraction := digits_or_nil (fractionRun fraction rfl) fractionPasses fun impossible => by cases impossible
      rcases isWhole with rfl | spaced
      · have spaced := isFraction.resolve_left fun empty => by
          obtain rfl := empty
          cases hasDigits
        exact .fraction spaced.digits
      · exact .point spaced.led (isFraction.imp_right fun spacedFraction => spacedFraction.digits)
  rw [← List.append_assoc]
  exact .hexadecimal isMark mantissa isExponent

private theorem integer_sound (fits : front.Fits) (right : wrongDigit? front.radix front.digits = none)
    (isInt : front.fraction = none) (passes : separated (front.mark.length != 0) false front.whole = true) :
    IntegerLiteral (front.mark ++ front.whole) := by
  have hasDigits := fits.hasDigits
  obtain ⟨wholeRun, -⟩ := front.isRun fits right
  have marks := fits.marks
  obtain ⟨radix, mark, whole, fraction⟩ := front
  obtain rfl : fraction = none := isInt
  simp only [Front.digits, Option.getD_none, List.append_nil] at hasDigits
  have spaced := (digits_or_nil wholeRun passes fun _ => rfl).resolve_left fun empty => by
    obtain rfl := show whole = [] from empty
    cases hasDigits
  dsimp only at spaced
  cases radix with
  | decimal =>
    obtain ⟨rfl, notZero⟩ := marks
    obtain ⟨first, rest, rfl, isDigit⟩ := spaced.digits.head
    refine .decimal ⟨?_, isDigit.2⟩ (digits_tail spaced.digits)
    have code : 48 ≤ first.toNat := le_iff_toNat.mp isDigit.1
    have other : first.toNat ≠ 48 := fun same => notZero (congrArg some (Char.ext (UInt32.toNat_inj.mp same)))
    exact le_iff_toNat.mpr (show 49 ≤ first.toNat by omega)
  | legacyOctal =>
    obtain ⟨rfl, zero⟩ := marks
    obtain ⟨rest, rfl⟩ := List.head?_eq_some_iff.mp zero
    rcases digits_tail spaced.digits with rfl | led
    · exact .zero
    · exact .legacyOctal led
  | hexadecimal | octal | binary =>
    rcases marks with rfl | rfl <;> exact .marked (by decide) spaced.led

private theorem float_sound (fits : front.Fits)
    (right : wrongDigit? front.radix front.digits = none ∨ front.radix = .legacyOctal) (raises : front.Raises exponent)
    (isFloat : front.kind exponent = .float)
    (wholePasses : separated (front.mark.length != 0) (front.fraction.isNone && raising exponent) front.whole = true)
    (fractionPasses : front.fraction.all (separated false (raising exponent)) = true)
    (powerPasses : powerSeparated exponent = true) :
    FloatLiteral true (front.mark ++ (front.whole ++ (front.point ++ power exponent))) := by
  have marks := fits.marks
  have pointless : front.radix = .octal ∨ front.radix = .binary → False := by
    intro isWhole
    have noFraction : front.fraction = none := by
      cases isPoint : front.fraction with
      | none => rfl
      | some fraction => exact absurd isWhole (fits.point (by rw [isPoint]; rfl))
    cases exponent with
    | none =>
      rw [Front.kind, noFraction] at isFloat
      cases isFloat
    | some found =>
      rcases (raises.fits found rfl).mark with ⟨radix | radix, -⟩ | ⟨radix, -⟩ <;> rw [radix] at isWhole <;>
        rcases isWhole with impossible | impossible <;> cases impossible
  cases radix : front.radix with
  | decimal =>
    rw [radix] at marks
    rw [marks.1] at wholePasses ⊢
    exact decimalFloat_sound fits (.inl radix) raises isFloat wholePasses fractionPasses powerPasses
  | legacyOctal =>
    rw [radix] at marks
    rw [marks.1] at wholePasses ⊢
    exact decimalFloat_sound fits (.inr radix) raises isFloat wholePasses fractionPasses powerPasses
  | hexadecimal =>
    have right := right.resolve_right fun legacy => by rw [radix] at legacy; cases legacy
    rw [radix] at marks
    rcases marks with mark | mark
    all_goals
      rw [mark] at wholePasses ⊢
      exact hexadecimalFloat_sound fits radix right raises isFloat wholePasses fractionPasses powerPasses (by decide)
  | octal => exact absurd (.inl radix) pointless
  | binary => exact absurd (.inr radix) pointless

end

/-- Pieces that fit together spell a numeral. -/
theorem Pieces.Fits.numeral {pieces : Pieces} (fits : pieces.Fits) : Numeral true pieces.kind pieces.chars := by
  obtain ⟨wholePasses, fractionPasses, powerPasses⟩ := (misplacedSeparator?_pieces fits.raises).mp fits.separators
  have parts : pieces.chars =
      pieces.front.mark ++ (pieces.front.whole ++ (pieces.front.point ++ power pieces.exponent)) ++ pieces.suffix := by
    simp only [Pieces.chars, Pieces.digits, List.append_assoc]
  have right := fits.digits
  rw [parts]
  cases isKind : pieces.front.kind pieces.exponent with
  | float =>
    have float := float_sound fits.front (right.imp_right And.left) fits.raises isKind wholePasses
      fractionPasses powerPasses
    rw [Pieces.kind, Pieces.suffix, isKind]
    cases pieces.imaginary with
    | true => exact .imaginaryFloat float
    | false => simpa using .float float
  | int =>
    obtain ⟨noFraction, noExponent⟩ : pieces.front.fraction = none ∧ pieces.exponent = none := by
      rw [Front.kind] at isKind
      split at isKind
      next => cases isKind
      next real => simpa using real
    have point : pieces.front.point = [] := by rw [Front.point, noFraction]; rfl
    rw [noFraction, noExponent] at wholePasses
    rw [Pieces.kind, Pieces.suffix, isKind, point, noExponent, show power none = [] from rfl,
      List.nil_append, List.append_nil]
    rcases right with right | ⟨legacy, notInt⟩
    · have integer := integer_sound fits.front right noFraction wholePasses
      cases pieces.imaginary with
      | true => exact .imaginaryInt integer
      | false => simpa using .int integer
    · -- Behind a leading zero the digits of an imaginary literal are decimal ones.
      rw [Pieces.kind, isKind] at notInt
      cases imaginary : pieces.imaginary with
      | false =>
        rw [imaginary] at notInt
        exact absurd rfl notInt
      | true =>
        have marks := fits.front.marks
        rw [legacy] at marks
        obtain ⟨noMark, zero⟩ := marks
        rw [noMark] at wholePasses ⊢
        have isWhole := digits_or_nil (isRun_decimal (.inr legacy) fits.front.whole) wholePasses fun _ => rfl
        exact .imaginaryDigits (isWhole.resolve_left fun empty => by rw [empty] at zero; cases zero).digits
  | imaginary | rune | string =>
    rw [Front.kind] at isKind
    split at isKind <;> cases isKind

/-- What a run of digits that is spaced rightly says to the reader. -/
structure GoodRun (radix : Radix) (before behind : Bool) (run : List Char) : Prop where
  continued : ∀ c ∈ run, continues radix c = true
  right : wrongDigit? radix run = none
  passes : separated before behind run = true

section

variable {radix : Radix} {before behind loose : Bool} {run first second : List Char}

private theorem mem_spaced {sort : Char → Prop} (spaced : SpacedDigits radix before behind run) (separator : sort '_')
    (digit : ∀ c, radix.HasDigit c → sort c) : ∀ c ∈ run, sort c := by
  obtain ⟨lead, digits, trail, rfl, isLead, isTrail, isDigits⟩ := spaced
  have optional : ∀ {allowed text}, OptionalSeparator allowed text → ∀ c ∈ text, sort c := by
    rintro allowed text (rfl | ⟨-, rfl⟩) c mem
    · cases mem
    · rwa [List.mem_singleton.mp mem]
  intro c mem
  rcases List.mem_append.mp mem with inLead | mem
  · exact optional isLead c inLead
  · rcases List.mem_append.mp mem with inDigits | inTrail
    · rcases isDigits.run c inDigits with rfl | isDigit
      · exact separator
      · exact digit c isDigit
    · exact optional isTrail c inTrail

private theorem SpacedDigits.goodRun (spaced : SpacedDigits radix before behind run) :
    GoodRun radix before behind run where
  continued := mem_spaced spaced (by cases radix <;> rfl) fun _ isDigit => (continues_of_hasDigit isDigit).1
  right := wrongDigit?_eq_none_iff.mpr
    (mem_spaced spaced (.inl rfl) fun _ isDigit => .inr (continues_of_hasDigit isDigit).2)
  passes := separated_complete spaced

private theorem goodRun_nil : GoodRun radix before behind [] := ⟨nofun, rfl, rfl⟩

theorem SpacedDigits.hasDigits (spaced : SpacedDigits radix before behind run) : hasDigits run = true := by
  obtain ⟨lead, digits, trail, rfl, -, -, isDigits⟩ := spaced
  obtain ⟨first, rest, rfl, isDigit⟩ := isDigits.head
  exact hasDigits_iff.mpr ⟨first, by simp, isDigit.ne_separator⟩

private theorem hasDigits_append : hasDigits (first ++ second) = (hasDigits first || hasDigits second) :=
  List.any_append

theorem wrongDigit?_append (isFirst : wrongDigit? radix first = none) (isSecond : wrongDigit? radix second = none) :
    wrongDigit? radix (first ++ second) = none := by
  rw [wrongDigit?, List.find?_append, show first.find? _ = none from isFirst]
  exact isSecond

private theorem spaced_of_digits {trail : List Char} (digits : Digits radix run)
    (isTrail : OptionalSeparator behind trail) :
    SpacedDigits radix before behind (run ++ trail) := ⟨[], run, trail, rfl, .inl rfl, isTrail, digits⟩

private theorem spaced_digits (digits : Digits radix run) : SpacedDigits radix before behind run :=
  ⟨[], run, [], by simp, .inl rfl, .inl rfl, digits⟩

private theorem spaced_led (led : LedDigits radix run) : SpacedDigits radix true behind run := by
  rcases led with digits | ⟨digits, rfl, isDigits⟩
  · exact spaced_digits digits
  · exact ⟨['_'], digits, [], by simp, .inr ⟨rfl, rfl⟩, .inl rfl, isDigits⟩

private theorem digits_cons {first : Char} (led : run = [] ∨ LedDigits radix run) (isDigit : radix.HasDigit first) :
    Digits radix (first :: run) := by
  rcases led with rfl | digits | ⟨digits, rfl, isDigits⟩
  · exact .single isDigit
  · exact .next isDigit digits
  · exact .apart isDigit isDigits

end

private theorem Pieces.fits_of_runs {pieces : Pieces} (front : pieces.front.Fits) (raises : pieces.front.Raises pieces.exponent)
    (digits : wrongDigit? pieces.front.radix pieces.front.digits = none ∨ pieces.front.radix = .legacyOctal ∧ pieces.kind ≠ .int)
    (whole : separated (pieces.front.mark.length != 0) (pieces.front.fraction.isNone && raising pieces.exponent)
      pieces.front.whole = true)
    (fraction : pieces.front.fraction.all (separated false (raising pieces.exponent)) = true)
    (power : powerSeparated pieces.exponent = true) : pieces.Fits :=
  ⟨front, raises, digits, (misplacedSeparator?_pieces raises).mpr ⟨whole, fraction, power⟩⟩

section

variable {text : List Char} {imaginary loose behindDigit : Bool}

private theorem integer_complete (integer : IntegerLiteral text) (imaginary : Bool) : ∃ pieces : Pieces, pieces.Fits ∧
    pieces.chars = text ++ (if imaginary then ['i'] else []) ∧
    pieces.kind = if imaginary then .imaginary else .int := by
  have build : ∀ {radix mark whole}, Radix.Marks mark whole radix → SpacedDigits radix (mark.length != 0) false whole →
      text = mark ++ whole → ∃ pieces : Pieces, pieces.Fits ∧
        pieces.chars = text ++ (if imaginary then ['i'] else []) ∧
          pieces.kind = if imaginary then .imaginary else .int := by
    rintro radix mark whole marks spaced rfl
    obtain ⟨continued, right, passes⟩ := spaced.goodRun
    refine ⟨⟨⟨radix, mark, whole, none⟩, none, imaginary⟩, Pieces.fits_of_runs ⟨marks, continued, nofun, ?_, nofun⟩
      (raises_none fun pointed => by cases pointed.2) (.inl ?_) passes rfl rfl, ?_, rfl⟩
    · simpa [Front.digits] using spaced.hasDigits
    · simpa [Front.digits] using right
    · simp [Pieces.chars, Pieces.digits, Front.point, power, Pieces.suffix]
  cases integer with
  | zero => exact @build .legacyOctal [] ['0'] ⟨rfl, rfl⟩ (spaced_digits (.single ⟨by decide, by decide⟩)) rfl
  | @decimal first rest isDigit digits =>
    have isDecimal : Radix.decimal.HasDigit first := ⟨Char.le_trans (by decide) isDigit.1, isDigit.2⟩
    refine @build .decimal [] (first :: rest) ⟨rfl, fun zero => ?_⟩ (spaced_digits (digits_cons digits isDecimal)) rfl
    obtain rfl := Option.some.inj zero
    exact absurd isDigit.1 (by decide)
  | @legacyOctal rest digits =>
    exact @build .legacyOctal [] ('0' :: rest) ⟨rfl, rfl⟩
      (spaced_digits (digits_cons (.inr digits) ⟨by decide, by decide⟩)) rfl
  | @marked radix mark rest isMark digits =>
    refine @build radix ['0', mark] rest ?_ (spaced_led digits) rfl
    cases radix with
    | decimal | legacyOctal => cases isMark
    | hexadecimal | octal | binary =>
      simp only [Radix.marks, List.mem_cons, List.not_mem_nil, or_false] at isMark
      rcases isMark with rfl | rfl
      · exact .inl rfl
      · exact .inr rfl

/-- The base of a number without a mark, which its first digit announces. -/
def plainRadix (whole : List Char) : Radix := if whole.head? = some '0' then .legacyOctal else .decimal

private theorem plainRadix_marks (whole : List Char) : (plainRadix whole).Marks [] whole := by
  unfold plainRadix
  split
  next zero => exact ⟨rfl, zero⟩
  next notZero => exact ⟨rfl, notZero⟩

private theorem plainRadix_cases (whole : List Char) :
    plainRadix whole = .decimal ∨ plainRadix whole = .legacyOctal := by
  unfold plainRadix
  split
  · exact .inr rfl
  · exact .inl rfl

private theorem continues_plain {radix : Radix} (isDecimal : radix = .decimal ∨ radix = .legacyOctal) (c : Char) :
    continues radix c = continues .decimal c := by
  rcases isDecimal with rfl | rfl <;> rfl

/-- A number without a mark of its base, by its runs of decimal digits. -/
private theorem plain_complete {whole : List Char} {fraction : Option (List Char)} {exponent : Option Exponent}
    (isWhole : GoodRun .decimal false (fraction.isNone && raising exponent) whole)
    (isFraction : ∀ digits ∈ fraction, GoodRun .decimal false (raising exponent) digits)
    (hasDigits : Number.hasDigits (whole ++ fraction.getD []) = true)
    (fits : ∀ found ∈ exponent, ∀ {radix}, radix = .decimal ∨ radix = .legacyOctal → found.Fits radix)
    (isPower : powerSeparated exponent = true) (imaginary : Bool)
    (notInt : imaginary = true ∨ fraction.isSome = true ∨ exponent.isSome = true) :
    ∃ pieces : Pieces, pieces.Fits ∧
      pieces.chars = whole ++ (fraction.elim [] ('.' :: ·) ++ power exponent) ++ (if imaginary then ['i'] else []) ∧
      pieces.kind = if imaginary then .imaginary else .float := by
  have isDecimal := plainRadix_cases whole
  let front : Front := ⟨plainRadix whole, [], whole, fraction⟩
  have frontFits : front.Fits := by
    refine ⟨plainRadix_marks whole, fun c mem => ?_, fun digits isFound c mem => ?_, hasDigits, fun _ isWhole => ?_⟩
    · exact (continues_plain isDecimal c).trans (isWhole.continued c mem)
    · exact (continues_plain isDecimal c).trans ((isFraction digits isFound).continued c mem)
    · have isWhole : plainRadix whole = .octal ∨ plainRadix whole = .binary := isWhole
      rcases isDecimal with radix | radix <;> rw [radix] at isWhole <;> rcases isWhole with impossible | impossible <;>
        cases impossible
  have raises : front.Raises exponent := by
    refine ⟨fun found isFound => fits found isFound isDecimal, fun hexadecimal => ?_⟩
    have hexadecimal : plainRadix whole = .hexadecimal := hexadecimal
    rcases isDecimal with radix | radix <;> rw [radix] at hexadecimal <;> cases hexadecimal
  have isKind : Pieces.kind ⟨front, exponent, imaginary⟩ = if imaginary then .imaginary else .float := by
    rcases notInt with rfl | pointed | raised
    · rfl
    · simp [Pieces.kind, Front.kind, front, pointed]
    · simp [Pieces.kind, Front.kind, raised]
  refine ⟨⟨front, exponent, imaginary⟩, Pieces.fits_of_runs frontFits raises ?_ isWhole.passes ?_ isPower, ?_, isKind⟩
  · rcases isDecimal with radix | radix
    · left
      show wrongDigit? (plainRadix whole) (whole ++ fraction.getD []) = none
      rw [radix]
      refine wrongDigit?_append isWhole.right ?_
      cases fraction with
      | none => rfl
      | some digits => exact (isFraction digits rfl).right
    · refine .inr ⟨radix, ?_⟩
      rw [isKind]
      split <;> exact fun same => by cases same
  · cases fraction with
    | none => rfl
    | some digits => exact (isFraction digits rfl).passes
  · simp [Pieces.chars, Pieces.digits, Front.point, Pieces.suffix, front]

private theorem decimalExponent_complete (isExponent : DecimalExponent loose behindDigit text) : ∃ trail found,
    text = trail ++ Exponent.chars found ∧ OptionalSeparator behindDigit trail ∧ isHexDigit found.mark = true ∧
      (∀ {radix}, radix = .decimal ∨ radix = .legacyOctal → found.Fits radix) ∧ powerSeparated (some found) = true := by
  have isDigit : ∀ {mark}, mark ∈ ['e', 'E'] → isHexDigit mark = true := by
    intro mark isMark
    simp only [List.mem_cons, List.not_mem_nil, or_false] at isMark
    rcases isMark with rfl | rfl <;> rfl
  induction isExponent with
  | @strict behindDigit mark sign digits isMark isSign isDigits =>
    have spaced : ∀ before, SpacedDigits .decimal before false digits := fun _ => spaced_digits isDigits
    exact ⟨[], ⟨mark, sign, digits⟩, rfl, .inl rfl, isDigit isMark,
      fun isDecimal => ⟨.inl ⟨isDecimal, by simpa using isMark⟩, isSign, (spaced false).goodRun.continued,
      (spaced false).hasDigits⟩, (spaced _).goodRun.passes⟩
  | @behindMark behindDigit mark digits isLoose isMark isDigits =>
    have spaced : SpacedDigits .decimal true false ('_' :: digits) := spaced_led (.inr ⟨digits, rfl, isDigits⟩)
    refine ⟨[], ⟨mark, [], '_' :: digits⟩, rfl, .inl rfl, isDigit isMark, fun isDecimal => ?_, ?_⟩
    · exact ⟨.inl ⟨isDecimal, by simpa using isMark⟩, .inl rfl, spaced.goodRun.continued, spaced.hasDigits⟩
    · simpa [powerSeparated, isDigit isMark] using spaced.goodRun.passes
  | beforeMark isLoose isExponent ih =>
    obtain ⟨trail, found, rfl, isTrail, rest⟩ := ih
    obtain rfl := isTrail.resolve_right fun ⟨impossible, _⟩ => by cases impossible
    exact ⟨['_'], found, rfl, .inr ⟨rfl, rfl⟩, rest⟩

private theorem power_complete (isExponent : text = [] ∨ DecimalExponent loose behindDigit text) : ∃ trail exponent,
    text = trail ++ power exponent ∧ OptionalSeparator (behindDigit && raising exponent) trail ∧
      (∀ found ∈ exponent, ∀ {radix}, radix = .decimal ∨ radix = .legacyOctal → found.Fits radix) ∧
        powerSeparated exponent = true ∧ (text ≠ [] → exponent.isSome = true) := by
  rcases isExponent with rfl | isExponent
  · exact ⟨[], none, rfl, .inl rfl, nofun, rfl, fun nonempty => absurd rfl nonempty⟩
  · obtain ⟨trail, found, rfl, isTrail, isDigit, fits, passes⟩ := decimalExponent_complete isExponent
    refine ⟨trail, some found, rfl, ?_, ?_, passes, fun _ => rfl⟩
    · rwa [show raising (some found) = true from isDigit, Bool.and_true]
    · rintro _ ⟨⟩
      exact fits

private theorem decimalExponent_ne_nil (isExponent : DecimalExponent loose behindDigit text) : text ≠ [] := by
  cases isExponent <;> exact List.cons_ne_nil _ _

/-- A number with the mark of base sixteen and an exponent, by its runs of digits. -/
private theorem hexadecimal_complete {mark : Char} {whole exponent : List Char} {fraction : Option (List Char)}
    (isMark : mark ∈ Radix.hexadecimal.marks) (isWhole : GoodRun .hexadecimal true false whole)
    (isFraction : ∀ digits ∈ fraction, GoodRun .hexadecimal false false digits)
    (hasDigits : Number.hasDigits (whole ++ fraction.getD []) = true) (isExponent : BinaryExponent exponent)
    (imaginary : Bool) :
    ∃ pieces : Pieces, pieces.Fits ∧
      pieces.chars = '0' :: mark :: (whole ++ (fraction.elim [] ('.' :: ·) ++ exponent)) ++
        (if imaginary then ['i'] else []) ∧
      pieces.kind = if imaginary then .imaginary else .float := by
  obtain @⟨power, sign, digits, isPower, isSign, isDigits⟩ := isExponent
  have spaced : ∀ before, SpacedDigits .decimal before false digits := fun _ => spaced_digits isDigits
  have notDigit : isHexDigit power = false := by
    simp only [List.mem_cons, List.not_mem_nil, or_false] at isPower
    rcases isPower with rfl | rfl <;> rfl
  have marks : Radix.Marks ['0', mark] whole .hexadecimal := by
    simpa [Radix.marks, Radix.Marks] using isMark
  have notRaising : raising (some ⟨power, sign, digits⟩) = false := notDigit
  refine ⟨⟨⟨.hexadecimal, ['0', mark], whole, fraction⟩, some ⟨power, sign, digits⟩, imaginary⟩,
    Pieces.fits_of_runs ⟨marks, isWhole.continued, fun digits isFound =>
      (isFraction digits isFound).continued, hasDigits, ?_⟩
      ⟨?_, fun _ _ => rfl⟩ (.inl ?_) ?_ ?_ ?_, ?_, ?_⟩
  · rintro - (impossible | impossible) <;> cases impossible
  · rintro _ ⟨⟩
    exact ⟨.inr ⟨rfl, by simpa using isPower⟩, isSign, (spaced false).goodRun.continued, (spaced false).hasDigits⟩
  · refine wrongDigit?_append isWhole.right ?_
    cases fraction with
    | none => rfl
    | some digits => exact (isFraction digits rfl).right
  · rw [notRaising, Bool.and_false]
    exact isWhole.passes
  · rw [notRaising]
    cases fraction with
    | none => rfl
    | some digits => exact (isFraction digits rfl).passes
  · exact (spaced _).goodRun.passes
  · simp [Pieces.chars, Pieces.digits, Front.point, Number.power, Exponent.chars, Pieces.suffix]
  · simp [Pieces.kind, Front.kind]

private theorem float_complete (float : FloatLiteral loose text) (imaginary : Bool) : ∃ pieces : Pieces, pieces.Fits ∧
    pieces.chars = text ++ (if imaginary then ['i'] else []) ∧
    pieces.kind = if imaginary then .imaginary else .float := by
  cases float with
  | @whole digits exponent isDigits isExponent =>
    obtain ⟨trail, exponent, rfl, isTrail, fits, passes, raised⟩ := power_complete (.inr isExponent)
    have spaced : SpacedDigits .decimal false _ _ := spaced_of_digits isDigits isTrail
    have built := @plain_complete (digits ++ trail) none exponent spaced.goodRun nofun
      (by simpa using spaced.hasDigits) fits passes
      imaginary (.inr (.inr (raised (decimalExponent_ne_nil isExponent))))
    simpa using built
  | @point digits exponent isDigits isExponent =>
    obtain ⟨trail, exponent, rfl, isTrail, fits, passes, -⟩ := power_complete isExponent
    obtain rfl := isTrail.resolve_right fun ⟨impossible, _⟩ => by cases impossible
    have spaced : SpacedDigits .decimal false false digits := spaced_digits isDigits
    have built := @plain_complete digits (some []) exponent spaced.goodRun (by rintro _ ⟨⟩; exact goodRun_nil)
      (by simpa using spaced.hasDigits) fits passes imaginary (.inr (.inl rfl))
    simpa using built
  | @both digits fraction exponent isDigits isFraction isExponent =>
    obtain ⟨trail, exponent, rfl, isTrail, fits, passes, -⟩ := power_complete isExponent
    have spaced : SpacedDigits .decimal false false digits := spaced_digits isDigits
    have spacedFraction : SpacedDigits .decimal false _ _ := spaced_of_digits isFraction isTrail
    have built := @plain_complete digits (some (fraction ++ trail)) exponent spaced.goodRun
      (by rintro _ ⟨⟩; exact spacedFraction.goodRun)
        (by rw [hasDigits_append, spaced.hasDigits]; rfl) fits passes imaginary
      (.inr (.inl rfl))
    simpa using built
  | @fraction fraction exponent isFraction isExponent =>
    obtain ⟨trail, exponent, rfl, isTrail, fits, passes, -⟩ := power_complete isExponent
    have spacedFraction : SpacedDigits .decimal false _ _ := spaced_of_digits isFraction isTrail
    have built := @plain_complete [] (some (fraction ++ trail)) exponent goodRun_nil
      (by rintro _ ⟨⟩; exact spacedFraction.goodRun) spacedFraction.hasDigits fits passes imaginary (.inr (.inl rfl))
    simpa using built
  | @hexadecimal mark mantissa exponent isMark isMantissa isExponent =>
    cases isMantissa with
    | whole isDigits =>
      have spaced : SpacedDigits .hexadecimal true false mantissa := spaced_led isDigits
      have built := @hexadecimal_complete mark mantissa exponent none isMark spaced.goodRun nofun
        (by simpa using spaced.hasDigits)
        isExponent imaginary
      simpa using built
    | @point digits fraction isDigits isFraction =>
      have spaced : SpacedDigits .hexadecimal true false digits := spaced_led isDigits
      have good : GoodRun .hexadecimal false false fraction := by
        rcases isFraction with rfl | isFraction
        · exact goodRun_nil
        · exact (spaced_digits isFraction).goodRun
      have built := @hexadecimal_complete mark digits exponent (some fraction) isMark spaced.goodRun
        (by rintro _ ⟨⟩; exact good) (by rw [hasDigits_append, spaced.hasDigits]; rfl) isExponent imaginary
      simpa using built
    | @fraction fraction isFraction =>
      have spaced : SpacedDigits .hexadecimal false false fraction := spaced_digits isFraction
      have built := @hexadecimal_complete mark [] exponent (some fraction) isMark goodRun_nil
        (by rintro _ ⟨⟩; exact spaced.goodRun) spaced.hasDigits isExponent imaginary
      simpa using built

/-- Every numeral, with loose exponents or without, is spelled by pieces that fit together. -/
theorem numeral_complete {kind : LiteralKind} (numeral : Numeral loose kind text) :
    ∃ pieces : Pieces, pieces.Fits ∧ pieces.chars = text ∧ pieces.kind = kind := by
  cases numeral with
  | int integer => simpa using integer_complete integer false
  | float float => simpa using float_complete float false
  | @imaginaryDigits text digits =>
    have spaced : SpacedDigits .decimal false false text := spaced_digits digits
    have built := @plain_complete text none none spaced.goodRun nofun (by simpa using spaced.hasDigits)
      nofun rfl true (.inl rfl)
    simpa [power] using built
  | imaginaryInt integer => simpa using integer_complete integer true
  | imaginaryFloat float => simpa using float_complete float true

end

end GoPrompt.Number
