import GoPrompt.Lexical.Number
import GoPrompt.Proofs.Lexical.Pieces

/-! The numeric literals of the language. A wider grammar lets a separator stand next to the mark of a decimal exponent,
too: as far as that goes, the mark is taken for a digit.

The check of the separators in a number, one run of digits at a time. A run passes it if it consists of digits with
a separator between any two, and perhaps one at either end where a digit, or what is taken for one, stands beside it. -/

namespace GoPrompt

namespace Radix

/-- The digits of a base. -/
def HasDigit : Radix → Char → Prop
  | .decimal, c => '0' ≤ c ∧ c ≤ '9'
  | .legacyOctal, c | .octal, c => '0' ≤ c ∧ c ≤ '7'
  | .hexadecimal, c => '0' ≤ c ∧ c ≤ '9' ∨ 'a' ≤ c ∧ c ≤ 'f' ∨ 'A' ≤ c ∧ c ≤ 'F'
  | .binary, c => c = '0' ∨ c = '1'

/-- The letters that announce a base behind a zero. -/
def marks : Radix → List Char
  | .decimal | .legacyOctal => []
  | .hexadecimal => ['x', 'X']
  | .octal => ['o', 'O']
  | .binary => ['b', 'B']

end Radix

/-- Digits, with a separator between any two of them. -/
inductive Digits (radix : Radix) : List Char → Prop
  | single {digit : Char} (isDigit : radix.HasDigit digit) : Digits radix [digit]
  | next {digit : Char} {digits : List Char} (isDigit : radix.HasDigit digit) (later : Digits radix digits) :
      Digits radix (digit :: digits)
  | apart {digit : Char} {digits : List Char} (isDigit : radix.HasDigit digit) (later : Digits radix digits) :
      Digits radix (digit :: '_' :: digits)

/-- Digits, perhaps with a separator in front of them. -/
def LedDigits (radix : Radix) (text : List Char) : Prop :=
  Digits radix text ∨ ∃ digits, text = '_' :: digits ∧ Digits radix digits

inductive IntegerLiteral : List Char → Prop
  | zero : IntegerLiteral ['0']
  | decimal {first : Char} {rest : List Char} (isDigit : '1' ≤ first ∧ first ≤ '9')
      (digits : rest = [] ∨ LedDigits .decimal rest) : IntegerLiteral (first :: rest)
  | legacyOctal {rest : List Char} (digits : LedDigits .legacyOctal rest) : IntegerLiteral ('0' :: rest)
  | marked {radix : Radix} {mark : Char} {rest : List Char} (isMark : mark ∈ radix.marks)
      (digits : LedDigits radix rest) :
      IntegerLiteral ('0' :: mark :: rest)

/-- What may stand between the mark of an exponent and its digits. -/
def IsSign (sign : List Char) : Prop := sign = [] ∨ sign = ['+'] ∨ sign = ['-']

/-- The exponents to base ten. A loose one may have a separator behind its mark and, behind a digit, in front of it. -/
inductive DecimalExponent (loose : Bool) : Bool → List Char → Prop
  | strict {behindDigit : Bool} {mark : Char} {sign digits : List Char} (isMark : mark ∈ ['e', 'E'])
      (isSign : IsSign sign) (isDigits : Digits .decimal digits) :
      DecimalExponent loose behindDigit (mark :: (sign ++ digits))
  | behindMark {behindDigit : Bool} {mark : Char} {digits : List Char} (isLoose : loose = true)
      (isMark : mark ∈ ['e', 'E']) (isDigits : Digits .decimal digits) :
      DecimalExponent loose behindDigit (mark :: '_' :: digits)
  | beforeMark {exponent : List Char} (isLoose : loose = true) (isExponent : DecimalExponent loose false exponent) :
      DecimalExponent loose true ('_' :: exponent)

/-- The exponents to base two. -/
inductive BinaryExponent : List Char → Prop
  | mk {mark : Char} {sign digits : List Char} (isMark : mark ∈ ['p', 'P']) (isSign : IsSign sign)
      (isDigits : Digits .decimal digits) : BinaryExponent (mark :: (sign ++ digits))

/-- What stands in front of an exponent to base two, behind the mark of the base. -/
inductive HexadecimalMantissa : List Char → Prop
  | whole {digits : List Char} (isDigits : LedDigits .hexadecimal digits) : HexadecimalMantissa digits
  | point {digits fraction : List Char} (isDigits : LedDigits .hexadecimal digits)
      (isFraction : fraction = [] ∨ Digits .hexadecimal fraction) : HexadecimalMantissa (digits ++ '.' :: fraction)
  | fraction {fraction : List Char} (isFraction : Digits .hexadecimal fraction) : HexadecimalMantissa ('.' :: fraction)

/-- The floating-point literals, with loose exponents or without. -/
inductive FloatLiteral (loose : Bool) : List Char → Prop
  | whole {digits exponent : List Char} (isDigits : Digits .decimal digits)
      (isExponent : DecimalExponent loose true exponent) :
      FloatLiteral loose (digits ++ exponent)
  | point {digits exponent : List Char} (isDigits : Digits .decimal digits)
      (isExponent : exponent = [] ∨ DecimalExponent loose false exponent) :
      FloatLiteral loose (digits ++ '.' :: exponent)
  | both {digits fraction exponent : List Char} (isDigits : Digits .decimal digits)
      (isFraction : Digits .decimal fraction) (isExponent : exponent = [] ∨ DecimalExponent loose true exponent) :
      FloatLiteral loose (digits ++ '.' :: (fraction ++ exponent))
  | fraction {fraction exponent : List Char} (isFraction : Digits .decimal fraction)
      (isExponent : exponent = [] ∨ DecimalExponent loose true exponent) :
      FloatLiteral loose ('.' :: (fraction ++ exponent))
  | hexadecimal {mark : Char} {mantissa exponent : List Char} (isMark : mark ∈ Radix.hexadecimal.marks)
      (isMantissa : HexadecimalMantissa mantissa) (isExponent : BinaryExponent exponent) :
      FloatLiteral loose ('0' :: mark :: (mantissa ++ exponent))

/-- The numeric literals of a kind, with loose exponents or without. -/
inductive Numeral (loose : Bool) : LiteralKind → List Char → Prop
  | int {text : List Char} (integer : IntegerLiteral text) : Numeral loose .int text
  | float {text : List Char} (float : FloatLiteral loose text) : Numeral loose .float text
  | imaginaryDigits {text : List Char} (digits : Digits .decimal text) : Numeral loose .imaginary (text ++ ['i'])
  | imaginaryInt {text : List Char} (integer : IntegerLiteral text) : Numeral loose .imaginary (text ++ ['i'])
  | imaginaryFloat {text : List Char} (float : FloatLiteral loose text) : Numeral loose .imaginary (text ++ ['i'])

namespace Number

/-- Whether every separator stands between two characters that are taken for digits, if `before` says so of the
character in front of the text and `behind` of the one behind it. -/
def separated (before behind : Bool) : List Char → Bool
  | [] => true
  | c :: rest =>
    if c = '_' then before && rest.head?.elim behind isHexDigit && separated false behind rest
    else separated (isHexDigit c) behind rest

theorem looseSeparator?_eq_none_iff {before : Bool} {index : Nat} {text : List Char} :
    looseSeparator? before index text = none ↔ separated before false text = true := by
  induction text generalizing before index with
  | nil => simp [looseSeparator?, separated]
  | cons c rest ih =>
    have next : rest.head?.elim false isHexDigit = rest.head?.any isHexDigit := by cases rest <;> rfl
    by_cases separator : c = '_'
    · subst separator
      simp only [looseSeparator?, separated, true_and, ↓reduceIte, next, show isHexDigit '_' = false by decide]
      cases (before && rest.head?.any isHexDigit) with
      | true => simpa using ih
      | false => simp
    · simp only [looseSeparator?, separated, separator, false_and, ↓reduceIte]
      exact ih

private theorem separated_unseparated {before behind : Bool} {text : List Char} (apart : text.head? ≠ some '_') :
    separated before behind text = separated false behind text := by
  cases text with
  | nil => rfl
  | cons c rest =>
    have other : c ≠ '_' := fun same => apart (congrArg some same)
    simp only [separated, other, ↓reduceIte]

/-- A text that does not start with a separator is checked apart from what stands in front of it. -/
theorem separated_append {before behind : Bool} {first second : List Char} (apart : second.head? ≠ some '_') :
    separated before behind (first ++ second) =
      (separated before (second.head?.elim behind isHexDigit) first && separated false behind second) := by
  induction first generalizing before with
  | nil => exact (separated_unseparated apart).trans (Bool.true_and _).symm
  | cons c first ih =>
    have next : (first ++ second).head?.elim behind isHexDigit =
        first.head?.elim (second.head?.elim behind isHexDigit) isHexDigit := by cases first <;> rfl
    simp only [List.cons_append, separated, ih, next]
    split
    · rw [Bool.and_assoc, Bool.and_assoc, Bool.and_assoc]
    · rfl

def OptionalSeparator (allowed : Bool) (text : List Char) : Prop := text = [] ∨ allowed = true ∧ text = ['_']

/-- Digits with the separators that may stand at their ends. -/
def SpacedDigits (radix : Radix) (before behind : Bool) (text : List Char) : Prop :=
  ∃ lead digits trail, text = lead ++ (digits ++ trail) ∧ OptionalSeparator before lead ∧
    OptionalSeparator behind trail ∧
    Digits radix digits

end Number

theorem Radix.HasDigit.isHexDigit {radix : Radix} {c : Char} (isDigit : radix.HasDigit c) : isHexDigit c = true := by
  have decimal : ∀ {last}, last ≤ '9' → '0' ≤ c → c ≤ last → GoPrompt.isHexDigit c = true := by
    intro last small low high
    have isDigit : c.isDigit = true := by
      simp only [Char.isDigit, Bool.and_eq_true, decide_eq_true_eq]
      exact ⟨low, Char.le_trans high small⟩
    simp [GoPrompt.isHexDigit, isDigit]
  cases radix with
  | decimal => exact decimal (Char.le_refl _) isDigit.1 isDigit.2
  | legacyOctal | octal => exact decimal (by decide) isDigit.1 isDigit.2
  | binary => rcases isDigit with rfl | rfl <;> rfl
  | hexadecimal =>
    rcases isDigit with ⟨low, high⟩ | ⟨low, high⟩ | ⟨low, high⟩
    · exact decimal (Char.le_refl _) low high
    · simp [GoPrompt.isHexDigit, low, high]
    · simp [GoPrompt.isHexDigit, low, high]

theorem Radix.HasDigit.ne_separator {radix : Radix} {c : Char} (isDigit : radix.HasDigit c) : c ≠ '_' := by
  rintro rfl
  cases isDigit.isHexDigit

theorem Radix.hasDigit_zero (radix : Radix) : radix.HasDigit '0' := by cases radix <;> simp [Radix.HasDigit]

namespace Digits

variable {radix : Radix} {text : List Char}

theorem head (digits : Digits radix text) : ∃ first rest, text = first :: rest ∧ radix.HasDigit first := by
  cases digits with
  | single isDigit | next isDigit | apart isDigit => exact ⟨_, _, rfl, isDigit⟩

theorem run (digits : Digits radix text) : ∀ c ∈ text, c = '_' ∨ radix.HasDigit c := by
  induction digits with
  | single isDigit => simpa using .inr isDigit
  | next isDigit _ ih => exact List.forall_mem_cons.mpr ⟨.inr isDigit, ih⟩
  | apart isDigit _ ih => exact List.forall_mem_cons.mpr ⟨.inr isDigit, List.forall_mem_cons.mpr ⟨.inl rfl, ih⟩⟩

end Digits

namespace Number

section

variable {radix : Radix} {before behind : Bool} {text : List Char}

theorem separated_sound (run : ∀ c ∈ text, c = '_' ∨ radix.HasDigit c) (passes : separated before behind text = true) :
    text = [] ∨ before = true ∧ behind = true ∧ text = ['_'] ∨ SpacedDigits radix before behind text := by
  induction text generalizing before with
  | nil => exact .inl rfl
  | cons c rest ih =>
    obtain ⟨first, later⟩ := List.forall_mem_cons.mp run
    right
    rcases first with rfl | isDigit
    · simp only [separated, ↓reduceIte, Bool.and_eq_true] at passes
      obtain ⟨⟨rfl, next⟩, passes⟩ := passes
      rcases ih later passes with rfl | ⟨impossible, -⟩ | ⟨lead, digits, trail, rfl, isLead, isTrail, isDigits⟩
      · exact .inl ⟨rfl, next, rfl⟩
      · cases impossible
      · obtain rfl := isLead.resolve_right fun ⟨impossible, _⟩ => by cases impossible
        exact .inr ⟨['_'], digits, trail, rfl, .inr ⟨rfl, rfl⟩, isTrail, isDigits⟩
    · simp only [separated, isDigit.ne_separator, ↓reduceIte, isDigit.isHexDigit] at passes
      right
      rcases ih later passes with rfl | ⟨-, isBehind, rfl⟩ | ⟨lead, digits, trail, rfl, isLead, isTrail, isDigits⟩
      · exact ⟨[], [c], [], rfl, .inl rfl, .inl rfl, .single isDigit⟩
      · exact ⟨[], [c], ['_'], rfl, .inl rfl, .inr ⟨isBehind, rfl⟩, .single isDigit⟩
      · rcases isLead with rfl | ⟨-, rfl⟩
        · exact ⟨[], c :: digits, trail, rfl, .inl rfl, isTrail, .next isDigit isDigits⟩
        · exact ⟨[], c :: '_' :: digits, trail, rfl, .inl rfl, isTrail, .apart isDigit isDigits⟩

theorem separated_digits {trail : List Char} (isDigits : Digits radix text) (isTrail : OptionalSeparator behind trail) :
    separated before behind (text ++ trail) = true := by
  have behindDigit : separated true behind trail = true := by
    rcases isTrail with rfl | ⟨rfl, rfl⟩ <;> rfl
  induction isDigits generalizing before with
  | single isDigit =>
      simpa only [List.cons_append, List.nil_append, separated, isDigit.ne_separator, ↓reduceIte, isDigit.isHexDigit]
  | next isDigit _ ih =>
    simpa only [List.cons_append, separated, isDigit.ne_separator, ↓reduceIte, isDigit.isHexDigit] using ih
  | @apart digit digits isDigit later ih =>
    obtain ⟨first, rest, rfl, isFirst⟩ := later.head
    have passes := @ih false
    simp only [List.cons_append, separated, isDigit.ne_separator, isFirst.ne_separator, ↓reduceIte, isDigit.isHexDigit,
      isFirst.isHexDigit, Bool.true_and, List.head?_cons, Option.elim_some] at passes ⊢
    exact passes

theorem separated_complete (spaced : SpacedDigits radix before behind text) : separated before behind text = true := by
  obtain ⟨lead, digits, trail, rfl, rfl | ⟨rfl, rfl⟩, isTrail, isDigits⟩ := spaced
  · rw [List.nil_append]
    exact separated_digits isDigits isTrail
  · have later : separated false behind (digits ++ trail) = true := separated_digits isDigits isTrail
    obtain ⟨first, rest, rfl, isFirst⟩ := isDigits.head
    simp only [List.cons_append, List.nil_append, separated, ↓reduceIte, List.head?_cons,
      Option.elim_some, isFirst.isHexDigit, Bool.true_and] at later ⊢
    exact later

end

section

variable {radix : Radix} {c : Char} {digits : List Char}

theorem hasDigit_decimal : Radix.decimal.HasDigit c ↔ c.isDigit = true := by
  simp [Char.isDigit, Radix.HasDigit, Char.le_def]

private theorem digitValue_of_isDigit (isDigit : c.isDigit = true) : digitValue c = c.toNat - 48 := if_pos isDigit

/-- A character that a number goes on with is a separator or a digit, unless it is too large. -/
theorem hasDigit_of_continues (continued : continues radix c = true) (small : c = '_' ∨ digitValue c < radix.base) :
    c = '_' ∨ radix.HasDigit c := by
  by_cases separator : c = '_'
  · exact .inl separator
  right
  have small := small.resolve_left separator
  by_cases isDigit : c.isDigit = true
  · rw [digitValue_of_isDigit isDigit] at small
    obtain ⟨low, high⟩ := isDigit_iff_toNat.mp isDigit
    cases radix with
    | decimal => exact hasDigit_decimal.mpr isDigit
    | hexadecimal => exact .inl (hasDigit_decimal.mpr isDigit)
    | legacyOctal | octal =>
      simp only [Radix.base] at small
      exact ⟨le_iff_toNat.mpr low, le_iff_toNat.mpr (show c.toNat ≤ 55 by omega)⟩
    | binary =>
      simp only [Radix.base] at small
      have code : c.toNat = 48 ∨ c.toNat = 49 := by omega
      exact code.imp (fun zero => Char.ext (UInt32.toNat_inj.mp zero)) fun one => Char.ext (UInt32.toNat_inj.mp one)
  · cases radix with
    | hexadecimal =>
      right
      simpa [continues, Radix.base, separator, isHexDigit, isDigit] using continued
    | decimal | legacyOctal | octal | binary => simp [continues, Radix.base, separator, isDigit] at continued

theorem continues_of_hasDigit (isDigit : radix.HasDigit c) : continues radix c = true ∧ digitValue c < radix.base := by
  have decimal : ∀ {last : Char}, last ≤ '9' → '0' ≤ c → c ≤ last →
      c.isDigit = true ∧ digitValue c = c.toNat - 48 ∧ c.toNat ≤ last.toNat := by
    intro last small low high
    have isDigit : c.isDigit = true := hasDigit_decimal.mp ⟨low, Char.le_trans high small⟩
    exact ⟨isDigit, digitValue_of_isDigit isDigit, le_iff_toNat.mp high⟩
  cases radix with
  | decimal =>
    obtain ⟨isDigit, value, high⟩ := decimal (Char.le_refl _) isDigit.1 isDigit.2
    have : c.toNat ≤ 57 := high
    exact ⟨continues_digit isDigit, by rw [value, Radix.base]; omega⟩
  | legacyOctal | octal =>
    obtain ⟨isDigit, value, high⟩ := decimal (by decide) isDigit.1 isDigit.2
    have : c.toNat ≤ 55 := high
    exact ⟨continues_digit isDigit, by rw [value, Radix.base]; omega⟩
  | binary => rcases isDigit with rfl | rfl <;> decide
  | hexadecimal =>
    refine ⟨by simp [continues, Radix.base, isDigit.isHexDigit], ?_⟩
    by_cases isDecimal : c.isDigit = true
    · have := (isDigit_iff_toNat.mp isDecimal).2
      rw [digitValue_of_isDigit isDecimal, Radix.base]
      omega
    · rcases isDigit with digit | ⟨low, high⟩ | ⟨low, high⟩
      · exact absurd (hasDigit_decimal.mp digit) isDecimal
      · have code : c.toNat ≤ 102 := le_iff_toNat.mp high
        simp only [digitValue, isDecimal, low, high, decide_true, Bool.and_self, ↓reduceIte,
          Bool.false_eq_true, Radix.base]
        show c.toNat - 97 + 10 < 16
        omega
      · have code : c.toNat ≤ 70 := le_iff_toNat.mp high
        have notLower : ¬ 'a' ≤ c := fun lower => by
          have : 97 ≤ c.toNat := le_iff_toNat.mp lower
          omega
        simp only [digitValue, isDecimal, notLower, low, high, decide_true, decide_false, Bool.and_self, Bool.false_and,
          ↓reduceIte, Bool.false_eq_true, Radix.base]
        show c.toNat - 65 + 10 < 16
        omega

end

end Number

end GoPrompt
