import GoPrompt.Proofs.Lexical.Literals
import GoPrompt.Proofs.Lexical.Reads

/-! The numeric literals that the lexer reads are those of the language, but for separators beside the mark of a decimal
exponent, which it accepts as well. -/

namespace GoPrompt

def LiteralKind.IsNumeric (kind : LiteralKind) : Prop := kind = .int ∨ kind = .float ∨ kind = .imaginary

/-- Whether a separator stands beside a letter that may mark a decimal exponent. -/
def BesideMark (text : List Char) : Prop := ∃ mark ∈ ['e', 'E'], ['_', mark] <:+: text ∨ [mark, '_'] <:+: text

section

variable {kind : LiteralKind} {text : List Char} {behindDigit loose : Bool}

private theorem BesideMark.append_right (beside : BesideMark text) (front : List Char) :
    BesideMark (front ++ text) := by
  obtain ⟨mark, isMark, there⟩ := beside
  exact ⟨mark, isMark,
    there.imp (·.trans (List.suffix_append front text).isInfix) (·.trans (List.suffix_append front text).isInfix)⟩

theorem BesideMark.append_left (beside : BesideMark text) (back : List Char) : BesideMark (text ++ back) := by
  obtain ⟨mark, isMark, there⟩ := beside
  exact ⟨mark, isMark,
    there.imp (·.trans (List.prefix_append text back).isInfix) (·.trans (List.prefix_append text back).isInfix)⟩

private theorem DecimalExponent.strict_or (isExponent : DecimalExponent loose behindDigit text) :
    DecimalExponent false behindDigit text ∨ BesideMark text := by
  induction isExponent with
  | strict isMark isSign isDigits => exact .inl (.strict isMark isSign isDigits)
  | @behindMark behindDigit mark digits _ isMark _ =>
    exact .inr ⟨mark, isMark, .inr (List.prefix_append [mark, '_'] digits).isInfix⟩
  | beforeMark _ isExponent _ =>
    right
    cases isExponent with
    | @strict _ mark sign digits isMark => exact ⟨mark, isMark, .inl (List.prefix_append ['_', mark] _).isInfix⟩
    | @behindMark _ mark digits _ isMark => exact ⟨mark, isMark, .inl (List.prefix_append ['_', mark] _).isInfix⟩

private theorem FloatLiteral.strict_or (float : FloatLiteral loose text) :
    FloatLiteral false text ∨ BesideMark text := by
  have optional : ∀ {exponent : List Char} {behindDigit}, exponent = [] ∨ DecimalExponent loose behindDigit exponent →
      (exponent = [] ∨ DecimalExponent false behindDigit exponent) ∨ BesideMark exponent := by
    rintro exponent behindDigit (rfl | isExponent)
    · exact .inl (.inl rfl)
    · exact isExponent.strict_or.imp_left .inr
  cases float with
  | @whole digits _ isDigits isExponent =>
    exact isExponent.strict_or.imp (.whole isDigits) (·.append_right digits)
  | @point digits exponent isDigits isExponent =>
    exact (optional isExponent).imp (.point isDigits) fun beside => (beside.append_right ['.']).append_right digits
  | @both digits fraction exponent isDigits isFraction isExponent =>
    exact (optional isExponent).imp (.both isDigits isFraction) fun beside =>
      (beside.append_right ('.' :: fraction)).append_right digits
  | @fraction fraction exponent isFraction isExponent =>
    exact (optional isExponent).imp (.fraction isFraction) (·.append_right ('.' :: fraction))
  | hexadecimal isMark isMantissa isExponent => exact .inl (.hexadecimal isMark isMantissa isExponent)

private theorem Numeral.strict_or (numeral : Numeral loose kind text) : Numeral false kind text ∨ BesideMark text := by
  cases numeral with
  | int integer => exact .inl (.int integer)
  | float float => exact float.strict_or.imp_left .float
  | imaginaryDigits digits => exact .inl (.imaginaryDigits digits)
  | imaginaryInt integer => exact .inl (.imaginaryInt integer)
  | imaginaryFloat float => exact float.strict_or.imp .imaginaryFloat (·.append_left ['i'])

end

theorem scan_complete_iff {text : List Char} {kind : LiteralKind} {length : Nat} :
    (Number.scan text).toTokenScan = ⟨length, .whole (.literal kind)⟩ ↔ Number.read text = .ok (kind, length) := by
  unfold Number.scan
  cases Number.read text with
  | ok value => simp [LiteralScan.toTokenScan, Prod.ext_iff, and_comm]
  | error fault =>
    refine ⟨fun scanned => ?_, fun read => by cases read⟩
    dsimp only at scanned
    split at scanned <;> cases scanned

/-- Whether the scan, if it is whole, is of the kind. -/
def LiteralScan.Only (kind : LiteralKind) (scan : LiteralScan) : Prop :=
  ∀ found, scan.outcome = .complete found → found = kind

private theorem Quoted.Reader.scan_only (reader : Reader) (text : List Char) : (reader.scan text).Only reader.kind := by
  intro found complete
  have judges := reader.judges (interpreted reader.quote text)
  rw [show reader.outcome _ = _ from complete] at judges
  cases judges
  rfl

theorem Quoted.scanRawString_only (text : List Char) : (Quoted.scanRawString text).Only .string := by
  intro found complete
  unfold scanRawString at complete
  dsimp only at complete
  split at complete <;> cases complete
  rfl

theorem LiteralScan.toTokenScan_whole {scan : LiteralScan} {length : Nat} {found : TokenKind}
    (whole : scan.toTokenScan = ⟨length, .whole found⟩) :
    ∃ kind, found = .literal kind ∧ scan.outcome = .complete kind ∧ scan.length = length := by
  obtain ⟨size, outcome⟩ := scan
  cases outcome <;> cases whole
  exact ⟨_, rfl, rfl, rfl⟩

theorem LiteralScan.Only.kind {scan : LiteralScan} {only kind : LiteralKind} {length : Nat} (outcomes : scan.Only only)
    (scanned : scan.toTokenScan = ⟨length, .whole (.literal kind)⟩) : kind = only := by
  obtain ⟨_, ⟨⟩, complete, -⟩ := toTokenScan_whole scanned
  exact outcomes kind complete

theorem TokenSort.literal_of_whole {sort : TokenSort} {first : Char} {rest : List Char} {kind : LiteralKind}
    {length : Nat} (scanned : sort.scan first rest = ⟨length, .whole (.literal kind)⟩) :
    ∃ how, sort = .literal how := by
  cases sort with
  | name =>
    have named : nameKind (first :: rest.takeWhile continuesName) = .literal kind :=
      TokenShape.whole.inj (congrArg TokenScan.shape scanned)
    unfold nameKind at named
    cases found : Keyword.ofLexeme? (String.ofList (first :: rest.takeWhile continuesName)) <;> rw [found] at named <;>
      cases named
  | literal how => exact ⟨how, rfl⟩
  | semicolon => cases scanned
  | operator =>
    simp only [scan] at scanned
    split at scanned <;> cases scanned

private theorem scanToken_numeric {first : Char} {rest : List Char} {kind : LiteralKind} {length : Nat}
    (isNumeric : kind.IsNumeric) (scanned : scanToken first rest = ⟨length, .whole (.literal kind)⟩) :
    Number.read (first :: rest) = .ok (kind, length) := by
  have notQuoted : kind ≠ .string ∧ kind ≠ .rune := by
    rcases isNumeric with rfl | rfl | rfl <;> exact ⟨nofun, nofun⟩
  rw [scanToken_eq] at scanned
  obtain ⟨sort, isLiteral⟩ := TokenSort.literal_of_whole scanned
  rw [isLiteral] at scanned
  cases sort with
  | number => exact scan_complete_iff.mp scanned
  | interpreted =>
    rw [TokenSort.scan, LiteralSort.scan, Quoted.scanString_eq] at scanned
    exact absurd ((Quoted.Reader.string.scan_only _).kind scanned) notQuoted.1
  | raw => exact absurd ((Quoted.scanRawString_only _).kind scanned) notQuoted.1
  | rune => exact absurd ((Quoted.Reader.rune.scan_only _).kind scanned) notQuoted.2

section

variable {kind : LiteralKind} {text : List Char} {loose : Bool}

/-- Whether a number starts here: with a digit, or with a point and a digit behind it. -/
def StartsNumber (text : List Char) : Prop := ∃ first rest, text = first :: rest ∧ startsNumber first rest = true

private theorem startsNumber_of_digit {first : Char} {rest : List Char} (isDigit : first.isDigit = true) :
    StartsNumber (first :: rest) :=
  ⟨first, rest, rfl, by simp [startsNumber, isDigit]⟩

theorem Digits.startsNumber {digits : List Char} (isDigits : Digits .decimal digits) (more : List Char) :
    StartsNumber (digits ++ more) := by
  obtain ⟨first, rest, rfl, isDigit⟩ := isDigits.head
  exact startsNumber_of_digit (Number.hasDigit_decimal.mp isDigit)

theorem IntegerLiteral.startsNumber (integer : IntegerLiteral text) (more : List Char) :
    StartsNumber (text ++ more) := by
  cases integer with
  | decimal isDigit =>
    exact startsNumber_of_digit (Number.hasDigit_decimal.mp ⟨Char.le_trans (by decide) isDigit.1, isDigit.2⟩)
  | zero | legacyOctal | marked => exact startsNumber_of_digit (by decide)

theorem FloatLiteral.startsNumber (float : FloatLiteral loose text) (more : List Char) :
    StartsNumber (text ++ more) := by
  cases float with
  | whole isDigits | point isDigits | both isDigits =>
    rw [List.append_assoc]
    exact isDigits.startsNumber _
  | fraction isFraction =>
    obtain ⟨first, rest, rfl, isDigit⟩ := isFraction.head
    exact ⟨'.', _, rfl, by simp [GoPrompt.startsNumber, Number.hasDigit_decimal.mp isDigit]⟩
  | hexadecimal => exact startsNumber_of_digit (by decide)

theorem Numeral.startsNumber (numeral : Numeral loose kind text) (more : List Char) : StartsNumber (text ++ more) := by
  cases numeral with
  | int integer => exact integer.startsNumber more
  | float float => exact float.startsNumber more
  | imaginaryDigits digits =>
    rw [List.append_assoc]
    exact digits.startsNumber _
  | imaginaryInt integer =>
    rw [List.append_assoc]
    exact integer.startsNumber _
  | imaginaryFloat float =>
    rw [List.append_assoc]
    exact float.startsNumber _

private theorem startsNumber_plain {first : Char} {rest : List Char} (starts : GoPrompt.startsNumber first rest = true) :
    isNameStart first = false ∧ first ≠ '\x00' ∧ first ≠ byteOrderMark ∧ first ≠ '\n' ∧ first ≠ '/' ∧
      isHorizontalBlank first = false := by
  simp only [GoPrompt.startsNumber, Bool.or_eq_true, Bool.and_eq_true, beq_iff_eq] at starts
  rcases starts with isDigit | ⟨rfl, -⟩
  · obtain ⟨low, high⟩ := Number.isDigit_iff_toNat.mp isDigit
    exact @char_of_code 58 (fun first => 48 ≤ first.toNat → isNameStart first = false ∧
      first ≠ '\x00' ∧ first ≠ byteOrderMark ∧
      first ≠ '\n' ∧ first ≠ '/' ∧ isHorizontalBlank first = false) (by decide) first (by omega) low
  · decide

end

namespace Lexer

variable {lexer after : Lexer} {token : Token} {kind : LiteralKind} {text more : List Char} {loose : Bool}

private theorem numeral_of_next (answered : lexer.next = (.ok (.token token), after))
    (isLiteral : token.kind = .literal kind) (isNumeric : kind.IsNumeric) :
    ∃ text, token.lexeme = String.ofList text ∧ Numeral true kind text := by
  have reads := Reads.of_next answered
  generalize isStep : LexStep.token token = step at reads
  cases reads with
  | @whole stop first rest length found skipped here scanned =>
    cases isStep
    obtain rfl := show found = .literal kind from isLiteral
    obtain ⟨pieces, behind, parts, fits, rfl, rfl⟩ := Number.read_sound (scanToken_numeric isNumeric scanned)
    refine ⟨pieces.chars, ?_, fits.numeral⟩
    show String.ofList ((lexer.rest.drop stop).take pieces.chars.length) = _
    rw [here, parts, List.take_left]
  | lineEnd | inserted =>
    cases isStep
    cases isLiteral
  | cutOff | invalid | openComment | ended => cases isStep

/-- A numeral is read as one token, wherever no letter, digit, separator or point follows. -/
private theorem next_of_numeral (numeral : Numeral loose kind text) (ends : Number.Ends more)
    (here : lexer.rest = text ++ more) (fits : lexer.offset + byteSize text ≤ maxOffset) : lexer.next =
      (.ok (.token ⟨.literal kind, String.ofList text, Span.ofLength lexer.source lexer.offset (byteSize text)⟩),
        (lexer.skip text.length).arm true) := by
  obtain ⟨first, rest, splits, starts⟩ := numeral.startsNumber more
  obtain ⟨notName, notNul, notMark, notNewline, notSlash, notBlank⟩ := startsNumber_plain starts
  obtain ⟨pieces, good, rfl, rfl⟩ := Number.numeral_complete numeral
  have scanned : scanToken first rest = ⟨pieces.chars.length, .whole (.literal pieces.kind)⟩ := by
    rw [scanToken]
    simp only [notName, starts, ↓reduceIte, Bool.false_eq_true]
    rw [← splits]
    exact scan_complete_iff.mpr (Number.read_complete good ends)
  have skipped : gap lexer.armed 0 0 lexer.rest = (0, .token first) := by
    rw [here, splits]
    exact (Gap.Halts.of_ne_slash notBlank notNewline notSlash rest).gap 0
  have reads := Reads.whole skipped (by rw [here, splits]; rfl) scanned
  have stays : lexer.skip 0 = lexer := by simp [skip]
  have ahead : lexer.rest.take pieces.chars.length = pieces.chars := by rw [here, List.take_left]
  rw [stays] at reads
  have moved : ((lexer.skip pieces.chars.length).arm true).offset = lexer.offset + byteSize pieces.chars := by
    rw [← ahead]
    simp [skip, arm, here]
  have answered := reads.next_of_allowed (fun skipped' => by
    cases skipped.symm.trans skipped'
    exact ⟨notNul, notMark⟩) (show (((lexer.skip pieces.chars.length).arm true).offset ≤ maxOffset) by omega)
  rw [answered]
  simp only [Lexer.token, Lexer.span, ahead]
  rfl

/-- The numeric literals of the lexer: what it reads as one is a numeral of the language, unless a separator stands
beside the mark of the exponent, and it reads every numeral of the language as one. -/
theorem next_numeral (lexer : Lexer) :
    (∀ token after kind, lexer.next = (.ok (.token token), after) → token.kind = .literal kind → kind.IsNumeric →
      ∃ text, token.lexeme = String.ofList text ∧ Numeral true kind text ∧
        (¬ BesideMark text → Numeral false kind text)) ∧
      ∀ loose kind text more, Numeral loose kind text → Number.Ends more → lexer.rest = text ++ more →
        lexer.offset + byteSize text ≤ maxOffset → lexer.next =
          (.ok (.token ⟨.literal kind, String.ofList text, Span.ofLength lexer.source lexer.offset (byteSize text)⟩),
            (lexer.skip text.length).arm true) := by
  refine ⟨fun token after kind answered isLiteral isNumeric => ?_, fun _ _ _ _ => next_of_numeral⟩
  obtain ⟨text, lexeme, numeral⟩ := numeral_of_next answered isLiteral isNumeric
  exact ⟨text, lexeme, numeral, numeral.strict_or.resolve_right⟩

/-- Digits behind a leading zero are decimal ones in front of a point. -/
theorem next_numeral_float : Numeral false .float "08.5".toList ∧ Number.Ends "+x".toList ∧
    (ofText 0 "08.5+x".toList).next =
      (.ok (.token ⟨.literal .float, "08.5", Span.ofLength 0 0 4⟩), ((ofText 0 "08.5+x".toList).skip 4).arm true) ∧
    ∃ text, "08.5" = String.ofList text ∧ Numeral true .float text ∧
    (¬ BesideMark text → Numeral false .float text) := by
  have isDigit : ∀ c ∈ ['0', '8', '5'], Radix.decimal.HasDigit c := by simp [Radix.HasDigit]
  have numeral : Numeral false .float "08.5".toList :=
    .float (@FloatLiteral.both false ['0', '8'] ['5'] []
      (.next (isDigit '0' (by simp)) (.single (isDigit '8' (by simp))))
      (.single (isDigit '5' (by simp))) (.inl rfl))
  have ends : Number.Ends "+x".toList := by
    rintro c ⟨⟩
    decide
  have answered := (next_numeral (ofText 0 "08.5+x".toList)).2 _ _ _ _ numeral ends rfl (by decide)
  exact ⟨numeral, ends, answered, (next_numeral (ofText 0 "08.5+x".toList)).1 _ _ _ answered rfl (.inr (.inl rfl))⟩

/-- A separator in front of the mark of an exponent is accepted, although it separates no digits. -/
theorem next_looseExponent :
    (ofText 0 "1_e5".toList).next.1 = .ok (.token ⟨.literal .float, "1_e5", Span.ofLength 0 0 4⟩) ∧
    ¬ Numeral false .float "1_e5".toList := by
  have one : Radix.decimal.HasDigit '1' := by simp [Radix.HasDigit]
  have five : Radix.decimal.HasDigit '5' := by simp [Radix.HasDigit]
  constructor
  · have exponent : DecimalExponent true true ['_', 'e', '5'] :=
      .beforeMark rfl (.strict (by simp) (.inl rfl) (.single five))
    have loose : Numeral true .float "1_e5".toList := .float (.whole (.single one) exponent)
    exact congrArg Prod.fst (@next_of_numeral (ofText 0 "1_e5".toList) .float "1_e5".toList [] true loose
      (fun _ there => by cases there) rfl (by decide))
  · generalize isText : "1_e5".toList = text
    rintro (_ | float)
    cases float with
    | point | both | fraction =>
      have point := congrArg ('.' ∈ ·) isText
      simp at point
    | hexadecimal => cases isText
    | @whole digits exponent isDigits isExponent =>
      obtain ⟨mark, rest, rfl, isMark⟩ : ∃ mark rest, exponent = mark :: rest ∧ mark ∈ ['e', 'E'] := by
        cases isExponent with
        | strict isMark => exact ⟨_, _, rfl, isMark⟩
        | behindMark isLoose | beforeMark isLoose => cases isLoose
      have parts : digits ++ mark :: rest = ['1', '_', 'e', '5'] := isText.symm
      -- The digits would end in front of the separator, or the exponent would start behind it.
      cases isDigits with
      | single =>
        obtain ⟨-, same⟩ := List.cons.inj parts
        obtain ⟨rfl, -⟩ := List.cons.inj same
        revert isMark
        decide
      | next _ later =>
        obtain ⟨first, digits, rfl, isDigit⟩ := later.head
        obtain ⟨-, same⟩ := List.cons.inj parts
        exact isDigit.ne_separator (List.cons.inj same).1
      | apart _ later =>
        obtain ⟨first, digits, rfl, isDigit⟩ := later.head
        obtain ⟨-, same⟩ := List.cons.inj parts
        obtain ⟨-, same⟩ := List.cons.inj same
        obtain ⟨rfl, -⟩ := List.cons.inj same
        exact absurd isDigit.2 (by decide)

end Lexer

end GoPrompt
