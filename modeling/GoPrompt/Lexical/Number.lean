import GoPrompt.Lexical.Literal

/-! Integer, floating-point and imaginary literals. A number takes as many characters as look like a
number at all, and only then are its digits and separators judged, so that a misplaced digit makes
the whole number invalid instead of splitting it in two. -/

namespace GoPrompt

/-- The value of a hexadecimal digit; zero for other characters. -/
def digitValue (c : Char) : Nat :=
  if c.isDigit then c.toNat - '0'.toNat
  else if 'a' ≤ c && c ≤ 'f' then c.toNat - 'a'.toNat + 10
  else if 'A' ≤ c && c ≤ 'F' then c.toNat - 'A'.toNat + 10
  else 0

def isHexDigit (c : Char) : Bool := c.isDigit || ('a' ≤ c && c ≤ 'f') || ('A' ≤ c && c ≤ 'F')

namespace Number

/-- The characters that a number of this base goes on with: a decimal digit continues every number, so
that `0b12` is one bad number. -/
def continues (radix : Radix) (c : Char) : Bool :=
  c == '_' || if radix.base ≤ 10 then c.isDigit else isHexDigit c

def run (radix : Radix) (text : List Char) : List Char := text.takeWhile (continues radix)

def hasDigits (digits : List Char) : Bool := digits.any (· != '_')

/-- The first digit that is too large for the base. -/
def wrongDigit? (radix : Radix) (digits : List Char) : Option Char :=
  digits.find? fun c => c != '_' && decide (radix.base ≤ digitValue c)

/-- The base of a number and the length of the mark that announces it. -/
def announced : List Char → Radix × Nat
  | '0' :: 'x' :: _ | '0' :: 'X' :: _ => (.hexadecimal, 2)
  | '0' :: 'o' :: _ | '0' :: 'O' :: _ => (.octal, 2)
  | '0' :: 'b' :: _ | '0' :: 'B' :: _ => (.binary, 2)
  | '0' :: _ => (.legacyOctal, 0)
  | _ => (.decimal, 0)

/-- A number that cannot stand as it is. If it reaches the end of the input, a reparable one may still
become a number of the given kind. -/
structure Fault where
  length : Nat
  kind : LiteralKind
  cause : NumberCause
  reparable : Bool
  deriving DecidableEq, Repr

/-- A number up to its exponent. -/
structure Mantissa where
  radix : Radix
  digits : List Char
  hasPoint : Bool
  length : Nat
  deriving DecidableEq, Repr

def Mantissa.kind (mantissa : Mantissa) : LiteralKind := if mantissa.hasPoint then .float else .int

def mantissa (text : List Char) : Except Fault Mantissa := do
  let (radix, mark) := announced text
  let whole := run radix (text.drop mark)
  let length := mark + whole.length
  let read : Mantissa ←
    match text.drop length with
    | '.' :: rest =>
      if radix = .octal ∨ radix = .binary then .error ⟨length + 1, .float, .radixPoint radix, false⟩
      else
        let fraction := run radix rest
        .ok ⟨radix, whole ++ fraction, true, length + 1 + fraction.length⟩
    | _ => .ok ⟨radix, whole, false, length⟩
  if hasDigits read.digits then .ok read else .error ⟨read.length, read.kind, .noDigits radix, true⟩

def signLength : List Char → Nat
  | '+' :: _ | '-' :: _ => 1
  | _ => 0

/-- The exponent's digits after its mark, which takes the number to `length` characters. -/
def exponentDigits (text : List Char) (length : Nat) : Except Fault (LiteralKind × Nat) :=
  let sign := signLength (text.drop length)
  let digits := run .decimal (text.drop (length + sign))
  let length := length + sign + digits.length
  if hasDigits digits then .ok (.float, length) else .error ⟨length, .float, .noExponentDigits, true⟩

/-- The kind and length of a number after its exponent, if it has one. -/
def exponent (text : List Char) (mantissa : Mantissa) : Except Fault (LiteralKind × Nat) :=
  match text.drop mantissa.length with
  | 'e' :: _ | 'E' :: _ =>
    if mantissa.radix = .decimal ∨ mantissa.radix = .legacyOctal then exponentDigits text (mantissa.length + 1)
    else .error ⟨mantissa.length + 1, mantissa.kind, .decimalExponent, false⟩
  | 'p' :: _ | 'P' :: _ =>
    if mantissa.radix = .hexadecimal then exponentDigits text (mantissa.length + 1)
    else .error ⟨mantissa.length + 1, mantissa.kind, .binaryExponent, false⟩
  | _ =>
    if mantissa.radix = .hexadecimal ∧ mantissa.hasPoint then
      .error ⟨mantissa.length, .float, .noBinaryExponent, true⟩
    else .ok (mantissa.kind, mantissa.length)

/-- The index of the first separator that does not stand between two hexadecimal digits, where `after`
says whether one may stand at the first character, which has the given index. -/
def looseSeparator? (after : Bool) (index : Nat) : List Char → Option Nat
  | [] => none
  | c :: rest =>
    if c = '_' ∧ !(after && rest.head?.any isHexDigit) then some index
    else looseSeparator? (isHexDigit c) (index + 1) rest

/-- A separator may follow the mark of the base. -/
def misplacedSeparator? (mark : Nat) (number : List Char) : Option Nat :=
  looseSeparator? (mark != 0) mark (number.drop mark)

/-- The kind and length of the number that the text starts with. -/
def read (text : List Char) : Except Fault (LiteralKind × Nat) := do
  let mantissa ← mantissa text
  let (kind, length) ← exponent text mantissa
  let (kind, length) :=
    match text.drop length with
    | 'i' :: _ => (LiteralKind.imaginary, length + 1)
    | _ => (kind, length)
  match wrongDigit? mantissa.radix mantissa.digits with
  | some digit =>
    if mantissa.radix ≠ .legacyOctal then .error ⟨length, kind, .digit digit mantissa.radix, false⟩
    -- Decimal digits may follow a leading zero in a float, so `08` may still become `08.5`.
    else if kind = .int then .error ⟨length, kind, .digit digit mantissa.radix, true⟩
  | none => pure ()
  match misplacedSeparator? (announced text).2 (text.take length) with
  | some index => .error ⟨length, kind, .separator, index + 1 == length⟩
  | none => .ok (kind, length)

/-- Reads the number that the text starts with: its first character is a decimal digit, or a point in
front of one. -/
def scan (text : List Char) : LiteralScan :=
  match read text with
  | .ok (kind, length) => ⟨length, .complete kind⟩
  | .error fault =>
    if fault.reparable && (text.drop fault.length).isEmpty then
      ⟨fault.length, .cutOff fault.kind (.number fault.cause)⟩
    else ⟨fault.length, .invalid ⟨0, fault.length, .number fault.cause⟩⟩

end Number

end GoPrompt
