import GoPrompt.Lexical.Number

/-! String and rune literals. Between the quotes of an interpreted literal stand plain characters and
escapes; reading goes on to the closing quote after a bad escape, so that the literal is rejected as
one token. -/

namespace GoPrompt

namespace Quoted

/-- What follows a backslash. The lengths count the characters after it. -/
inductive Escape where
  | valid (length : Nat)
  | invalid (length : Nat) (cause : LexCause)
  | cutOff
  deriving DecidableEq, Repr

/-- Escapes that give a code point by its digits. -/
structure DigitEscape where
  /-- The length of the mark between the backslash and the digits. -/
  mark : Nat
  digits : Nat
  base : Nat
  largest : Nat
  deriving DecidableEq, Repr

def largestCodePoint : Nat := 0x10FFFF

def digitEscape? (c : Char) : Option DigitEscape :=
  if '0' ≤ c && c ≤ '7' then some ⟨0, 3, 8, 255⟩
  else if c = 'x' then some ⟨1, 2, 16, 255⟩
  else if c = 'u' then some ⟨1, 4, 16, largestCodePoint⟩
  else if c = 'U' then some ⟨1, 8, 16, largestCodePoint⟩
  else none

def isDigitIn (base : Nat) (c : Char) : Bool := isHexDigit c && decide (digitValue c < base)

def numeral (base : Nat) (digits : List Char) : Nat :=
  digits.foldl (fun value c => value * base + digitValue c) 0

def isSurrogate (code : Nat) : Bool := decide (0xD800 ≤ code) && decide (code < 0xE000)

/-- Reads the digits of an escape; `text` starts after its mark. -/
def DigitEscape.read (form : DigitEscape) (text : List Char) : Escape :=
  let digits := (text.take form.digits).takeWhile (isDigitIn form.base)
  if digits.length = form.digits then
    let code := numeral form.base digits
    if form.largest < code || isSurrogate code then .invalid (form.mark + form.digits) .escapeCodePoint
    else .valid (form.mark + form.digits)
  else
    match text.drop digits.length with
    | [] => .cutOff
    | c :: _ => .invalid (form.mark + digits.length) (.escapeCharacter c)

def isSimpleEscape (quote c : Char) : Bool :=
  ['a', 'b', 'f', 'n', 'r', 't', 'v', '\\'].contains c || c == quote

/-- Reads the escape whose backslash stands in front of the text. -/
def escape (quote : Char) : List Char → Escape
  | [] => .cutOff
  | c :: rest =>
    if isSimpleEscape quote c then .valid 1
    else
      match digitEscape? c with
      | some form => form.read ((c :: rest).drop form.mark)
      | none => .invalid 0 .unknownEscape

/-- How the reading of an interpreted literal ends. -/
inductive Ending where
  | closed | newline | endOfInput | cutEscape
  deriving DecidableEq, Repr

structure Body where
  length : Nat
  /-- The number of characters and escapes between the quotes. -/
  units : Nat
  flaw : Option Flaw
  ending : Ending
  deriving DecidableEq, Repr

/-- Reads on up to the closing quote. The first `skip` characters belong to an escape that is already
read, and `length` characters of the literal, `units` units and the first flaw are already known. -/
def body (quote : Char) : Nat → Nat → Nat → Option Flaw → List Char → Body
  | _, length, units, flaw, [] => ⟨length, units, flaw, .endOfInput⟩
  | skip + 1, length, units, flaw, _ :: rest => body quote skip length units flaw rest
  | 0, length, units, flaw, c :: rest =>
    if c = quote then ⟨length + 1, units, flaw, .closed⟩
    else if c = '\n' then ⟨length, units, flaw, .newline⟩
    else if c = '\\' then
      match escape quote rest with
      | .valid taken => body quote taken (length + 1 + taken) (units + 1) flaw rest
      | .invalid taken cause =>
        let flaw := flaw.or (some ⟨length, length + 1 + taken, cause⟩)
        body quote taken (length + 1 + taken) (units + 1) flaw rest
      | .cutOff => ⟨length + 1 + rest.length, units + 1, flaw, .cutEscape⟩
    else body quote 0 (length + 1) (units + 1) flaw rest

/-- Reads an interpreted literal, which starts with its opening quote. -/
def interpreted (quote : Char) (text : List Char) : Body := body quote 0 1 0 none (text.drop 1)

def doubleQuote : Char := '\x22'

def singleQuote : Char := '\x27'

def backquote : Char := '\x60'

def scanString (text : List Char) : LiteralScan :=
  let read := interpreted doubleQuote text
  let outcome :=
    match read.ending with
    | .closed => read.flaw.elim (.complete .string) .invalid
    | .newline => .invalid (read.flaw.getD ⟨0, read.length, .newlineInString⟩)
    | .endOfInput => .cutOff .string .string
    | .cutEscape => .cutOff .string .stringEscape
  ⟨read.length, outcome⟩

def scanRawString (text : List Char) : LiteralScan :=
  let inner := (text.drop 1).takeWhile (· != backquote)
  match text.drop (1 + inner.length) with
  | [] => ⟨1 + inner.length, .cutOff .string .rawString⟩
  | _ :: _ => ⟨1 + inner.length + 1, .complete .string⟩

/-- A closed rune literal holds exactly one unit. -/
def unitFlaw? (read : Body) : Option Flaw :=
  if read.units = 0 then some ⟨0, read.length, .emptyRune⟩
  else if read.units > 1 then some ⟨0, read.length, .longRune⟩
  else none

def scanRune (text : List Char) : LiteralScan :=
  let read := interpreted singleQuote text
  let outcome :=
    match read.ending with
    | .closed => (read.flaw.or (unitFlaw? read)).elim (.complete .rune) .invalid
    | .newline => .invalid (read.flaw.getD ⟨0, read.length, .newlineInRune⟩)
    | .endOfInput => .cutOff .rune .rune
    | .cutEscape => .cutOff .rune .runeEscape
  ⟨read.length, outcome⟩

end Quoted

end GoPrompt
