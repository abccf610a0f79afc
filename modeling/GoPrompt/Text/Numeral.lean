/-! Numbers as they are typed and shown. Typed numbers are decimal and have at most 64 bits; shown numbers
may be padded with zeros. -/

namespace GoPrompt.Text

/-- Counts have 64 bits; this is the largest one. -/
def maxCount : Nat := 0xFFFFFFFFFFFFFFFF

def decimalValue (digits : List Char) : Nat :=
  digits.foldl (fun value c => value * 10 + (c.toNat - '0'.toNat)) 0

/-- The number that a text writes: decimal digits behind an optional plus sign. -/
def count? (text : List Char) : Option Nat :=
  let digits :=
    match text with
    | '+' :: rest => rest
    | _ => text
  if !digits.isEmpty && digits.all Char.isDigit && decide (decimalValue digits ≤ maxCount) then
    some (decimalValue digits)
  else none

/-- A numeral with as many zeros in front as it takes to reach the width. -/
def zeroPadded (width : Nat) (digits : List Char) : String :=
  String.ofList (List.replicate (width - digits.length) '0' ++ digits)

/-- A number with at least three digits. -/
def threeDigits (value : Nat) : String := zeroPadded 3 (Nat.toDigits 10 value)

/-- The digits of a number in hexadecimal, in lower case. -/
def hexadecimal (width value : Nat) : String := zeroPadded width (Nat.toDigits 16 value)

def upperHexadecimal (width value : Nat) : String := zeroPadded width ((Nat.toDigits 16 value).map Char.toUpper)

end GoPrompt.Text
