/-! Decoding UTF-8 one byte at a time. A malformed text is located by the length of its well-formed
beginning, and by the length of the bytes that cannot go on: the longest beginning of a character's
encoding, or a single byte that begins none. -/

namespace GoPrompt.Utf8

/-- The first bytes of a character's encoding. -/
structure Partial where
  /-- How many bytes are read, and how many more are needed. -/
  read : Nat
  owed : Nat
  /-- The bounds of the next byte. -/
  low : Nat
  high : Nat
  /-- The bits of the code point so far. -/
  bits : Nat
  deriving DecidableEq, Repr

/-- Between two characters. -/
def Partial.empty : Partial := ⟨0, 0, 0, 0, 0⟩

/-- The encoding that a byte begins. The bounds of the second byte exclude overlong forms, surrogates
and code points beyond the last one. -/
def lead? (byte : Nat) : Option Partial :=
  if byte < 0x80 then some ⟨1, 0, 0, 0, byte⟩
  else if byte < 0xC2 then none
  else if byte < 0xE0 then some ⟨1, 1, 0x80, 0xBF, byte % 0x20⟩
  else if byte = 0xE0 then some ⟨1, 2, 0xA0, 0xBF, byte % 0x10⟩
  else if byte = 0xED then some ⟨1, 2, 0x80, 0x9F, byte % 0x10⟩
  else if byte < 0xF0 then some ⟨1, 2, 0x80, 0xBF, byte % 0x10⟩
  else if byte = 0xF0 then some ⟨1, 3, 0x90, 0xBF, byte % 8⟩
  else if byte < 0xF4 then some ⟨1, 3, 0x80, 0xBF, byte % 8⟩
  else if byte = 0xF4 then some ⟨1, 3, 0x80, 0x8F, byte % 8⟩
  else none

/-- The encoding with one more byte, if there is one. -/
def Partial.extend? (encoding : Partial) (byte : Nat) : Option Partial :=
  if encoding.owed = 0 then lead? byte
  else if encoding.low ≤ byte ∧ byte ≤ encoding.high then
    some ⟨encoding.read + 1, encoding.owed - 1, 0x80, 0xBF, encoding.bits * 0x40 + byte % 0x40⟩
  else none

/-- Where a text stops being well-formed. The length of the malformed bytes is missing when the text
ends inside a character. -/
structure Malformed where
  validLength : Nat
  length : Option Nat
  deriving DecidableEq, Repr

/-- Decodes the bytes after the already decoded characters `seen` (in reverse), which take `valid`
bytes, and the beginning of one more character. -/
def decodeAfter (seen : List Char) (valid : Nat) (encoding : Partial) : List UInt8 → Except Malformed (List Char)
  | [] => if encoding.owed = 0 then .ok seen.reverse else .error ⟨valid, none⟩
  | byte :: rest =>
    match encoding.extend? byte.toNat with
    | none => .error ⟨valid, some (max 1 encoding.read)⟩
    | some extended =>
      if extended.owed = 0 then
        decodeAfter (Char.ofNat extended.bits :: seen) (valid + extended.read) .empty rest
      else decodeAfter seen valid extended rest

def decode (bytes : List UInt8) : Except Malformed (List Char) := decodeAfter [] 0 .empty bytes

end GoPrompt.Utf8
