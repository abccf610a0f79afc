import GoPrompt.Lexical.Scan
import GoPrompt.Source.Utf8

/-! What makes a text acceptable as source: it is well-formed UTF-8, without NUL characters, and with a
byte-order mark only at its start. None of this depends on the syntax of the language. -/

namespace GoPrompt

/-- Looks for the first unacceptable character of a text that starts at `offset`. -/
def checkEncodingFrom (source offset : Nat) : List Char → Except LexFault Unit
  | [] => .ok ()
  | c :: rest =>
    let span := Span.between source (clampOffset offset) (clampOffset (offset + c.utf8Size))
    if c = '\x00' then .error (.malformed (LexCause.nul.diagnostic [] span))
    else if c = byteOrderMark ∧ 0 < offset then .error (.malformed (LexCause.byteOrderMark.diagnostic [] span))
    else checkEncodingFrom source (offset + c.utf8Size) rest

def checkEncoding (source : Nat) (text : List Char) : Except LexFault Unit := checkEncodingFrom source 0 text

/-- The text that the bytes encode. A character cut off by the end is reported up to the end. -/
def decodeSource (source : Nat) (bytes : List UInt8) : Except LexFault (List Char) :=
  match Utf8.decode bytes with
  | .ok text => .ok text
  | .error bad =>
    let stop := bad.length.elim bytes.length (bad.validLength + ·)
    let span := Span.between source (clampOffset bad.validLength) (clampOffset stop)
    .error (.malformed (LexCause.encoding.diagnostic [] span))

end GoPrompt
