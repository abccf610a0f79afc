import GoPrompt.Lexical.Diagnostic
import GoPrompt.Text.Character

/-! The causes behind lexical diagnostics, each with its code and wording. -/

namespace GoPrompt

/-- The base of a number, as its first characters announce it. A leading zero announces base eight, but
only for integers. -/
inductive Radix where
  | decimal | legacyOctal | hexadecimal | octal | binary
  deriving DecidableEq, Repr

namespace Radix

def base : Radix → Nat
  | decimal => 10
  | legacyOctal | octal => 8
  | hexadecimal => 16
  | binary => 2

def literalName : Radix → String
  | decimal => "decimal literal"
  | legacyOctal | octal => "octal literal"
  | hexadecimal => "hexadecimal literal"
  | binary => "binary literal"

end Radix

inductive NumberCause where
  | noDigits (radix : Radix)
  | radixPoint (radix : Radix)
  | decimalExponent
  | binaryExponent
  | noExponentDigits
  | noBinaryExponent
  | digit (digit : Char) (radix : Radix)
  | separator
  deriving DecidableEq, Repr

namespace NumberCause

def code : NumberCause → DiagnosticCode
  | noDigits _ | radixPoint _ | decimalExponent | binaryExponent | noExponentDigits | noBinaryExponent =>
    .malformedNumber
  | digit .. => .invalidDigit
  | separator => .misplacedSeparator

def message : NumberCause → String
  | noDigits radix => radix.literalName ++ " has no digits"
  | radixPoint radix => "invalid radix point in " ++ radix.literalName
  | decimalExponent => "'e' exponent requires decimal mantissa"
  | binaryExponent => "'p' exponent requires hexadecimal mantissa"
  | noExponentDigits => "exponent has no digits"
  | noBinaryExponent => "hexadecimal mantissa requires a 'p' exponent"
  | digit wrong radix => "invalid digit " ++ Text.quoted wrong ++ " in " ++ radix.literalName
  | separator => "'_' must separate successive digits"

end NumberCause

/-- Why a piece of text can never become a token, or a text never be scanned. -/
inductive LexCause where
  | number (cause : NumberCause)
  | unknownEscape
  | escapeCharacter (c : Char)
  | escapeCodePoint
  | newlineInString
  | newlineInRune
  | emptyRune
  | longRune
  | character (c : Char)
  | nul
  | byteOrderMark
  | encoding
  | cutoffBeforeEnd
  | offsetRange
  deriving DecidableEq, Repr

namespace LexCause

def code : LexCause → DiagnosticCode
  | number cause => cause.code
  | unknownEscape | escapeCharacter _ | escapeCodePoint => .invalidEscape
  | newlineInString => .newlineInString
  | newlineInRune => .newlineInRune
  | emptyRune => .emptyRune
  | longRune => .runeTooLong
  | character _ => .invalidCharacter
  | nul => .nulCharacter
  | byteOrderMark => .misplacedByteOrderMark
  | encoding => .invalidEncoding
  | cutoffBeforeEnd | offsetRange => .internalInvariant

def message : LexCause → String
  | number cause => cause.message
  | unknownEscape => "unknown escape sequence"
  | escapeCharacter c => "illegal character " ++ Text.quoted c ++ " in escape sequence"
  | escapeCodePoint => "escape sequence is invalid Unicode code point"
  | newlineInString => "newline in string"
  | newlineInRune => "newline in rune literal"
  | emptyRune => "empty rune literal or unescaped ' in rune literal"
  | longRune => "more than one character in rune literal"
  | character c => "invalid character U+" ++ Text.upperHexadecimal 4 c.toNat ++ " " ++ Text.quoted c
  | nul => "invalid NUL character"
  | byteOrderMark => "invalid BOM in the middle of the input"
  | encoding => "invalid UTF-8 encoding"
  | cutoffBeforeEnd => "truncated literal before end of input"
  | offsetRange => "scan beyond the last offset"

/-- Whether the diagnostic shows the source text under its span. -/
def showsSource : LexCause → Bool
  | number _ | newlineInString => true
  | _ => false

def suggestion : LexCause → Option String
  | newlineInString => some "use a raw string (`...`) or `\\n` for multi-line text."
  | _ => none

/-- The diagnostic of a cause that concerns the text `source`, which lies under `span`. -/
def diagnostic (cause : LexCause) (source : List Char) (span : Span) : LexDiagnostic where
  code := cause.code
  message := cause.message
  span := span
  nearText := if cause.showsSource then nearText source else none
  suggestion := cause.suggestion

end LexCause

/-- Where the end of the input came too early. -/
inductive CutoffCause where
  | string
  | stringEscape
  | rawString
  | rune
  | runeEscape
  | comment
  | number (cause : NumberCause)
  deriving DecidableEq, Repr

namespace CutoffCause

def construct : CutoffCause → OpenConstruct
  | string | stringEscape => .string
  | rawString => .rawString
  | rune | runeEscape => .rune
  | comment => .comment
  | number _ => .number

def message : CutoffCause → String
  | string => "string literal not terminated"
  | rawString => "raw string literal not terminated"
  | rune => "rune literal not terminated"
  | stringEscape | runeEscape => "escape sequence not terminated"
  | comment => "comment not terminated"
  | number cause => cause.message

end CutoffCause

namespace OpenConstruct

def code : OpenConstruct → DiagnosticCode
  | string => .unterminatedString
  | rawString => .unterminatedRawString
  | rune => .unterminatedRune
  | comment => .unterminatedComment
  | number => .incompleteNumber

/-- The advice to close the construct; an unfinished number has no closing mark. -/
def suggestion : OpenConstruct → Option String
  | string => some "close the string with `\"`."
  | rawString => some "close the raw string with ```."
  | rune => some "close the rune literal with `'`."
  | comment => some "close the comment with `*/`."
  | number => none

end OpenConstruct

namespace CutoffCause

def cutoff (cause : CutoffCause) (source : List Char) (span : Span) : Cutoff where
  construct := cause.construct
  diagnostic :=
    { code := cause.construct.code
      message := cause.message
      span := span
      nearText := nearText source
      suggestion := cause.construct.suggestion }

end CutoffCause

end GoPrompt
