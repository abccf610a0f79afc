import GoPrompt.Source.Bytes
import GoPrompt.Source.Span

/-! What the lexer has to say about a text that is not a plain sequence of tokens. A cutoff is a
construct that the end of the input interrupts, so that more text may still finish it; a fault means
that the text cannot be scanned at all. -/

namespace GoPrompt

inductive DiagnosticCode where
  | unterminatedString | unterminatedRawString | unterminatedRune | unterminatedComment | incompleteNumber
  | newlineInString | newlineInRune | emptyRune | runeTooLong | invalidEscape
  | invalidDigit | misplacedSeparator | malformedNumber
  | invalidCharacter | nulCharacter | misplacedByteOrderMark | invalidEncoding | internalInvariant
  deriving DecidableEq, Repr

structure LexDiagnostic where
  code : DiagnosticCode
  message : String
  span : Span
  nearText : Option String := none
  suggestion : Option String := none
  deriving DecidableEq, Repr

namespace LexDiagnostic

/-- The message, with the source text near it if that is known. -/
def text (diagnostic : LexDiagnostic) : String :=
  match diagnostic.nearText with
  | some near => diagnostic.message ++ " near `" ++ near ++ "`"
  | none => diagnostic.message

end LexDiagnostic

/-- How many bytes of source text a diagnostic shows at most. -/
def nearTextLimit : Nat := 24

/-- The part of a source text that a diagnostic shows: the beginning of its first line, if that line is
not empty. -/
def nearText (source : List Char) : Option String :=
  let line := source.takeWhile (· != '\n')
  let ended := line.length < source.length
  let line := if ended && line.getLast? == some '\r' then line.dropLast else line
  if line.isEmpty then none else some (String.ofList (takeBytes nearTextLimit line))

/-- The constructs that the end of the input can interrupt. -/
inductive OpenConstruct where
  | string | rawString | rune | comment | number
  deriving DecidableEq, Repr

structure Cutoff where
  construct : OpenConstruct
  diagnostic : LexDiagnostic
  deriving DecidableEq, Repr

/-- Reasons why a text cannot be scanned. Offsets have 32 bits, and none goes beyond the last one: a scan that
would have to comes to the same character again and again and never returns, or ends inside one. `stalled` stands in
place of all that it may do there. -/
inductive LexFault where
  | malformed (diagnostic : LexDiagnostic)
  | invariant (diagnostic : LexDiagnostic)
  | stalled (diagnostic : LexDiagnostic)
  deriving DecidableEq, Repr

namespace LexFault

def diagnostic : LexFault → LexDiagnostic
  | malformed diagnostic | invariant diagnostic | stalled diagnostic => diagnostic

def message (fault : LexFault) : String :=
  match fault with
  | malformed diagnostic => s!"malformed input at byte {diagnostic.span.start}: " ++ diagnostic.message
  | invariant diagnostic | stalled diagnostic => "lexer invariant violated: " ++ diagnostic.message

end LexFault

end GoPrompt
