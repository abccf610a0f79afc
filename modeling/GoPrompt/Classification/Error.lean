import GoPrompt.Classification.Signals

/-! Why a text is not classified at all. None of this is ever turned into an answer about its syntax. -/

namespace GoPrompt

inductive ClassifyError where
  | malformed (diagnostic : LexDiagnostic)
  | internal (fault : InternalFault)
  deriving DecidableEq, Repr

namespace ClassifyError

def ofLexFault : LexFault → ClassifyError
  | .malformed diagnostic => .malformed diagnostic
  | .invariant diagnostic => .internal (.parser (.ofLexFault (.invariant diagnostic)))
  | .stalled diagnostic => .internal (.parser (.ofLexFault (.stalled diagnostic)))

def ofParseError (error : ParseError) : ClassifyError :=
  match error.kind, error.lexical with
  | .malformedInput, some diagnostic => .malformed diagnostic
  | _, _ => .internal (.parser error)

def message : ClassifyError → String
  | .malformed diagnostic => "malformed input: " ++ diagnostic.text
  | .internal fault => fault.message

def isMalformed : ClassifyError → Bool
  | .malformed _ => true
  | .internal _ => false

/-- The diagnostic of the lexer behind the error, if there is one. -/
def diagnostic? : ClassifyError → Option LexDiagnostic
  | .malformed diagnostic => some diagnostic
  | .internal (.parser error) => error.lexical
  | .internal _ => none

end ClassifyError

end GoPrompt
