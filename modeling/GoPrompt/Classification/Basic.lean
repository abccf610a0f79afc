import GoPrompt.Classification.Error
import GoPrompt.Lexical.Encoding
import GoPrompt.Text.Trim

/-! The classification of what has been typed so far: it is a complete statement, it needs more input, or
it can never become a statement. -/

namespace GoPrompt

/-- The text typed so far. A boundary means that the line is ended, as by the enter key. -/
structure Fragment where
  text : List Char
  hasBoundary : Bool := false
  deriving DecidableEq, Repr

namespace Fragment

def ofBytes (bytes : List UInt8) : Except ClassifyError Fragment :=
  match decodeSource 0 bytes with
  | .ok text => .ok { text := text }
  | .error fault => .error (.ofLexFault fault)

def isBlank (fragment : Fragment) : Bool := (Text.trim fragment.text).isEmpty

/-- The text to scan: a boundary adds the newline that is not there yet. -/
def source (fragment : Fragment) : List Char :=
  if fragment.hasBoundary && fragment.text.getLast? != some '\n' then fragment.text ++ ['\n'] else fragment.text

end Fragment

structure Classification where
  answer : Answer
  /-- The kind of the statement, for a complete text. -/
  statement : Option StatementKind
  /-- Why more input is needed, if it is. -/
  pending : Option PendingReason
  tokensScanned : Nat
  /-- The first diagnostic explains the answer. -/
  diagnostics : List Diagnostic
  deriving DecidableEq, Repr

/-- No nesting budget goes beyond this one. -/
def maxNestingCeiling : Nat := 1024

/-- The budgets of a classification: the nesting is bounded, and there is room for one diagnostic. -/
def Limits.forClassification (limits : Limits) : Limits where
  maxNesting := min limits.maxNesting maxNestingCeiling
  maxTokens := limits.maxTokens
  maxDiagnostics := max limits.maxDiagnostics 1

/-- The diagnostics behind a parse: a rejected text is searched for further problems, and a fault of this search does
not matter. One that comes beyond the last offset ends here as well, though no scan returns from there, see
`LexFault.stalled`. -/
def Parser.explain (parser : Parser) (verdict : Verdict) : List Diagnostic :=
  match verdict with
  | .syntaxError _ => parser.recover.2.collector.diagnostics
  | .complete _ | .needMoreInput _ => parser.collector.diagnostics

/-- Classifies a source text that has been checked for its encoding. -/
def classifySource (limits : Limits) (source : List Char) : Except ClassifyError Classification :=
  let limits := limits.forClassification
  match (Parser.ofText limits source { limit := some limits.maxDiagnostics }).parse with
  | (.error error, _) => .error (.ofParseError error)
  | (.ok report, parser) =>
    match (Signals.ofReport report).answer with
    | .error fault => .error (.internal fault)
    | .ok answer =>
      .ok
        { answer := answer
          statement :=
            match report.verdict with
            | .complete statement => some statement.kind
            | .needMoreInput _ | .syntaxError _ => none
          pending :=
            match report.verdict with
            | .needMoreInput reason => some reason
            | .complete _ | .syntaxError _ => none
          tokensScanned := report.tokensScanned
          diagnostics := parser.explain report.verdict }

def Fragment.classify (limits : Limits) (fragment : Fragment) : Except ClassifyError Classification :=
  match checkEncoding 0 fragment.source with
  | .error fault => .error (.ofLexFault fault)
  | .ok () => classifySource limits fragment.source

/-- Classifies a text without a boundary. -/
def classify (limits : Limits) (text : String) : Except ClassifyError Classification :=
  Fragment.classify limits { text := text.toList }

end GoPrompt
