import GoPrompt.Grammar.TopLevel
import GoPrompt.Parse.Diagnostic

/-! The parser answers whether a text is a complete statement, and collects diagnostics: one for the
first problem, and more when it is asked to go on behind it. -/

namespace GoPrompt

/-- The budgets of a parse. -/
structure Limits where
  maxNesting : Nat := 256
  maxTokens : Nat := 65536
  maxDiagnostics : Nat := 16
  deriving DecidableEq, Repr

inductive Verdict where
  | complete (statement : Statement)
  | needMoreInput (reason : PendingReason)
  | syntaxError (error : ParseError)
  deriving DecidableEq, Repr

structure Report where
  verdict : Verdict
  /-- Whether the grammar asked for a token beyond the end of the text. -/
  observedEnd : Bool
  tokensScanned : Nat
  deriving DecidableEq, Repr

structure Parser where
  limits : Limits
  state : ParseState
  collector : Collector
  /-- The number of diagnostics so far, whether or not they were kept. -/
  reported : Nat := 0

namespace Parser

/-- A parser for the rest of a stream. -/
def ofStream (limits : Limits) (stream : TokenStream) (collector : Collector) : Parser where
  limits := limits
  state := { stream := stream }
  collector := collector

def ofText (limits : Limits) (text : List Char) (collector : Collector) : Parser :=
  ofStream limits (.ofText text limits.maxTokens) collector

def text (parser : Parser) : List Char := parser.state.stream.text

def withState (parser : Parser) (state : ParseState) : Parser := { parser with state := state }

def emit (parser : Parser) (diagnostic : Diagnostic) : Parser :=
  { parser with collector := parser.collector.report diagnostic, reported := parser.reported + 1 }

/-- The source text under a span. -/
def sourceAt (parser : Parser) (span : Span) : String :=
  String.ofList (takeBytes span.length (dropBytes span.start parser.text))

/-- Reports an error of the grammar. -/
def report (parser : Parser) (error : ParseError) : Parser :=
  let span := error.span.getD parser.state.stream.endSpan
  let (kind, offending) :=
    match error.kind with
    | .invalidToken => (DiagnosticKind.lexer, Offending.token (error.found.getD ""))
    | .unexpectedEndOfInput => (.parser, .endOfInput)
    | _ => (.parser, .token (parser.sourceAt span))
  parser.emit
    { kind := kind
      message := error.message
      span := span
      position := .ofOffset parser.text span.start
      offending := offending }

/-- Reports the construct that the end of the text cuts off. -/
def reportCutoff (parser : Parser) (cutoff : Cutoff) : Parser :=
  parser.emit
    { kind := .lexer
      message := cutoff.diagnostic.text
      span := cutoff.diagnostic.span
      position := .ofOffset parser.text cutoff.diagnostic.span.start
      offending := .endOfInput }

def answer (parser : Parser) (verdict : Verdict) : Except ParseError Report × Parser :=
  let stream := parser.state.stream
  (.ok { verdict := verdict, observedEnd := stream.observedEnd, tokensScanned := stream.scanned }, parser)

/-- Parses the text as one statement. Faults are no verdict and come back as errors. -/
def parse (parser : Parser) : Except ParseError Report × Parser :=
  match Grammar.wholeText parser.limits.maxNesting parser.state with
  | .ok statement state =>
    let parser := parser.withState state
    match state.stream.tail with
    | some cutoff => (parser.reportCutoff cutoff).answer (.needMoreInput (.cutOff cutoff.construct))
    | none => parser.answer (.complete statement)
  | .error (.needMoreInput error) state =>
    let parser := parser.withState state
    let reason := state.stream.pendingReason
    match state.stream.tail with
    | some cutoff => (parser.reportCutoff cutoff).answer (.needMoreInput reason)
    | none => (parser.report error).answer (.needMoreInput reason)
  | .error (.rejected error) state =>
    let parser := parser.withState state
    if error.isFault then (.error error, parser) else (parser.report error).answer (.syntaxError error)

/-- Whether the diagnostic budget is used up. -/
def isDone (parser : Parser) : Bool :=
  decide (parser.limits.maxDiagnostics ≤ parser.reported) || parser.collector.isSaturated

def resetDepth (parser : Parser) : Parser := parser.withState { parser.state with depth := 0 }

/-- Skips to the next statement and parses it. Answers whether there may be more to report. -/
def recoverOnce (parser : Parser) : Except ParseError Bool × Parser :=
  match Grammar.synchronize parser.state with
  | .error (.needMoreInput error) state | .error (.rejected error) state => (.error error, parser.withState state)
  | .ok .endOfInput state => (.ok false, parser.withState state)
  | .ok .separator state =>
    match Parse.peek 0 state with
    | .error (.needMoreInput error) state | .error (.rejected error) state => (.error error, parser.withState state)
    | .ok none state => (.ok false, parser.withState state)
    | .ok (some _) state =>
      match Grammar.topLevelStatement parser.limits.maxNesting state with
      | .ok _ state => (.ok true, parser.withState state)
      | .error (.needMoreInput error) state => (.ok false, (parser.withState state).report error)
      | .error (.rejected error) state =>
        if error.isFault then (.error error, parser.withState state)
        else (.ok true, ((parser.withState state).report error).resetDepth)

def recoverLoop (parser : Parser) : Except ParseError Unit × Parser :=
  if parser.isDone then (.ok (), parser)
  else
    match parser.recoverOnce with
    | (.error error, after) => (.error error, after)
    | (.ok false, after) => (.ok (), after)
    | (.ok true, after) =>
      if after.state.remaining < parser.state.remaining then after.recoverLoop
      else (.error (.internalInvariant "recovery without progress" none), after)
termination_by parser.state.remaining

/-- Reports further problems behind a rejected statement, until the text or the diagnostic budget runs
out, and answers their number. -/
def recover (parser : Parser) : Except ParseError Nat × Parser :=
  let (result, after) := parser.resetDepth.recoverLoop
  (result.map fun () => after.reported - parser.reported, after)

end Parser

end GoPrompt
