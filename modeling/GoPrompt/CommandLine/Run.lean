import GoPrompt.CommandLine.Arguments
import GoPrompt.Repl.Transcript
import GoPrompt.Report.Document

/-! What the program writes, and the status that it exits with. -/

namespace GoPrompt

/-- What a run of the program leaves behind. -/
structure Outcome where
  output : String := ""
  /-- The message on the error output, if the run fails. -/
  error : Option String := none
  status : Nat
  deriving DecidableEq, Repr

namespace CommandLine

/-- Each answer has a status of its own. -/
def answerStatus : Answer → Nat
  | .complete => 0
  | .syntaxError => 1
  | .needMoreInput => 2

/-- The status of a run that finds no answer, because a text or a file cannot be read. -/
def faultStatus : Nat := 3

def usageStatus : Nat := 2

/-- The answer with what it concerns, and a line for each diagnostic. -/
def classificationText (classification : Classification) : String :=
  let subject :=
    match classification.statement, classification.pending with
    | some statement, _ => ": " ++ statement.name
    | none, some reason => ": " ++ reason.describe
    | none, none => ""
  let lines := classification.diagnostics.map fun diagnostic => "  " ++ diagnostic.text ++ "\n"
  classification.answer.text ++ subject ++ "\n" ++ String.join lines

def classifyContent (limits : Limits) (asJson : Bool) (content : List UInt8) : Outcome :=
  match (Fragment.ofBytes content).bind (·.classify limits) with
  | .ok classification =>
    { output :=
        if asJson then classification.document.render ++ "\n" else classificationText classification
      status := answerStatus classification.answer }
  | .error error =>
    { output := if asJson then error.document.render ++ "\n" else "error: " ++ error.message ++ "\n"
      status := faultStatus }

/-- The outcome for a file that cannot be read. -/
def unreadable (path : String) (error : ReadError) : Outcome :=
  { error := some ("reading " ++ path ++ ": " ++ error.message), status := faultStatus }

def replConfig (invocation : Invocation) (quiet : Bool) : ReplConfig :=
  { quiet := quiet
    verbosity := .ofCount invocation.verbose
    limits := invocation.limits }

/-- The outcome of a session that wrote `output`. The message of a failed one names the error and then its
cause. -/
def sessionOutcome (output : String) : Option ReplError → Outcome
  | none => { output := output, status := 0 }
  | some error =>
    let cause :=
      match error with
      | .io cause => ": " ++ cause.message
      | .command _ | .source .. | .classify _ | .evaluate _ => ""
    { output := output, error := some ("repl session failed: " ++ error.message ++ cause), status := faultStatus }

/-- Runs the program on a standard input that is known as a whole. -/
def run (arguments : List String) (environment : Environment) (input : List UInt8) : Outcome :=
  match parse? arguments with
  | none => { error := some ("the arguments are not understood\n" ++ usage), status := usageStatus }
  | some invocation =>
    match invocation.task with
    | .classify none asJson => classifyContent invocation.limits asJson input
    | .classify (some path) asJson =>
      match environment.files path with
      | .ok content => classifyContent invocation.limits asJson content
      | .error error => unreadable path error
    | .repl quiet =>
      let transcript := (Repl.start (replConfig invocation quiet) Evaluator.echo ()).run environment input
      sessionOutcome transcript.output transcript.error

end CommandLine

end GoPrompt
