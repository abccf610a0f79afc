import GoPrompt.Classification.Basic
import GoPrompt.Repl.Error
import GoPrompt.Repl.History
import GoPrompt.Repl.PackageClause

/-! The session at the prompt. Lines gather in a buffer that is classified after each of them: a complete
buffer goes to the evaluator and into the history, a buffer that needs more input waits, and a rejected
one is dropped. -/

namespace GoPrompt

/-- A consumer of complete statements, with a state of its own. It answers a text to show, if any, or the
message of a failure. -/
structure Evaluator (σ : Type) where
  evaluate : String → StatementKind → σ → Except String (Option String) × σ

/-- Shows each statement with the name of its kind. -/
def Evaluator.echo {σ : Type} : Evaluator σ where
  evaluate source kind state :=
    (.ok (some (kind.name ++ ": " ++ String.ofList (Text.trim source.toList))), state)

/-- What a session finds around it. -/
structure Environment where
  home : Option String
  files : FileReader

structure ReplConfig where
  prompt : String := "gi> "
  continuationPrompt : String := "...> "
  /-- Whether the banner and the prompts are left out. -/
  quiet : Bool := false
  historyLimit : Option Nat := some 1000
  verbosity : Verbosity := .quiet
  limits : Limits := {}
  deriving DecidableEq, Repr

/-- What the session has to show. -/
inductive ReplEvent where
  | needMoreInput (reason : Option PendingReason)
  | evaluated (source : String) (statement : StatementKind) (output : Option String)
  /-- The buffer was rejected and dropped. -/
  | syntaxError (source message : String)
  /-- The buffer could not be classified and was dropped. -/
  | fault (source : String) (error : ClassifyError)
  /-- A replay or a file ended inside a statement, which was dropped. -/
  | unfinished (source : String)
  | message (text : String)
  | exit
  deriving DecidableEq, Repr

structure Repl (σ : Type) where
  config : ReplConfig
  evaluator : Evaluator σ
  evaluatorState : σ
  history : History
  /-- The lines of the statement that is still open. -/
  buffer : String := ""

namespace Repl

variable {σ : Type}

def start (config : ReplConfig) (evaluator : Evaluator σ) (state : σ) : Repl σ where
  config := config
  evaluator := evaluator
  evaluatorState := state
  history := { limit := config.historyLimit }

def isContinuing (repl : Repl σ) : Bool := !repl.buffer.isEmpty

def prompt (repl : Repl σ) : String :=
  if repl.isContinuing then repl.config.continuationPrompt else repl.config.prompt

def setBuffer (repl : Repl σ) (buffer : String) : Repl σ := { repl with buffer := buffer }

/-- The diagnostics to show for a rejected buffer: the first one, unless the session is verbose. -/
def syntaxErrorText (repl : Repl σ) (diagnostics : List Diagnostic) : String :=
  let shown :=
    match repl.config.verbosity with
    | .quiet => diagnostics.take 1
    | .verbose | .veryVerbose => diagnostics
  if shown.isEmpty then "syntax error" else String.intercalate "\n" (shown.map (·.text))

/-- Records and evaluates a complete statement. -/
def evaluate (repl : Repl σ) (source : String) (classification : Classification) : ReplEvent × Repl σ :=
  let statement := classification.statement.getD .expression
  let (result, state) := repl.evaluator.evaluate source statement repl.evaluatorState
  let output :=
    match result with
    | .ok output => output
    | .error message => some (ReplError.evaluate message).message
  let output :=
    match repl.config.verbosity with
    | .veryVerbose =>
      let shown := (output.map (" " ++ ·)).getD ""
      some ("[" ++ statement.name ++ s!", {classification.tokensScanned} tokens]" ++ shown)
    | .quiet | .verbose => output
  (.evaluated source statement output,
    { repl with history := repl.history.record source, evaluatorState := state })

/-- Appends a line to the buffer and acts on the classification of the whole. A blank line and a comment
where a statement may start have no effect. -/
def acceptLine (repl : Repl σ) (line : String) : Option ReplEvent × Repl σ :=
  if !repl.isContinuing && (Text.trim line.toList).isEmpty then (none, repl)
  else
    let candidate := if repl.isContinuing then repl.buffer ++ "\n" ++ line else line
    let fresh := repl.setBuffer ""
    match classify repl.config.limits candidate with
    | .error error => (some (.fault candidate error), fresh)
    | .ok classification =>
      match classification.answer with
      | .needMoreInput =>
        if classification.pending = some .emptyInput then (none, fresh)
        else (some (.needMoreInput classification.pending), repl.setBuffer candidate)
      | .syntaxError => (some (.syntaxError candidate (repl.syntaxErrorText classification.diagnostics)), fresh)
      | .complete =>
        let (event, after) := fresh.evaluate candidate classification
        (some event, after)

/-- Accepts several lines, one after the other. -/
def acceptLines (repl : Repl σ) : List String → List ReplEvent × Repl σ
  | [] => ([], repl)
  | line :: rest =>
    let (event, after) := repl.acceptLine line
    let (later, last) := after.acceptLines rest
    (event.toList ++ later, last)

/-- Feeds a text line by line as if it were typed. A statement that it leaves open is dropped. -/
def feedText (repl : Repl σ) (text : List Char) : List ReplEvent × Repl σ :=
  let (events, after) := repl.acceptLines ((Text.lines text).map String.ofList)
  if after.isContinuing then (events ++ [.unfinished after.buffer], after.setBuffer "") else (events, after)

def replay (repl : Repl σ) (range : HistoryRange) : Except ReplError (List ReplEvent) × Repl σ :=
  match range.resolve repl.history.length, repl.history.replay range with
  | .ok (start, stop), .ok source =>
    let banner :=
      if range.isRange then
        "replay history " ++ Text.threeDigits start ++ " - " ++ Text.threeDigits stop ++ ":"
      else "replay history " ++ Text.threeDigits start ++ ":"
    let (events, after) := repl.feedText source.toList
    (.ok (.message banner :: events), after)
  | .error error, _ | _, .error error => (.error (.command (.history error)), repl)

def remove (repl : Repl σ) (range : HistoryRange) : Except ReplError (List ReplEvent) × Repl σ :=
  match repl.history.remove range with
  | .error error => (.error (.command (.history error)), repl)
  | .ok ((start, stop), history) =>
    let entries :=
      if start = stop then Text.threeDigits start else Text.threeDigits start ++ " - " ++ Text.threeDigits stop
    (.ok [.message ("removed history " ++ entries ++ ".")], { repl with history := history })

/-- Feeds files one after the other, up to the first one that cannot be read. -/
def sourceFiles (environment : Environment) (repl : Repl σ) : List String → Except ReplError (List ReplEvent) × Repl σ
  | [] => (.ok [], repl)
  | path :: rest =>
    match environment.files.readText path with
    | .error error => (.error (.source path error), repl)
    | .ok text =>
      let (events, after) := repl.feedText (stripPackageClause text)
      let (later, last) := sourceFiles environment after rest
      (later.map fun later => .message ("sourcing " ++ path) :: events ++ later, last)

def runCommand (environment : Environment) (repl : Repl σ) (command : Command) :
    Except ReplError (List ReplEvent) × Repl σ :=
  match command with
  | .help => (.ok [.message Command.helpText], repl)
  | .showHistory => (.ok [.message repl.history.render], repl)
  | .replay range => repl.replay range
  | .remove range => repl.remove range
  | .reset => (.ok [.message "history cleared."], { repl with history := repl.history.clear })
  | .setVerbosity level =>
    (.ok [.message ("verbosity: " ++ level.name)], { repl with config := { repl.config with verbosity := level } })
  | .source paths => repl.sourceFiles environment paths
  | .exit => (.ok [.exit], repl)

/-- Handles one line of input: a command where a statement may start, and source text otherwise. -/
def handleLine (environment : Environment) (repl : Repl σ) (line : String) :
    Except ReplError (List ReplEvent) × Repl σ :=
  match if repl.isContinuing then none else Command.parse? environment.home line with
  | some (.error error) => (.error (.command error), repl)
  | some (.ok command) => repl.runCommand environment command
  | none =>
    let (event, after) := repl.acceptLine line
    (.ok event.toList, after)

end Repl

end GoPrompt
