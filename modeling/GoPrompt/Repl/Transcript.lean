import GoPrompt.Repl.Session

/-! A session as it runs over an input: what it writes, prompts included, line by line. -/

namespace GoPrompt.Repl

variable {σ : Type}

def banner : String := "gifront: type :help for commands, :exit to quit"

/-- What an event writes. -/
def eventText (repl : Repl σ) : ReplEvent → String
  | .needMoreInput (some reason) =>
    if repl.config.verbosity = .quiet then "" else "(waiting: " ++ reason.describe ++ ")\n"
  | .needMoreInput none | .exit => ""
  | .evaluated _ _ output => (output.map (· ++ "\n")).getD ""
  | .syntaxError _ message => message ++ "\n"
  | .fault _ error =>
    if error.isMalformed then "error: " ++ error.message ++ "\n" else "internal fault: " ++ error.message ++ "\n"
  | .unfinished source => "incomplete statement discarded: " ++ String.ofList (Text.trim source.toList) ++ "\n"
  | .message text => text ++ "\n"

/-- How a session ends: by command, at the end of the input, or by a failure. -/
inductive Ending where
  | exited
  | failed (error : ReplError)
  deriving DecidableEq, Repr

/-- What one line of input leads to. -/
structure Response (σ : Type) where
  output : String
  ending : Option Ending
  repl : Repl σ

def greeting (repl : Repl σ) : String := if repl.config.quiet then "" else banner ++ "\n"

def promptText (repl : Repl σ) : String := if repl.config.quiet then "" else repl.prompt

/-- Handles one line of the input, which is still to be decoded. -/
def respond (environment : Environment) (repl : Repl σ) (line : List UInt8) : Response σ :=
  match Utf8.decode line with
  | .error _ => ⟨"", some (.failed (.io .notUtf8)), repl⟩
  | .ok text =>
    match repl.handleLine environment (String.ofList text) with
    | (.error error, after) =>
      if error.isFatal then ⟨"", some (.failed error), after⟩
      else ⟨"error: " ++ error.message ++ "\n", none, after⟩
    | (.ok events, after) =>
      let shown := events.takeWhile (· != .exit)
      let ending := if events.contains .exit then some Ending.exited else none
      ⟨String.join (shown.map after.eventText), ending, after⟩

/-- The files that a line of the input asks for. -/
def requestedPaths (home : Option String) (repl : Repl σ) (line : List UInt8) : List String :=
  match Utf8.decode line with
  | .error _ => []
  | .ok text =>
    match if repl.isContinuing then none else Command.parse? home (String.ofList text) with
    | some (.ok (.source paths)) => paths
    | _ => []

/-- What the end of the input leads to: an open statement is dropped. -/
def finish (repl : Repl σ) : String × Repl σ :=
  if repl.isContinuing then (repl.eventText (.unfinished repl.buffer), repl.setBuffer "") else ("", repl)

/-- The outcome of a session over a whole input. -/
structure Transcript (σ : Type) where
  output : String
  error : Option ReplError
  repl : Repl σ

/-- Goes on with the given lines, after the output so far. -/
def runLines (environment : Environment) (repl : Repl σ) (output : String) : List (List UInt8) → Transcript σ
  | [] =>
    let (rest, after) := repl.finish
    ⟨output ++ repl.promptText ++ rest, none, after⟩
  | line :: lines =>
    let response := repl.respond environment line
    let output := output ++ repl.promptText ++ response.output
    match response.ending with
    | some .exited => ⟨output, none, response.repl⟩
    | some (.failed error) => ⟨output, some error, response.repl⟩
    | none => runLines environment response.repl output lines

def run (environment : Environment) (repl : Repl σ) (input : List UInt8) : Transcript σ :=
  runLines environment repl repl.greeting (Text.byteLines input)

end GoPrompt.Repl
