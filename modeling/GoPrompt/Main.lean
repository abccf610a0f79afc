import GoPrompt.CommandLine.Run

/-! The program around the command line: it reads the standard input and files, and writes what the command
line answers. A session is answered line by line, so that it can be held at a terminal. -/

namespace GoPrompt.Program

/-- The number of a system error, which may come negated. -/
def errorNumber (code : UInt32) : Nat := min code.toNat (-code).toNat

/-- What a failure of the system to read a file means. -/
def readError : IO.Error → ReadError
  | .noFileOrDirectory .. => .notFound
  | .inappropriateType _ code details =>
    if errorNumber code = 20 then .notADirectory
    else if errorNumber code = 21 then .isADirectory
    else .other s!"{details} (os error {errorNumber code})"
  | .permissionDenied _ code details => .other s!"{details} (os error {errorNumber code})"
  | error => .other (toString error)

def readFile (path : String) : IO (Except ReadError (List UInt8)) := do
  if path.toList.contains '\x00' then return .error .nulInPath
  try
    return .ok (← IO.FS.readBinFile path).toList
  catch error => return .error (readError error)

partial def readAll (input : IO.FS.Stream) (seen : ByteArray) : IO ByteArray := do
  let chunk ← input.read 65536
  if chunk.isEmpty then return seen else readAll input (seen ++ chunk)

/-- Reads up to the next newline, with it. -/
partial def readLine (input : IO.FS.Stream) (seen : ByteArray) : IO ByteArray := do
  let byte ← input.read 1
  if byte.isEmpty then return seen
  else if byte.toList = [10] then return seen ++ byte
  else readLine input (seen ++ byte)

def write (text : String) : IO Unit := do
  let output ← IO.getStdout
  output.putStr text
  output.flush

/-- Writes what a run leaves, and answers the status to exit with. -/
def report (outcome : Outcome) : IO UInt32 := do
  write outcome.output
  if let some message := outcome.error then IO.eprintln ("error: " ++ message)
  return outcome.status.toUInt32

/-- The files that a session may ask for, read before it is asked to act. -/
def preload (paths : List String) : IO FileReader := do
  let contents ← paths.mapM fun path => return (path, ← readFile path)
  return fun path => (contents.lookup path).getD (.error .notFound)

/-- Holds a session until it ends, and answers the error that it ends with. -/
partial def converse (home : Option String) (repl : Repl Unit) : IO (Option ReplError) := do
  write repl.promptText
  match Text.byteLines (← readLine (← IO.getStdin) ByteArray.empty).toList with
  | [] =>
    write repl.finish.1
    return none
  | line :: _ =>
    let files ← preload (repl.requestedPaths home line)
    let response := repl.respond { home := home, files := files } line
    write response.output
    match response.ending with
    | some .exited => return none
    | some (.failed error) => return some error
    | none => converse home response.repl

def session (home : Option String) (config : ReplConfig) : IO UInt32 := do
  let repl := Repl.start config Evaluator.echo ()
  write repl.greeting
  report (CommandLine.sessionOutcome "" (← converse home repl))

def start (arguments : List String) : IO UInt32 := do
  let home ← IO.getEnv "HOME"
  let run := fun (files : FileReader) (input : List UInt8) =>
    report (CommandLine.run arguments { home := home, files := files } input)
  match CommandLine.parse? arguments with
  | none => run (fun _ => .error .notFound) []
  | some invocation =>
    match invocation.task with
    | .repl quiet => session home (CommandLine.replConfig invocation quiet)
    | .classify (some path) _ => run (← preload [path]) []
    | .classify none _ => run (fun _ => .error .notFound) (← readAll (← IO.getStdin) ByteArray.empty).toList

end GoPrompt.Program

def main (arguments : List String) : IO UInt32 := GoPrompt.Program.start arguments
