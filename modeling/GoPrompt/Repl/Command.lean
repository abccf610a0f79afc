import GoPrompt.Files.Tree
import GoPrompt.Repl.HistoryRange

/-! The commands of the prompt. They start with a single colon and are recognised only where a new
statement may start. -/

namespace GoPrompt

/-- How much the session says about each input. -/
inductive Verbosity where
  | quiet | verbose | veryVerbose
  deriving DecidableEq, Repr

namespace Verbosity

/-- The level that a number of `-v` flags asks for. -/
def ofCount : Nat → Verbosity
  | 0 => .quiet
  | 1 => .verbose
  | _ => .veryVerbose

def name : Verbosity → String
  | .quiet => "Quiet"
  | .verbose => "Verbose"
  | .veryVerbose => "VeryVerbose"

end Verbosity

inductive Command where
  | help
  | showHistory
  | replay (range : HistoryRange)
  | remove (range : HistoryRange)
  | reset
  | setVerbosity (level : Verbosity)
  | source (paths : List String)
  | exit
  deriving DecidableEq, Repr

inductive CommandError where
  | missingRange
  | missingPath
  | unknown (word : String)
  | history (error : HistoryError)
  deriving DecidableEq, Repr

namespace Command

def helpText : String :=
  String.intercalate "\n"
    [":help, :?        Show this help.",
      " :h               Show command line history.",
      " :30              Replay history entry 30.",
      " :10-15           Replay history entries 10 through 15.",
      " :rm 3-4          Remove entries 3-4 from history (also :rm 3, :rm -4, :rm 4-).",
      " :reset           Clear history (also :clear).",
      " :v               Show all diagnostics and continuation reasons.",
      " :vv              Also show statement kinds and token counts.",
      " :q               Show only the first diagnostic (default).",
      " :source <path>   Replay Go code from files (comma-separated).",
      " :exit            Leave the session (also end of input)."]

/-- A path with a leading `~/` is relative to the home directory, if there is one. -/
def expandHome (home : Option String) (path : List Char) : List Char :=
  match home, path with
  | some home, '~' :: '/' :: relative => joinPath home.toList relative
  | _, _ => path

/-- The paths of a list with commas between them. -/
def sourcePaths (home : Option String) (argument : List Char) : Except CommandError (List String) :=
  let paths := ((argument.splitOn ',').map Text.trim).filter (!·.isEmpty)
  if paths.isEmpty then .error .missingPath
  else .ok (paths.map fun path => String.ofList (expandHome home path))

def parseRange (text : List Char) : Except CommandError HistoryRange := (HistoryRange.parse text).mapError .history

/-- The command that a word and its argument stand for. -/
def ofWord (home : Option String) (word : String) (argument : List Char) : Except CommandError Command :=
  if word = "help" ∨ word = "?" then .ok .help
  else if word = "h" then .ok .showHistory
  else if word = "reset" ∨ word = "clear" then .ok .reset
  else if word = "v" then .ok (.setVerbosity .verbose)
  else if word = "vv" then .ok (.setVerbosity .veryVerbose)
  else if word = "q" then .ok (.setVerbosity .quiet)
  else if word = "exit" then .ok .exit
  else if word = "rm" then
    if argument.isEmpty then .error .missingRange else .remove <$> parseRange argument
  else if word = "source" then .source <$> sourcePaths home argument
  else
    match word.toList with
    | 'r' :: 'm' :: range => .remove <$> parseRange range
    | _ => .error (.unknown word)

def startsRange (c : Char) : Bool := c.isDigit || c == '-'

/-- The command that a line is, or nothing for a line of source text. Upper and lower case of the
command word are the same, as far as ASCII goes. -/
def parse? (home : Option String) (line : String) : Option (Except CommandError Command) :=
  match Text.trim line.toList with
  | ':' :: first :: rest =>
    if first = ':' then none
    else if startsRange first then some (.replay <$> parseRange (first :: rest))
    else
      let text := first :: rest
      let word := text.takeWhile (!Unicode.isBlank ·)
      let argument := Text.trim (text.drop word.length)
      some (ofWord home (String.ofList (word.map Char.toLower)) argument)
  | _ => none

end Command

end GoPrompt
