import GoPrompt.Classification.Error
import GoPrompt.Repl.Command

/-! What can go wrong in a session. Only a failure of the session's own input ends it. -/

namespace GoPrompt

inductive ReplError where
  | io (error : ReadError)
  | command (error : CommandError)
  | source (path : String) (error : ReadError)
  | classify (error : ClassifyError)
  | evaluate (message : String)
  deriving DecidableEq, Repr

namespace CommandError

def message : CommandError → String
  | .missingRange => ":rm needs an entry or range, e.g. :rm 3-4"
  | .missingPath => ":source needs at least one path"
  | .unknown word => "unknown command ':" ++ word ++ "', try :help"
  | .history error => "bad history request: " ++ error.message

end CommandError

namespace ReplError

def message : ReplError → String
  | .io error => "i/o error: " ++ error.message
  | .command error => error.message
  | .source path error => "cannot source " ++ path ++ ": " ++ error.message
  | .classify error => "cannot classify input: " ++ error.message
  | .evaluate message => "evaluation failed: " ++ message

def isFatal : ReplError → Bool
  | .io _ => true
  | _ => false

end ReplError

end GoPrompt
