import GoPrompt.Parse.Parser
import GoPrompt.Text.Numeral

/-! The arguments of the program. Options that concern every task may stand before and after the name of
the task; what is said after it counts. -/

namespace GoPrompt

inductive Task where
  /-- Classify a file, or the standard input, as one text. -/
  | classify (path : Option String) (asJson : Bool)
  | repl (quiet : Bool)
  deriving DecidableEq, Repr

/-- What the program is asked to do. -/
structure Invocation where
  task : Task
  limits : Limits
  /-- The number of `-v` flags. -/
  verbose : Nat
  deriving DecidableEq, Repr

namespace CommandLine

/-- An argument by its looks. -/
inductive Argument where
  | longOption (name : String) (value : Option String)
  | letters (letters : List Char)
  | operand (text : String)
  | endOfOptions
  deriving DecidableEq, Repr

def Argument.ofText (text : String) : Argument :=
  match text.toList with
  | ['-', '-'] => .endOfOptions
  | '-' :: '-' :: body =>
    let name := body.takeWhile (· != '=')
    .longOption (String.ofList name) ((body.drop name.length).tail?.map String.ofList)
  | '-' :: first :: rest => .letters (first :: rest)
  | _ => .operand text

/-- What the arguments of one level say. -/
structure Options where
  verbose : Nat := 0
  maxTokens : Option Nat := none
  maxNesting : Option Nat := none
  switches : List String := []
  operands : List String := []
  deriving DecidableEq, Repr

namespace Options

def addOperand (options : Options) (text : String) : Options := { options with operands := options.operands ++ [text] }

def addVerbose (options : Options) (count : Nat) : Options := { options with verbose := options.verbose + count }

/-- A switch may be given once. -/
def addSwitch? (options : Options) (name : String) : Option Options :=
  if options.switches.contains name then none else some { options with switches := name :: options.switches }

/-- An option with a number may be given once. -/
def addNumber? (options : Options) (name text : String) : Option Options := do
  let value ← Text.count? text.toList
  if name = "max-tokens" ∧ options.maxTokens.isNone then some { options with maxTokens := some value }
  else if name = "max-nesting" ∧ options.maxNesting.isNone then some { options with maxNesting := some value }
  else none

def takesNumber (name : String) : Bool := name == "max-tokens" || name == "max-nesting"

/-- Reads arguments, all of them or up to the first operand, and answers what is left. -/
def read? (upToOperand : Bool) (options : Options) : List String → Option (Options × List String)
  | [] => some (options, [])
  | text :: rest =>
    match Argument.ofText text with
    | .operand text =>
      if upToOperand then some (options, text :: rest) else read? upToOperand (options.addOperand text) rest
    | .endOfOptions =>
      if upToOperand then none else some ({ options with operands := options.operands ++ rest }, [])
    | .letters letters =>
      if letters.all (· == 'v') then read? upToOperand (options.addVerbose letters.length) rest else none
    | .longOption name value =>
      if takesNumber name then
        match value, rest with
        | some value, rest => do read? upToOperand (← options.addNumber? name value) rest
        | none, value :: rest => do read? upToOperand (← options.addNumber? name value) rest
        | none, [] => none
      else if value.isSome then none
      else if name = "verbose" then read? upToOperand (options.addVerbose 1) rest
      else do read? upToOperand (← options.addSwitch? name) rest

end Options

/-- The task of the given name, with the options behind it. -/
def task? (name : String) (options : Options) : Option Task :=
  if name = "classify" ∧ options.switches.all (· == "json") then
    match options.operands with
    | [] => some (.classify none (options.switches.contains "json"))
    | [path] => if path.isEmpty then none else some (.classify (some path) (options.switches.contains "json"))
    | _ => none
  else if name = "repl" ∧ options.switches.all (· == "quiet") ∧ options.operands.isEmpty then
    some (.repl (options.switches.contains "quiet"))
  else none

/-- The invocation that the arguments stand for, if they make sense. -/
def parse? (arguments : List String) : Option Invocation := do
  let (before, rest) ← Options.read? true {} arguments
  match rest with
  | [] => none
  | name :: rest =>
    let (after, _) ← Options.read? false {} rest
    let task ← task? name after
    let standard : Limits := {}
    let limits : Limits :=
      { maxTokens := (after.maxTokens.or before.maxTokens).getD standard.maxTokens
        maxNesting := (after.maxNesting.or before.maxNesting).getD standard.maxNesting }
    let verbose := if after.verbose = 0 then before.verbose else after.verbose
    if before.switches.isEmpty then some { task := task, limits := limits, verbose := verbose } else none

def usage : String :=
  "usage: [-v] [--max-tokens N] [--max-nesting N] classify [FILE] [--json]\n" ++
    "       [-v] [--max-tokens N] [--max-nesting N] repl [--quiet]"

end CommandLine

end GoPrompt
