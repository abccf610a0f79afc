import GoPrompt.Parse.Stream

/-! Parsing is a computation over the token stream that can fail in two ways: the text ends where the
grammar needs more of it, or something is wrong with the text. Nothing is ever tried and taken back,
so the state of a failed parse tells where it failed. -/

namespace GoPrompt

inductive Failure where
  | needMoreInput (error : ParseError)
  | rejected (error : ParseError)
  deriving DecidableEq, Repr

structure ParseState where
  stream : TokenStream
  /-- The nesting depth in use. Every level gives back its depth, except the one that hits the limit. -/
  depth : Nat := 0
  /-- The span of the last consumed token. -/
  lastSpan : Span := Span.point 0 0

namespace ParseState

def remaining (state : ParseState) : Nat := state.stream.remaining

end ParseState

abbrev Parse := EStateM Failure ParseState

namespace Parse

variable {α β : Type}

/-- A computation on the token stream alone. -/
def onStream (operation : TokenStream → Except ParseError α × TokenStream) : Parse α := fun state =>
  match operation state.stream with
  | (.ok value, stream) => .ok value { state with stream := stream }
  | (.error error, stream) => .error (.rejected error) { state with stream := stream }

def peek (index : Nat) : Parse (Option Token) := onStream fun stream => stream.peek index

def peekKind (index : Nat) : Parse (Option TokenKind) := do return (← peek index).map (·.kind)

def peekOperator (index : Nat) : Parse (Option Operator) := do return (← peek index).bind (·.operator?)

/-- Fails because the text ends here. -/
def endOfInput (expected : List String) : Parse α := do
  throw (.needMoreInput (.unexpectedEndOfInput (← get).stream.endSpan expected))

/-- Fails because of a token. The semicolon inserted at the end of the input is no text of its own:
when the grammar cannot use it, it wants more input. -/
def unexpected (token : Token) (expected : List String) : Parse α := do
  match token.kind with
  | .semicolon .endOfInput =>
    modify fun state => { state with stream := state.stream.noteEnd }
    throw (.needMoreInput (.unexpectedEndOfInput token.span expected))
  | .illegal =>
    match (← get).stream.invalidDiagnostic? token with
    | some diagnostic => throw (.rejected (.invalidToken token diagnostic))
    | none => throw (.rejected (.internalInvariant "illegal token without lexer diagnostic" token.span))
  | _ => throw (.rejected (.unexpectedToken token expected))

/-- Fails because of whatever comes next. -/
def rejectNext (expected : List String) : Parse α := do
  match ← peek 0 with
  | some token => unexpected token expected
  | none => endOfInput expected

/-- Consumes the next token. -/
def bump : Parse Unit := do
  match ← onStream TokenStream.next with
  | some token => modify fun state => { state with lastSpan := token.span }
  | none => endOfInput ["token"]

def atOperator (operator : Operator) : Parse Bool := do return (← peekOperator 0) == some operator

def atKeyword (keyword : Keyword) : Parse Bool := do return (← peekKind 0) == some (.keyword keyword)

def isSemicolon : TokenKind → Bool
  | .semicolon _ => true
  | _ => false

def atSemicolon : Parse Bool := do return (← peekKind 0).any isSemicolon

/-- Consumes the next token if it is this operator, and says whether it is. -/
def eatOperator (operator : Operator) : Parse Bool := do
  if ← atOperator operator then
    bump
    return true
  else return false

def expect (accepts : TokenKind → Bool) (expected : List String) : Parse Unit := do
  match ← peek 0 with
  | some token => if accepts token.kind then bump else unexpected token expected
  | none => endOfInput expected

def expectOperator (operator : Operator) : Parse Unit := expect (· == .operator operator) [operator.lexeme]

def expectKeyword (keyword : Keyword) : Parse Unit := expect (· == .keyword keyword) [keyword.lexeme]

def expectName : Parse Unit := expect (· == .identifier) ["name"]

def expectSemicolon (expected : List String) : Parse Unit := expect isSemicolon expected

/-- The span from `start` to the last consumed token. -/
def spanFrom (start : Span) : Parse Span := do return start.merge (← get).lastSpan

/-- Whether a repetition goes on, and with what. -/
inductive Turn (α β : Type) where
  | again (value : α)
  | done (value : β)

/-- Repeats a computation until it is done. Every turn that goes on consumes a token, which is why the
repetition ends; one that does not is a fault. -/
def iterate (turn : α → Parse (Turn α β)) (value : α) (state : ParseState) : EStateM.Result Failure ParseState β :=
  match turn value state with
  | .ok (.done result) after => .ok result after
  | .ok (.again next) after =>
    if after.remaining < state.remaining then iterate turn next after
    else .error (.rejected (.internalInvariant "repetition without progress" none)) after
  | .error failure after => .error failure after
termination_by state.remaining

/-- Repeats a computation until it answers that it is done. -/
def repeatUntil (isDone : Parse Bool) : Parse Unit :=
  iterate (fun () => do return if ← isDone then .done () else .again ()) ()

end Parse

end GoPrompt
