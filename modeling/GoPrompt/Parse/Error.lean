import GoPrompt.Lexical.Diagnostic
import GoPrompt.Token.Basic

/-! Why a parse does not succeed. A fault says nothing about the syntax of the text: a budget is used up,
or the text cannot be scanned. -/

namespace GoPrompt

inductive ParseErrorKind where
  | unexpectedToken
  | invalidToken
  | unexpectedEndOfInput
  | tokenLimitExceeded
  | nestingLimitExceeded
  | lookaheadExceeded
  | malformedInput
  | internalInvariant
  deriving DecidableEq, Repr

namespace ParseErrorKind

def isFault : ParseErrorKind → Bool
  | .unexpectedToken | .invalidToken | .unexpectedEndOfInput => false
  | .tokenLimitExceeded | .nestingLimitExceeded | .lookaheadExceeded | .malformedInput | .internalInvariant => true

end ParseErrorKind

structure ParseError where
  kind : ParseErrorKind
  span : Option Span
  /-- What could have stood here, for budgets the budget. -/
  expected : List String
  found : Option String
  lexical : Option LexDiagnostic := none
  deriving DecidableEq, Repr

namespace ParseError

def isFault (error : ParseError) : Bool := error.kind.isFault

def unexpectedToken (token : Token) (expected : List String) : ParseError :=
  { kind := .unexpectedToken, span := some token.span, expected := expected, found := some token.describe }

def invalidToken (token : Token) (diagnostic : LexDiagnostic) : ParseError :=
  { kind := .invalidToken, span := some token.span, expected := [], found := some token.lexeme,
    lexical := some diagnostic }

def unexpectedEndOfInput (span : Span) (expected : List String) : ParseError :=
  { kind := .unexpectedEndOfInput, span := some span, expected := expected, found := some "EOF" }

def tokenLimitExceeded (limit : Nat) (span : Span) : ParseError :=
  { kind := .tokenLimitExceeded, span := some span, expected := [s!"at most {limit} tokens"], found := none }

def nestingLimitExceeded (limit : Nat) (span : Option Span) : ParseError :=
  { kind := .nestingLimitExceeded, span := span, expected := [s!"nesting depth <= {limit}"], found := none }

def lookaheadExceeded (requested limit : Nat) : ParseError :=
  { kind := .lookaheadExceeded, span := none, expected := [s!"lookahead <= {limit}"],
    found := some s!"lookahead {requested}" }

def internalInvariant (message : String) (span : Option Span) : ParseError :=
  { kind := .internalInvariant, span := span, expected := [], found := some message }

/-- A text that cannot be scanned. -/
def ofLexFault (fault : LexFault) : ParseError :=
  { kind :=
      match fault with
      | .malformed _ => .malformedInput
      | .invariant _ | .stalled _ => .internalInvariant
    span := some fault.diagnostic.span
    expected := []
    found := some fault.diagnostic.message
    lexical := some fault.diagnostic }

def message (error : ParseError) : String :=
  match error.kind with
  | .invalidToken | .malformedInput => error.lexical.elim "invalid token" (·.message)
  | .unexpectedToken | .unexpectedEndOfInput =>
    let unexpected := "syntax error: unexpected " ++ error.found.getD "EOF"
    if error.expected.isEmpty then unexpected
    else unexpected ++ ", expected " ++ String.intercalate " or " error.expected
  | .tokenLimitExceeded => "token limit exceeded (" ++ String.intercalate ", " error.expected ++ ")"
  | .nestingLimitExceeded => "nesting limit exceeded (" ++ String.intercalate ", " error.expected ++ ")"
  | .lookaheadExceeded =>
    error.found.getD "lookahead" ++ " exceeds supported " ++ String.intercalate ", " error.expected
  | .internalInvariant => "internal invariant violated: " ++ error.found.getD "unknown"

end ParseError

end GoPrompt
