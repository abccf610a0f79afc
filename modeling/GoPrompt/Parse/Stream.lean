import GoPrompt.Lexical.Lexer
import GoPrompt.Parse.Error
import GoPrompt.Parse.Pending
import GoPrompt.Text.Numeral

/-! The tokens of a text with a bounded lookahead and a bound on their number. A token that the end of
the input cuts off, or that can never be valid, comes like any other, with its diagnostic kept at the
side. The stream also follows the open delimiters and the last token among those consumed, to say
why a text is not complete. -/

namespace GoPrompt

/-- How many tokens beyond the next one can be looked at. -/
def maxLookahead : Nat := 3

/-- The bound for streams that have none. -/
def unlimitedTokens : Nat := Text.maxCount

structure TokenStream where
  text : List Char
  lexer : Lexer
  lookahead : List Token := []
  exhausted : Bool := false
  /-- The literal or comment that the end of the input cuts off. -/
  tail : Option Cutoff := none
  /-- The diagnostics of illegal tokens, the last one first. -/
  invalid : List (Span × LexDiagnostic) := []
  observedEnd : Bool := false
  scanned : Nat := 0
  maxTokens : Nat := unlimitedTokens
  /-- The open delimiters among the consumed tokens, the innermost first. -/
  openDelimiters : List Operator := []
  lastConsumed : Option TokenKind := none

namespace TokenStream

def ofText (text : List Char) (maxTokens : Nat) : TokenStream where
  text := text
  lexer := Lexer.ofText 0 text
  maxTokens := maxTokens

/-- The number of tokens that have been consumed. -/
def consumed (stream : TokenStream) : Nat := stream.scanned - stream.lookahead.length

/-- How many more tokens may be consumed: a bound for every loop over the tokens. -/
def remaining (stream : TokenStream) : Nat := stream.maxTokens - stream.consumed

def push (stream : TokenStream) (token : Token) : Except ParseError Unit × TokenStream :=
  if stream.maxTokens ≤ stream.scanned then (.error (.tokenLimitExceeded stream.maxTokens token.span), stream)
  else (.ok (), { stream with scanned := stream.scanned + 1, lookahead := stream.lookahead ++ [token] })

/-- Takes one step of the lexer. -/
def fetch (stream : TokenStream) : Except ParseError Unit × TokenStream :=
  let (result, lexer) := stream.lexer.next
  let stream := { stream with lexer := lexer }
  match result with
  | .error fault => (.error (.ofLexFault fault), stream)
  | .ok (.token token) => stream.push token
  | .ok (.truncated token cutoff) =>
    match stream.push token with
    | (.ok (), pushed) => (.ok (), { pushed with tail := some cutoff, exhausted := true })
    | failed => failed
  | .ok (.invalid token diagnostic) => { stream with invalid := (token.span, diagnostic) :: stream.invalid }.push token
  | .ok (.incomplete cutoff) => (.ok (), { stream with tail := some cutoff, exhausted := true })
  | .ok .endOfInput => (.ok (), { stream with exhausted := true })

/-- Fetches up to `missing` tokens, as many as there are. -/
def fill : Nat → TokenStream → Except ParseError Unit × TokenStream
  | 0, stream => (.ok (), stream)
  | missing + 1, stream =>
    if stream.exhausted then (.ok (), stream)
    else
      match stream.fetch with
      | (.ok (), fetched) => fill missing fetched
      | failed => failed

/-- Makes the token at an index of the lookahead available, if there is one. -/
def fillTo (stream : TokenStream) (index : Nat) : Except ParseError Unit × TokenStream :=
  fill (index + 1 - stream.lookahead.length) stream

/-- The token at an index of the lookahead. Only a missing next token counts as an observed end. -/
def peek (stream : TokenStream) (index : Nat) : Except ParseError (Option Token) × TokenStream :=
  if maxLookahead < index then (.error (.lookaheadExceeded index maxLookahead), stream)
  else
    match stream.fillTo index with
    | (.error error, filled) => (.error error, filled)
    | (.ok (), filled) =>
      let noted := if index = 0 ∧ filled.lookahead.isEmpty then { filled with observedEnd := true } else filled
      (.ok noted.lookahead[index]?, noted)

/-- The open delimiters after one more token. A closing delimiter closes the innermost open one, of
whichever kind. -/
def delimitersAfter (kind : TokenKind) (delimiters : List Operator) : List Operator :=
  match kind with
  | .operator operator =>
    if operator.isOpener then operator :: delimiters
    else if operator.isCloser then delimiters.tail
    else delimiters
  | _ => delimiters

/-- Consumes the next token. -/
def next (stream : TokenStream) : Except ParseError (Option Token) × TokenStream :=
  match stream.fillTo 0 with
  | (.error error, filled) => (.error error, filled)
  | (.ok (), filled) =>
    match filled.lookahead with
    | [] => (.ok none, { filled with observedEnd := true })
    | token :: later =>
      (.ok (some token),
        { filled with
          lookahead := later
          openDelimiters := delimitersAfter token.kind filled.openDelimiters
          lastConsumed := some token.kind })

/-- Records that the grammar asks for input past the end. -/
def noteEnd (stream : TokenStream) : TokenStream := { stream with observedEnd := true }

def invalidDiagnostic? (stream : TokenStream) (token : Token) : Option LexDiagnostic :=
  (stream.invalid.find? fun entry => entry.1 == token.span).map (·.2)

/-- Why the stream cannot give the parser what it asks for. -/
def pendingReason (stream : TokenStream) : PendingReason :=
  match stream.tail with
  | some cutoff => .cutOff cutoff.construct
  | none =>
    match stream.openDelimiters.head?.bind PendingReason.ofOpenDelimiter? with
    | some reason => reason
    | none => .ofLastToken stream.lastConsumed

/-- The place just behind the text. -/
def endSpan (stream : TokenStream) : Span := Span.point 0 (clampOffset (byteSize stream.text))

end TokenStream

end GoPrompt
