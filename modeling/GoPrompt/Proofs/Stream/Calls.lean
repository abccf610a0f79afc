import GoPrompt.Parse.Stream
import GoPrompt.Proofs.Lexical.Lexes

/-! Everything that a fetch can do. It takes one step of the lexer; the step fails, brings a token for which the budget
has room or has none, or says that the text ends.

The calls that a reader makes of a stream. It looks ahead or takes the next token, and goes on with the stream as a call
leaves it, also when the call has failed. -/

namespace GoPrompt

def LexStep.tokens (steps : List LexStep) : List Token := steps.filterMap token?

/-- What a stream notes at the side of an illegal token. -/
def LexStep.flaws : LexStep → List (Span × LexDiagnostic)
  | .invalid read diagnostic => [(read.span, diagnostic)]
  | .token _ | .truncated .. | .incomplete _ | .endOfInput => []

namespace TokenStream

/-- The stream with one more token ahead, which a step of the lexer has brought. -/
def withFound (stream : TokenStream) (step : LexStep) (token : Token) (lexer : Lexer) : TokenStream :=
  { stream with
    lexer := lexer
    lookahead := stream.lookahead ++ [token]
    exhausted := step.cutoff?.isSome || stream.exhausted
    tail := step.cutoff?.or stream.tail
    invalid := step.flaws ++ stream.invalid
    scanned := stream.scanned + 1 }

/-- The stream at the end of its text, which a step of the lexer has found. -/
def withEnd (stream : TokenStream) (step : LexStep) (lexer : Lexer) : TokenStream :=
  { stream with lexer := lexer, exhausted := true, tail := step.cutoff?.or stream.tail }

/-- The stream without a token that a step of the lexer has brought and the budget refuses. The token is lost, for the
lexer has gone on behind it. -/
def withRefused (stream : TokenStream) (step : LexStep) (lexer : Lexer) : TokenStream :=
  { stream with lexer := lexer, invalid := step.flaws ++ stream.invalid }

/-- The result of a fetch, and the stream behind it. -/
inductive Fetches (stream : TokenStream) : Except ParseError Unit × TokenStream → Prop
  | fault {fault : LexFault} {lexer : Lexer} (answered : stream.lexer.next = (.error fault, lexer)) :
      Fetches stream (.error (.ofLexFault fault), { stream with lexer := lexer })
  | refused {step : LexStep} {token : Token} {lexer : Lexer} (answered : stream.lexer.next = (.ok step, lexer))
      (isToken : step.token? = some token) (full : stream.maxTokens ≤ stream.scanned) :
      Fetches stream (.error (.tokenLimitExceeded stream.maxTokens token.span), stream.withRefused step lexer)
  | found {step : LexStep} {token : Token} {lexer : Lexer} (answered : stream.lexer.next = (.ok step, lexer))
      (isToken : step.token? = some token) (room : stream.scanned < stream.maxTokens) :
      Fetches stream (.ok (), stream.withFound step token lexer)
  | ended {step : LexStep} {lexer : Lexer} (answered : stream.lexer.next = (.ok step, lexer))
      (ends : step.endsInput = true) :
      Fetches stream (.ok (), stream.withEnd step lexer)

theorem fetch_fetches (stream : TokenStream) : stream.Fetches stream.fetch := by
  rcases answered : stream.lexer.next with ⟨result, lexer⟩
  cases result with
  | error fault =>
    simp only [fetch, answered]
    exact .fault answered
  | ok step =>
    cases step with
    | incomplete | endOfInput =>
      simp only [fetch, answered]
      exact .ended answered rfl
    | token token | invalid token | truncated token =>
      by_cases full : stream.maxTokens ≤ stream.scanned
      · simp only [fetch, answered, push, full, ↓reduceIte]
        exact .refused answered rfl full
      · simp only [fetch, answered, push, full, ↓reduceIte]
        exact .found answered rfl (Nat.lt_of_not_le full)

theorem Fetches.eq {stream : TokenStream} {outcome : Except ParseError Unit × TokenStream}
    (fetches : stream.Fetches outcome) :
    stream.fetch = outcome := by
  cases fetches with
  | fault answered => simp only [fetch, answered]
  | @refused step _ _ answered isToken full =>
    cases step with
    | token | truncated | invalid =>
      cases isToken
      simp only [fetch, answered, push, full, ↓reduceIte]
      rfl
    | incomplete | endOfInput => cases isToken
  | @found step _ _ answered isToken room =>
    have notFull := Nat.not_le.mpr room
    cases step with
    | token | truncated | invalid =>
      cases isToken
      simp only [fetch, answered, push, notFull, ↓reduceIte]
      rfl
    | incomplete | endOfInput => cases isToken
  | @ended step _ answered ends =>
    cases step with
    | incomplete | endOfInput =>
      simp only [fetch, answered]
      rfl
    | token | truncated | invalid => cases ends

end TokenStream

inductive StreamCall where
  | peek (index : Nat)
  | next
  deriving DecidableEq, Repr

namespace StreamCall

/-- How far behind the next token a call looks. -/
def reach : StreamCall → Nat
  | peek index => index
  | next => 0

/-- The tokens that the reader has taken, by the answers to its calls. -/
def taken : List StreamCall → List (Except ParseError (Option Token)) → List Token
  | next :: calls, .ok (some token) :: answers => token :: taken calls answers
  | _ :: calls, _ :: answers => taken calls answers
  | _, _ => []

theorem taken_concat {calls : List StreamCall} {answers : List (Except ParseError (Option Token))}
    (length : answers.length = calls.length) (call : StreamCall) (answer : Except ParseError (Option Token)) :
    taken (calls ++ [call]) (answers ++ [answer]) = taken calls answers ++ taken [call] [answer] := by
  induction calls generalizing answers with
  | nil =>
    obtain rfl := List.length_eq_zero_iff.mp length
    rfl
  | cons first calls ih =>
    cases answers with
    | nil => cases length
    | cons given answers =>
      have later := ih (Nat.succ.inj length)
      cases first with
      | peek => exact later
      | next =>
        match given with
        | .ok (some token) => exact congrArg (token :: ·) later
        | .ok none | .error _ => exact later

end StreamCall

namespace TokenStream

def serve (stream : TokenStream) : StreamCall → Except ParseError (Option Token) × TokenStream
  | .peek index => stream.peek index
  | .next => stream.next

/-- The answers to calls made one after the other, and the stream behind them. -/
def serveAll : List StreamCall → TokenStream → List (Except ParseError (Option Token)) × TokenStream
  | [], stream => ([], stream)
  | call :: calls, stream =>
    let (answer, after) := stream.serve call
    let (answers, last) := serveAll calls after
    (answer :: answers, last)

theorem serveAll_cons (call : StreamCall) (calls : List StreamCall) (stream : TokenStream) :
    serveAll (call :: calls) stream =
      ((stream.serve call).1 :: (serveAll calls (stream.serve call).2).1, (serveAll calls (stream.serve call).2).2) :=
  rfl

/-- The stream that a call leaves, once the tokens are ahead that it needs. -/
def settle (stream : TokenStream) : StreamCall → TokenStream
  | .peek index => if index = 0 ∧ stream.lookahead.isEmpty then stream.noteEnd else stream
  | .next =>
    match stream.lookahead with
    | [] => stream.noteEnd
    | token :: later =>
      { stream with
        lookahead := later
        openDelimiters := delimitersAfter token.kind stream.openDelimiters
        lastConsumed := some token.kind }

section

variable {stream filled : TokenStream} (call : StreamCall)

theorem serve_filled (near : call.reach ≤ maxLookahead) (isFilled : stream.fillTo call.reach = (.ok (), filled)) :
    stream.serve call = (.ok filled.lookahead[call.reach]?, filled.settle call) := by
  cases call with
  | peek index =>
    have near : ¬ maxLookahead < index := Nat.not_lt.mpr near
    simp only [StreamCall.reach] at isFilled ⊢
    simp only [serve, peek, settle, if_neg near, isFilled]
    split <;> rfl
  | next =>
    simp only [StreamCall.reach] at isFilled ⊢
    simp only [serve, next, settle, isFilled]
    split <;> simp_all [noteEnd]

theorem serve_unfilled {error : ParseError} (near : call.reach ≤ maxLookahead)
    (isFilled : stream.fillTo call.reach = (.error error, filled)) : stream.serve call = (.error error, filled) := by
  cases call with
  | peek index =>
    have near : ¬ maxLookahead < index := Nat.not_lt.mpr near
    simp only [StreamCall.reach] at isFilled
    simp only [serve, peek, if_neg near, isFilled]
  | next =>
    simp only [StreamCall.reach] at isFilled
    simp only [serve, next, isFilled]

theorem serve_far (far : maxLookahead < call.reach) :
    stream.serve call = (.error (.lookaheadExceeded call.reach maxLookahead), stream) := by
  cases call with
  | peek index => exact if_pos far
  | next => exact absurd far (Nat.not_lt_zero _)

/-- Whatever a call comes to: it looks too far, the tokens that it needs cannot be fetched, or they are ahead. -/
theorem serve_cases (stream : TokenStream) :
    stream.serve call = (.error (.lookaheadExceeded call.reach maxLookahead), stream) ∨
    (∃ error filled, stream.fillTo call.reach = (.error error, filled) ∧ stream.serve call = (.error error, filled)) ∨
    ∃ filled, stream.fillTo call.reach = (.ok (), filled) ∧
      stream.serve call = (.ok filled.lookahead[call.reach]?, filled.settle call) := by
  by_cases near : call.reach ≤ maxLookahead
  · rcases fills : stream.fillTo call.reach with ⟨result, filled⟩
    cases result with
    | error error => exact .inr (.inl ⟨error, filled, rfl, serve_unfilled call near fills⟩)
    | ok => exact .inr (.inr ⟨filled, rfl, serve_filled call near fills⟩)
  · exact .inl (serve_far call (Nat.lt_of_not_le near))

end

/-- A look ahead changes nothing of a stream but that it notes an end. -/
private theorem settle_peek (stream : TokenStream) (index : Nat) :
    stream.settle (.peek index) = stream ∨ stream.settle (.peek index) = stream.noteEnd := by
  dsimp only [settle]
  split
  next => exact .inr rfl
  next => exact .inl rfl

theorem of_peek {stream after : TokenStream} {index : Nat} {found : Option Token}
    (peeked : stream.peek index = (.ok found, after)) :
    ∃ filled, stream.fillTo index = (.ok (), filled) ∧ found = after.lookahead[index]? ∧
      (after = filled ∨ after = filled.noteEnd) := by
  obtain served | ⟨_, _, -, served⟩ | ⟨filled, fills, served⟩ := serve_cases (.peek index) stream
  · cases peeked.symm.trans served
  · cases peeked.symm.trans served
  · cases peeked.symm.trans served
    obtain same | same := filled.settle_peek index <;> rw [same]
    · exact ⟨filled, fills, rfl, .inl rfl⟩
    · exact ⟨filled, fills, rfl, .inr rfl⟩

/-- What every fetch keeps is kept until no tokens are missing. -/
theorem fill_keeps (kept : TokenStream → Prop) (fetched : ∀ {stream}, kept stream → kept stream.fetch.2) (missing : Nat)
    {stream : TokenStream} (holds : kept stream) : kept (fill missing stream).2 := by
  fun_induction fill missing stream with
  | case1 | case2 => exact holds
  | case3 _ _ _ between fetches further =>
    have := fetched holds
    rw [fetches] at this
    exact further this
  | case4 => exact fetched holds

/-- What every fetch keeps, and the note of an end, is kept by a look ahead. -/
theorem peek_keeps (kept : TokenStream → Prop) (fetched : ∀ {stream}, kept stream → kept stream.fetch.2)
    (noted : ∀ {stream}, kept stream → kept stream.noteEnd) (index : Nat) {stream : TokenStream} (holds : kept stream) :
    kept (stream.peek index).2 := by
  have filled : kept (stream.fillTo index).2 := fill_keeps kept fetched _ holds
  obtain served | ⟨_, _, fills, served⟩ | ⟨_, fills, served⟩ := serve_cases (.peek index) stream <;>
    rw [show stream.peek index = _ from served]
  · exact holds
  · rwa [show stream.fillTo index = _ from fills] at filled
  · rw [show stream.fillTo index = _ from fills] at filled
    dsimp only
    obtain same | same := settle_peek _ index <;> rw [same]
    · exact filled
    · exact noted filled

theorem fetch_lookahead (stream : TokenStream) : stream.lookahead <+: stream.fetch.2.lookahead := by
  have fetches := stream.fetch_fetches
  generalize stream.fetch = outcome at fetches ⊢
  cases fetches with
  | fault | refused | ended => exact List.prefix_refl _
  | found => exact List.prefix_append _ _

theorem peek_lookahead {stream after : TokenStream} {index : Nat} {found : Option Token}
    (peeked : stream.peek index = (.ok found, after)) :
    stream.lookahead <+: after.lookahead ∧ found = after.lookahead[index]? := by
  have longer : stream.lookahead <+: (stream.peek index).2.lookahead :=
    peek_keeps (stream.lookahead <+: ·.lookahead) (·.trans (fetch_lookahead _)) id index (List.prefix_refl _)
  obtain ⟨_, -, there, -⟩ := of_peek peeked
  rw [peeked] at longer
  exact ⟨longer, there⟩

/-- What a call can fail with. -/
inductive CallFails : ParseError → Prop
  | fault (fault : LexFault) : CallFails (.ofLexFault fault)
  | refused (limit : Nat) (span : Span) : CallFails (.tokenLimitExceeded limit span)
  | tooFar (reach : Nat) : CallFails (.lookaheadExceeded reach maxLookahead)

section

variable {stream after : TokenStream} {error : ParseError}

private theorem fetch_fails (failed : stream.fetch = (.error error, after)) : CallFails error := by
  have fetches := stream.fetch_fetches
  rw [failed] at fetches
  cases fetches with
  | fault => exact .fault _
  | refused => exact .refused _ _

private theorem fill_fails {missing : Nat} (failed : fill missing stream = (.error error, after)) : CallFails error := by
  fun_induction fill missing stream with
  | case1 | case2 => cases failed
  | case3 _ _ _ _ _ further => exact further failed
  | case4 => exact fetch_fails failed

theorem serve_fails (call : StreamCall) (failed : stream.serve call = (.error error, after)) : CallFails error := by
  obtain served | ⟨_, _, fills, served⟩ | ⟨_, _, served⟩ := serve_cases call stream <;> cases failed.symm.trans served
  · exact .tooFar _
  · exact fill_fails fills

theorem CallFails.isFault (fails : CallFails error) : error.isFault = true := by
  cases fails with
  | fault fault => cases fault <;> rfl
  | refused | tooFar => rfl

theorem CallFails.not_nesting (fails : CallFails error) : error.kind ≠ .nestingLimitExceeded := by
  cases fails with
  | fault fault => cases fault <;> exact nofun
  | refused | tooFar => exact nofun

end

end TokenStream

end GoPrompt
