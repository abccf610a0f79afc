import GoPrompt.Proofs.Lexical.InStep
import GoPrompt.Proofs.Stream.Budgets
import GoPrompt.Proofs.Stream.Calls
import GoPrompt.Proofs.Stream.Steps

/-! Streams over texts whose lexers are in step. They have the same kinds of tokens ahead and know the same of the ends
of their texts, and whatever is asked of both leaves them so, whether or not it fails. -/

namespace GoPrompt

namespace ParseError

/-- An error without its place and the text that it blames. -/
def outline (error : ParseError) : ParseErrorKind × List String := (error.kind, error.expected)

/-- Whether the text could not be scanned any further. -/
def StopsScan (error : ParseError) : Prop := error.isFault = true ∧ error.lexical.isSome = true

private theorem ofLexFault_stopsScan (fault : LexFault) : (ofLexFault fault).StopsScan := by
  cases fault <;> exact ⟨rfl, rfl⟩

theorem isFault_of_outline {error error' : ParseError} (same : error.outline = error'.outline) :
    error.isFault = error'.isFault :=
  congrArg (fun outline : ParseErrorKind × List String => outline.1.isFault) same

end ParseError

private theorem LexStep.endsInput_of_token? {step : LexStep} (noToken : step.token? = none) :
    step.endsInput = true := by
  cases step with
  | token | truncated | invalid => cases noToken
  | incomplete | endOfInput => rfl

namespace TokenStream

/-- The stream has a diagnostic for every illegal token that it has ahead. -/
def Explains (stream : TokenStream) : Prop :=
  ∀ token ∈ stream.lookahead, token.kind = .illegal → (stream.invalidDiagnostic? token).isSome = true

/-- Streams whose next tokens are of the same kinds, and those behind them, too, as far as both lexers are in step. So
many tokens have been taken from both. -/
structure Twin (beyond : Prop) (own number : Nat) (first second : TokenStream) :
    Prop extends first.SameGiven second where
  counted : first.Counted own number
  ahead : first.lookahead.map (·.kind) = second.lookahead.map (·.kind)
  exhausted : first.exhausted = second.exhausted
  tail : first.tail.map (·.construct) = second.tail.map (·.construct)
  observedEnd : first.observedEnd = second.observedEnd
  scanned : first.scanned = second.scanned
  maxTokens : first.maxTokens = second.maxTokens
  explains : first.Explains
  explains' : second.Explains
  inStep : first.lexer.InStep beyond second.lexer

/-- What an operation comes to on two such streams. Behind a failure they are still twins, unless a lexer has failed and
nothing is known of what comes `beyond`. -/
inductive Meets (beyond : Prop) (own : Nat) {α : Type} (post : α → α → TokenStream → TokenStream → Prop) :
    Except ParseError α × TokenStream → Except ParseError α × TokenStream → Prop
  | ok {value value' : α} {after after' : TokenStream} (holds : post value value' after after') :
      Meets beyond own post (.ok value, after) (.ok value', after')
  | error {error error' : ParseError} {after after' : TokenStream} (same : error.outline = error'.outline)
      (twin : (error.StopsScan → beyond) → ∃ number, after.Twin beyond own number after') :
      Meets beyond own post (.error error, after) (.error error', after')

section

variable {beyond : Prop} {own number : Nat} {stream first second : TokenStream} {step step' : LexStep}
  {token token' : Token} {lexer lexer' : Lexer}

private theorem invalidDiagnostic?_append (flaws : List (Span × LexDiagnostic))
    (known : (stream.invalidDiagnostic? token).isSome = true) :
    (({ stream with invalid := flaws ++ stream.invalid } : TokenStream).invalidDiagnostic? token).isSome = true := by
  rw [invalidDiagnostic?, Option.isSome_map] at known ⊢
  rw [List.find?_append, Option.isSome_or, known, Bool.or_true]

theorem Explains.withFound (explains : stream.Explains) (answered : stream.lexer.next = (.ok step, lexer))
    (isToken : step.token? = some token) : (stream.withFound step token lexer).Explains := by
  intro other mem illegal
  rcases List.mem_append.mp mem with earlier | here
  · exact invalidDiagnostic?_append step.flaws (explains other earlier illegal)
  · obtain rfl := List.mem_singleton.mp here
    have shown := (Lexer.Reads.of_next answered).kind
    cases step with
    | invalid =>
      cases isToken
      simp only [invalidDiagnostic?, TokenStream.withFound, LexStep.flaws, List.singleton_append,
        List.find?_cons, beq_self_eq_true]
      rfl
    | token =>
      cases isToken
      exact absurd illegal shown
    | truncated =>
      cases isToken
      obtain ⟨kind, literal⟩ := shown
      cases literal.symm.trans illegal
    | incomplete | endOfInput => cases isToken

theorem Twin.kind_at (twin : first.Twin beyond own number second) (index : Nat) :
    first.lookahead[index]?.map (·.kind) = second.lookahead[index]?.map (·.kind) := by
  rw [← List.getElem?_map, ← List.getElem?_map, twin.ahead]

theorem Twin.length (twin : first.Twin beyond own number second) :
    first.lookahead.length = second.lookahead.length := by
  have same := congrArg List.length twin.ahead
  rwa [List.length_map, List.length_map] at same

theorem Twin.remaining (twin : first.Twin beyond own number second) :
    first.remaining = own - number ∧ second.remaining = own - number := by
  have same : second.remaining = first.remaining := by
    simp only [TokenStream.remaining, TokenStream.consumed, twin.maxTokens, twin.scanned, twin.length]
  exact ⟨twin.counted.remaining, same.trans twin.counted.remaining⟩

theorem Twin.tails (twin : first.Twin beyond own number second) : (first.tail = none ∧ second.tail = none) ∨
    ∃ cutoff cutoff', first.tail = some cutoff ∧ second.tail = some cutoff' ∧ cutoff.construct = cutoff'.construct := by
  have constructs := twin.tail
  cases isTail : first.tail with
  | none =>
    rw [isTail, eq_comm, Option.map_none, Option.map_eq_none_iff] at constructs
    exact .inl ⟨rfl, constructs⟩
  | some cutoff =>
    rw [isTail, eq_comm, Option.map_some, Option.map_eq_some_iff] at constructs
    obtain ⟨cutoff', isTail', same⟩ := constructs
    exact .inr ⟨cutoff, cutoff', rfl, isTail', same.symm⟩

theorem Twin.pendingReason (twin : first.Twin beyond own number second) : first.pendingReason = second.pendingReason :=
  twin.toSameGiven.pendingReason twin.tail

theorem Twin.noteEnd (twin : first.Twin beyond own number second) :
    first.noteEnd.Twin beyond own number second.noteEnd :=
  { twin with
    observedEnd := rfl
    counted := ⟨twin.counted.budget, twin.counted.count, twin.counted.within⟩ }

theorem Twin.found (twin : first.Twin beyond own number second) (answered : first.lexer.next = (.ok step, lexer))
    (answered' : second.lexer.next = (.ok step', lexer')) (isToken : step.token? = some token)
    (isToken' : step'.token? = some token') (same : step.outline = step'.outline)
    (room : first.scanned < first.maxTokens) (inStep : lexer.InStep beyond lexer') :
    (first.withFound step token lexer).Twin beyond own number (second.withFound step' token' lexer') := by
  have kind : token.kind = token'.kind := by
    have kinds := LexStep.kind_of_outline same
    rw [isToken, isToken'] at kinds
    exact Option.some.inj kinds
  have constructs := LexStep.construct_of_outline same
  have counted := fetch_counted twin.counted
  rw [(Fetches.found answered isToken room).eq] at counted
  refine ⟨⟨twin.openDelimiters, twin.lastConsumed⟩, counted, ?_, ?_, ?_, twin.observedEnd,
    congrArg (· + 1) twin.scanned, twin.maxTokens, twin.explains.withFound answered isToken,
    twin.explains'.withFound answered' isToken', inStep⟩
  · simp only [withFound, List.map_append, List.map_singleton, twin.ahead, kind]
  · have cut := congrArg Option.isSome constructs
    rw [Option.isSome_map, Option.isSome_map] at cut
    simp only [withFound, twin.exhausted, cut]
  · simp only [withFound, Option.map_or, constructs, twin.tail]

theorem Twin.ended (twin : first.Twin beyond own number second) (same : step.outline = step'.outline)
    (inStep : lexer.InStep beyond lexer') :
    (first.withEnd step lexer).Twin beyond own number (second.withEnd step' lexer') :=
  { twin with
    counted := ⟨twin.counted.budget, twin.counted.count, twin.counted.within⟩
    exhausted := rfl
    tail := by simp only [withEnd, Option.map_or, LexStep.construct_of_outline same, twin.tail]
    inStep := inStep }

theorem Twin.refused (twin : first.Twin beyond own number second) (step step' : LexStep)
    (inStep : lexer.InStep beyond lexer') :
    (first.withRefused step lexer).Twin beyond own number (second.withRefused step' lexer') :=
  { twin with
    counted := ⟨twin.counted.budget, twin.counted.count, twin.counted.within⟩
    explains := fun other mem illegal => invalidDiagnostic?_append step.flaws (twin.explains other mem illegal)
    explains' := fun other mem illegal => invalidDiagnostic?_append step'.flaws (twin.explains' other mem illegal)
    inStep := inStep }

theorem Twin.fetch (twin : first.Twin beyond own number second) :
    Meets beyond own (fun _ _ after after' => after.Twin beyond own number after') first.fetch second.fetch := by
  have same := twin.inStep.first
  have later := twin.inStep.later
  rcases answered : first.lexer.next with ⟨answer, lexer⟩
  rcases answered' : second.lexer.next with ⟨answer', lexer'⟩
  rw [answered, answered'] at same later
  cases answer with
  | error fault =>
    cases answer' with
    | ok => cases same
    | error fault' =>
      rw [(Fetches.fault answered).eq, (Fetches.fault answered').eq]
      refine .error (Prod.ext (Except.error.inj same) rfl) fun goesOn => ⟨number, ?_⟩
      exact { twin with
        counted := ⟨twin.counted.budget, twin.counted.count, twin.counted.within⟩
        inStep := later (.inr (goesOn (ParseError.ofLexFault_stopsScan fault))) }
  | ok step =>
    cases answer' with
    | error => cases same
    | ok step' =>
      have same : step.outline = step'.outline := Except.ok.inj same
      have kinds := LexStep.kind_of_outline same
      have inStep := later (.inl rfl)
      -- Equal outlines have a token on both sides or on neither, and the budgets have the same room for it.
      cases isToken : step.token? with
      | none =>
        cases isToken' : step'.token? with
        | some => simp [isToken, isToken'] at kinds
        | none =>
          rw [(Fetches.ended answered (LexStep.endsInput_of_token? isToken)).eq,
            (Fetches.ended answered' (LexStep.endsInput_of_token? isToken')).eq]
          exact .ok (twin.ended same inStep)
      | some token =>
        cases isToken' : step'.token? with
        | none => simp [isToken, isToken'] at kinds
        | some token' =>
          by_cases room : first.scanned < first.maxTokens
          · have room' : second.scanned < second.maxTokens := by rwa [← twin.scanned, ← twin.maxTokens]
            rw [(Fetches.found answered isToken room).eq, (Fetches.found answered' isToken' room').eq]
            exact .ok (twin.found answered answered' isToken isToken' same room inStep)
          · have full := Nat.le_of_not_lt room
            have full' : second.maxTokens ≤ second.scanned := by rwa [← twin.scanned, ← twin.maxTokens]
            rw [(Fetches.refused answered isToken full).eq, (Fetches.refused answered' isToken' full').eq]
            exact .error (by rw [twin.maxTokens]; rfl) fun _ => ⟨number, twin.refused step step' inStep⟩

theorem Twin.fill (twin : first.Twin beyond own number second) (missing : Nat) :
    Meets beyond own (fun _ _ after after' => after.Twin beyond own number after') (fill missing first)
      (fill missing second) := by
  induction missing generalizing first second with
  | zero => exact .ok twin
  | succ missing ih =>
    unfold TokenStream.fill
    rw [twin.exhausted]
    split
    next => exact .ok twin
    next =>
      have fetched := twin.fetch
      generalize first.fetch = outcome at fetched ⊢
      generalize second.fetch = outcome' at fetched ⊢
      cases fetched with
      | ok fetched => exact ih fetched
      | error same twin => exact .error same twin

theorem Twin.fillTo (twin : first.Twin beyond own number second) (index : Nat) :
    Meets beyond own (fun _ _ after after' => after.Twin beyond own number after') (first.fillTo index)
      (second.fillTo index) := by
  unfold TokenStream.fillTo
  rw [twin.length]
  exact twin.fill _

theorem Twin.peek (twin : first.Twin beyond own number second) (index : Nat) :
    Meets beyond own (fun found found' after after' => after.Twin beyond own number after' ∧
      after.lookahead[index]? = found ∧ after'.lookahead[index]? = found') (first.peek index) (second.peek index) := by
  by_cases near : index ≤ maxLookahead
  · have fills := twin.fillTo index
    rcases isFilled : first.fillTo index with ⟨result, filled⟩
    rcases isFilled' : second.fillTo index with ⟨result', filled'⟩
    rw [isFilled, isFilled'] at fills
    cases fills with
    | error same twin =>
      rw [show first.peek index = _ from serve_unfilled (.peek index) near isFilled,
        show second.peek index = _ from serve_unfilled (.peek index) near isFilled']
      exact .error same twin
    | ok twin =>
      rw [show first.peek index = _ from serve_filled (.peek index) near isFilled,
        show second.peek index = _ from serve_filled (.peek index) near isFilled']
      have empty : filled.lookahead.isEmpty = filled'.lookahead.isEmpty := by
        rw [← List.isEmpty_map (f := (·.kind)), twin.ahead, List.isEmpty_map]
      refine .ok ?_
      simp only [settle, empty]
      split
      next => exact ⟨twin.noteEnd, rfl, rfl⟩
      next => exact ⟨twin, rfl, rfl⟩
  · have far := Nat.lt_of_not_le near
    rw [show first.peek index = _ from serve_far (.peek index) far,
      show second.peek index = _ from serve_far (.peek index) far]
    exact .error rfl fun _ => ⟨number, twin⟩

theorem Twin.take (twin : first.Twin beyond own number second) {later later' : List Token}
    (front : first.lookahead = token :: later) (front' : second.lookahead = token' :: later') :
    ∃ after after', first.next = (.ok (some token), after) ∧ second.next = (.ok (some token'), after') ∧
      after.Twin beyond own (number + 1) after' ∧ after.lookahead = later ∧ after'.lookahead = later' := by
  have kinds := twin.ahead
  rw [front, front', List.map_cons, List.map_cons, List.cons.injEq] at kinds
  have count := twin.counted.count
  rw [front, List.length_cons] at count
  refine ⟨_, _, next_given front, next_given front', ?_, rfl, rfl⟩
  exact { twin with
    counted := ⟨twin.counted.budget, by simp only; omega, twin.counted.within⟩
    ahead := kinds.2
    openDelimiters := by rw [kinds.1, twin.openDelimiters]
    lastConsumed := congrArg some kinds.1
    explains := fun other mem => twin.explains other (front ▸ List.mem_cons_of_mem _ mem)
    explains' := fun other mem => twin.explains' other (front' ▸ List.mem_cons_of_mem _ mem) }

theorem Twin.next (twin : first.Twin beyond own number second) :
    Meets beyond own (fun found found' after after' => found.map (·.kind) = found'.map (·.kind) ∧
      after.Twin beyond own (number + found.toList.length) after') first.next second.next := by
  have fills := twin.fillTo 0
  rcases isFilled : first.fillTo 0 with ⟨result, filled⟩
  rcases isFilled' : second.fillTo 0 with ⟨result', filled'⟩
  rw [isFilled, isFilled'] at fills
  cases fills with
  | error same twin =>
    rw [show first.next = _ from serve_unfilled .next (Nat.zero_le _) isFilled,
      show second.next = _ from serve_unfilled .next (Nat.zero_le _) isFilled']
    exact .error same twin
  | ok twin =>
    rw [show first.next = _ from serve_filled .next (Nat.zero_le _) isFilled,
      show second.next = _ from serve_filled .next (Nat.zero_le _) isFilled']
    refine .ok ⟨twin.kind_at 0, ?_⟩
    have length := twin.length
    simp only [settle, StreamCall.reach]
    cases front : filled.lookahead with
    | nil =>
      rw [front] at length
      rw [List.length_eq_zero_iff.mp length.symm]
      exact twin.noteEnd
    | cons token later =>
      cases front' : filled'.lookahead with
      | nil => simp [front, front'] at length
      | cons token' later' =>
        obtain ⟨_, _, took, took', twin, -, -⟩ := twin.take front front'
        cases (next_given front).symm.trans took
        cases (next_given front').symm.trans took'
        exact twin

end

end TokenStream

end GoPrompt
