import GoPrompt.Grammar.TopLevel

/-! How a parsing computation runs. A sequence runs its second part where the first one ended, and a
failure ends it. -/

namespace GoPrompt.Parse

variable {α β : Type} {program : Parse α} {state reached : ParseState}

theorem bind_ok {next : α → Parse β} {value : α} (ran : program state = .ok value reached) :
    (program >>= next) state = next value reached := by
  show EStateM.bind program next state = _
  simp only [EStateM.bind, ran]

theorem bind_error {next : α → Parse β} {failure : Failure} (ran : program state = .error failure reached) :
    (program >>= next) state = .error failure reached := by
  show EStateM.bind program next state = _
  simp only [EStateM.bind, ran]

theorem of_bind_ok {next : α → Parse β} {result : β} (ran : (program >>= next) state = .ok result reached) :
    ∃ value middle, program state = .ok value middle ∧ next value middle = .ok result reached := by
  cases first : program state with
  | ok value middle =>
    rw [bind_ok first] at ran
    exact ⟨value, middle, rfl, ran⟩
  | error failure middle =>
    rw [bind_error first] at ran
    cases ran

theorem bind_congr_left {other : Parse α} {next : α → Parse β} (same : program state = other state) :
    (program >>= next) state = (other >>= next) state := by
  show EStateM.bind program next state = EStateM.bind other next state
  simp only [EStateM.bind, same]

theorem map_ok {f : α → β} {value : α} (ran : program state = .ok value reached) :
    (f <$> program) state = .ok (f value) reached := by
  show EStateM.map f program state = _
  simp only [EStateM.map, ran]

theorem map_error {f : α → β} {failure : Failure} (ran : program state = .error failure reached) :
    (f <$> program) state = .error failure reached := by
  show EStateM.map f program state = _
  simp only [EStateM.map, ran]

theorem onStream_ok {operation : TokenStream → Except ParseError α × TokenStream} {value : α} {stream : TokenStream}
    (ran : operation state.stream = (.ok value, stream)) :
    onStream operation state = .ok value { state with stream := stream } := by
  simp only [onStream, ran]

theorem onStream_error {operation : TokenStream → Except ParseError α × TokenStream} {error : ParseError}
    {stream : TokenStream} (ran : operation state.stream = (.error error, stream)) :
    onStream operation state = .error (.rejected error) { state with stream := stream } := by
  simp only [onStream, ran]

theorem of_onStream_ok {operation : TokenStream → Except ParseError α × TokenStream} {value : α}
    (ran : onStream operation state = .ok value reached) : operation state.stream = (.ok value, reached.stream) := by
  unfold onStream at ran
  split at ran
  next answered =>
    cases ran
    exact answered
  next => cases ran

/-- A failure because of a token is none to go on from. -/
theorem unexpected_ne_ok (token : Token) (expected : List String) (value : α) :
    (unexpected token expected : Parse α) state ≠ .ok value reached := by
  intro ran
  cases kind : token.kind with
  | semicolon origin => cases origin <;> simp only [unexpected, kind] at ran <;> cases ran
  | illegal =>
    simp only [unexpected, kind] at ran
    obtain ⟨found, _, -, ran⟩ := of_bind_ok ran
    cases known : found.stream.invalidDiagnostic? token <;> simp only [known] at ran <;> cases ran
  | identifier | keyword | literal | operator =>
    simp only [unexpected, kind] at ran
    cases ran

theorem bump_some {token : Token} {stream : TokenStream} (taken : state.stream.next = (.ok (some token), stream)) :
    bump state = .ok () { state with stream := stream, lastSpan := token.span } := by
  unfold bump
  rw [bind_ok (onStream_ok taken)]
  rfl

section repetition

variable {turn : α → Parse (Turn α β)} {value : α}

theorem iterate_error {failure : Failure} (ran : turn value state = .error failure reached) :
    iterate turn value state = .error failure reached := by
  rw [iterate, ran]

theorem iterate_done {result : β} (ran : turn value state = .ok (.done result) reached) :
    iterate turn value state = .ok result reached := by
  rw [iterate, ran]

theorem iterate_again {next : α} (ran : turn value state = .ok (.again next) reached)
    (progress : reached.remaining < state.remaining) : iterate turn value state = iterate turn next reached := by
  rw [iterate, ran]
  exact if_pos progress

theorem iterate_stuck {next : α} (ran : turn value state = .ok (.again next) reached)
    (stuck : ¬ reached.remaining < state.remaining) :
    iterate turn value state =
      .error (.rejected (.internalInvariant "repetition without progress" none)) reached := by
  rw [iterate, ran]
  exact if_neg stuck

end repetition

end GoPrompt.Parse
