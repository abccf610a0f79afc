import GoPrompt.Proofs.Lexical.Lexes
import GoPrompt.Parse.Stream

/-! A token stream as a place among the tokens of its text. The tokens are numbered from zero; a stream
that reads from a number on has that token ahead, and has given the grammar no token that is illegal. -/

namespace GoPrompt

/-- The token with a number among the steps of the lexer. -/
def tokenAt (steps : List LexStep) (number : Nat) : Option Token := steps[number]?.bind LexStep.token?

/-- Whether the end of the input cuts off the token with a number. -/
def CutsOff (steps : List LexStep) (number : Nat) : Prop :=
  ∃ token cutoff, steps[number]? = some (.truncated token cutoff)

private theorem tokenAt_eq_none {steps : List LexStep} {scanned number : Nat} (behind : scanned ≤ number)
    (without : ∀ step ∈ steps.drop scanned, step.token? = none) : tokenAt steps number = none := by
  unfold tokenAt
  cases there : steps[number]? with
  | none => rfl
  | some step =>
    refine without step (List.mem_of_getElem? (i := number - scanned) ?_)
    rw [List.getElem?_drop, Nat.add_sub_cancel' behind]
    exact there

theorem tokenAt_eq_some {steps : List LexStep} {number : Nat} {token : Token} :
    tokenAt steps number = some token ↔ ∃ step, steps[number]? = some step ∧ step.token? = some token :=
  Option.bind_eq_some_iff

namespace TokenStream

/-- A stream that has given out the first `number` tokens. -/
structure Placed (steps : List LexStep) (limit number : Nat) (stream : TokenStream) : Prop where
  budget : stream.maxTokens = limit
  within : stream.scanned ≤ limit
  count : stream.scanned = number + stream.lookahead.length
  ahead : ∀ index token, stream.lookahead[index]? = some token → tokenAt steps (number + index) = some token
  running : stream.exhausted = false → stream.lexer.Sound ∧ stream.lexer.Lexes (steps.drop stream.scanned)
  ended : stream.exhausted = true → ∀ later, stream.scanned ≤ later → tokenAt steps later = none
  explained : ∀ token ∈ stream.lookahead, token.kind = .illegal → (stream.invalidDiagnostic? token).isSome = true
  uncut : stream.exhausted = false → ∀ step ∈ steps.take stream.scanned, step.cutoff? = none
  tail : stream.tail = if stream.exhausted then steps.getLast?.bind LexStep.cutoff? else none

/-- A stream that has given the grammar the first `number` tokens, none of them illegal. -/
structure Reading (steps : List LexStep) (limit number : Nat) (stream : TokenStream) : Prop
    extends stream.Placed steps limit number where
  legal : ∀ earlier token, earlier < number → tokenAt steps earlier = some token → token.kind ≠ .illegal

section

variable {steps : List LexStep} {limit number : Nat} {stream : TokenStream} {token : Token}

theorem Reading.consumed (reading : stream.Reading steps limit number) : stream.consumed = number := by
  have := reading.count
  simp only [TokenStream.consumed]
  omega

theorem Reading.remaining (reading : stream.Reading steps limit number) : stream.remaining = limit - number := by
  simp only [TokenStream.remaining, reading.budget, reading.consumed]

theorem Reading.remaining_lt {before after : TokenStream} {reached : Nat} (reading : before.Reading steps limit number)
    (later : after.Reading steps limit reached) (further : number < reached) : after.remaining < before.remaining := by
  have count := later.count
  have within := later.within
  rw [reading.remaining, later.remaining]
  omega

private theorem invalidDiagnostic?_cons {entry : Span × LexDiagnostic}
    (known : (stream.invalidDiagnostic? token).isSome = true) :
    (({ stream with invalid := entry :: stream.invalid } : TokenStream).invalidDiagnostic? token).isSome = true := by
  simp only [invalidDiagnostic?, List.find?_cons] at known ⊢
  split
  next => rfl
  next => exact known

/-- At the end of the tokens, fetching finds out that they end. -/
theorem Reading.fetch_ended (reading : stream.Reading steps limit number) (running : stream.exhausted = false)
    (without : tokenAt steps stream.scanned = none) :
    ∃ after, stream.fetch = (.ok (), after) ∧ after.Reading steps limit number ∧ after.exhausted = true ∧
      after.lookahead = stream.lookahead := by
  obtain ⟨sound, lexes⟩ := reading.running running
  have ended : ∀ {tail : Option Cutoff} {lexer : Lexer}, (∀ step ∈ steps.drop stream.scanned, step.token? = none) →
      tail = steps.getLast?.bind LexStep.cutoff? →
      ({ stream with lexer := lexer, tail := tail, exhausted := true } : TokenStream).Reading steps limit number :=
    fun without cut => { reading with
      running := fun running => by cases running
      ended := fun _ later behind => tokenAt_eq_none behind without
      uncut := fun running => by cases running
      tail := cut }
  have parts := List.take_append_drop stream.scanned steps
  generalize left : steps.drop stream.scanned = later at lexes ended
  cases lexes with
  | @ended _ lexer reads =>
    have fetched : stream.fetch = (.ok (), { stream with lexer := lexer, exhausted := true }) := by
      simp only [fetch, reads.next sound]
    refine ⟨_, fetched, ended (fun _ mem => absurd mem List.not_mem_nil) ?_, rfl, rfl⟩
    rw [left, List.append_nil] at parts
    rw [reading.tail, running]
    cases last : steps.getLast? with
    | none => rfl
    | some step => exact (reading.uncut running step (parts.symm ▸ List.mem_of_getLast? last)).symm
  | @comment _ lexer cutoff reads =>
    have fetched : stream.fetch = (.ok (), { stream with lexer := lexer, tail := some cutoff, exhausted := true }) := by
      simp only [fetch, reads.next sound]
    refine ⟨_, fetched, ended (fun _ mem => ?_) ?_, rfl, rfl⟩
    · rw [List.mem_singleton.mp mem]
      rfl
    · rw [← parts, left, List.getLast?_concat]
      rfl
  | @more _ _ step _ reads goesOn =>
    obtain ⟨token, isToken⟩ := LexStep.token?_of_goesOn goesOn
    have there : steps[stream.scanned]? = some step := by
      have first : (steps.drop stream.scanned)[0]? = some step := by rw [left]; rfl
      rwa [List.getElem?_drop] at first
    rw [tokenAt, there, Option.bind_some, isToken] at without
    cases without

/-- The stream with one more token ahead. -/
theorem Reading.extend (reading : stream.Reading steps limit number) {lexer : Lexer} {entries : List (Span × LexDiagnostic)}
    {exhausted : Bool} {tail : Option Cutoff} (there : tokenAt steps stream.scanned = some token)
    (room : stream.scanned < limit)
    (running : exhausted = false → lexer.Sound ∧ lexer.Lexes (steps.drop (stream.scanned + 1)))
    (ended : exhausted = true → ∀ later, stream.scanned + 1 ≤ later → tokenAt steps later = none)
    (known : ∀ token, (stream.invalidDiagnostic? token).isSome = true →
      (({ stream with invalid := entries } : TokenStream).invalidDiagnostic? token).isSome = true)
    (explained : token.kind = .illegal →
      (({ stream with invalid := entries } : TokenStream).invalidDiagnostic? token).isSome = true)
    (uncut : exhausted = false → ∀ step ∈ steps.take (stream.scanned + 1), step.cutoff? = none)
    (cut : tail = if exhausted then steps.getLast?.bind LexStep.cutoff? else none) :
    ({ stream with
        lexer := lexer
        lookahead := stream.lookahead ++ [token]
        exhausted := exhausted
        tail := tail
        invalid := entries
        scanned := stream.scanned + 1 } : TokenStream).Reading steps limit number where
  budget := reading.budget
  within := room
  count := by
    have := reading.count
    simp only [List.length_append, List.length_singleton]
    omega
  ahead index found there' := by
    have count := reading.count
    rcases Nat.lt_or_ge index stream.lookahead.length with inside | behind
    · rw [List.getElem?_append_left inside] at there'
      exact reading.ahead index found there'
    · rw [List.getElem?_append_right behind] at there'
      obtain ⟨last, rfl⟩ : index - stream.lookahead.length = 0 ∧ token = found := by
        simpa [List.getElem?_singleton] using there'
      rwa [show number + index = stream.scanned by omega]
  running := running
  ended := ended
  explained found mem illegal := by
    rcases List.mem_append.mp mem with old | new
    · exact known found (reading.explained found old illegal)
    · obtain rfl := List.mem_singleton.mp new
      exact explained illegal
  legal := reading.legal
  uncut := uncut
  tail := cut

private theorem Reading.next_step (reading : stream.Reading steps limit number) (running : stream.exhausted = false)
    (there : tokenAt steps stream.scanned = some token) :
    ∃ step lexer, steps[stream.scanned]? = some step ∧ step.token? = some token ∧
    stream.lexer.next = (.ok step, lexer) ∧
      stream.lexer.Reads step lexer ∧ step.endsInput = false ∧ lexer.Sound ∧
      lexer.Lexes (steps.drop (stream.scanned + 1)) := by
  obtain ⟨sound, lexes⟩ := reading.running running
  obtain ⟨step, isNext, isToken⟩ := tokenAt_eq_some.mp there
  obtain ⟨inside, here⟩ := List.getElem?_eq_some_iff.mp isNext
  rw [List.drop_eq_getElem_cons inside, here] at lexes
  generalize left : steps.drop (stream.scanned + 1) = behind at lexes
  cases lexes with
  | comment => cases isToken
  | @more _ lexer _ _ reads goesOn later =>
    exact ⟨step, lexer, isNext, isToken, reads.next sound, reads, goesOn, reads.sound sound, left ▸ later⟩

private theorem Reading.fetch_full (reading : stream.Reading steps limit number) (running : stream.exhausted = false)
    (there : tokenAt steps stream.scanned = some token) (full : limit ≤ stream.scanned) :
    ∃ after, stream.fetch = (.error (.tokenLimitExceeded limit token.span), after) := by
  obtain ⟨step, lexer, -, isToken, next, -, goesOn, -⟩ := reading.next_step running there
  cases step with
  | incomplete | endOfInput => cases goesOn
  | token | truncated | invalid =>
    obtain rfl := Option.some.inj isToken
    simp only [fetch, next, push, full, ↓reduceIte, reading.budget]
    exact ⟨_, rfl⟩

private theorem Reading.uncut_more {step : LexStep} (reading : stream.Reading steps limit number)
    (running : stream.exhausted = false) (isNext : steps[stream.scanned]? = some step) (whole : step.cutoff? = none) :
    ∀ found ∈ steps.take (stream.scanned + 1), found.cutoff? = none := by
  intro found mem
  rw [List.take_add_one, isNext] at mem
  rcases List.mem_append.mp mem with earlier | last
  · exact reading.uncut running found earlier
  · obtain rfl := List.mem_singleton.mp last
    exact whole

/-- A token for which the budget has room is fetched. -/
private theorem Reading.fetch_room (reading : stream.Reading steps limit number) (running : stream.exhausted = false)
    (there : tokenAt steps stream.scanned = some token) (room : stream.scanned < limit) :
    ∃ after, stream.fetch = (.ok (), after) ∧ after.Reading steps limit number ∧
      after.lookahead = stream.lookahead ++ [token] ∧ (after.exhausted = true → CutsOff steps stream.scanned) := by
  obtain ⟨step, lexer, isNext, isToken, next, reads, goesOn, ahead⟩ := reading.next_step running there
  have kind := reads.kind
  have notFull : ¬ stream.maxTokens ≤ stream.scanned := reading.budget ▸ Nat.not_le_of_lt room
  have open' : ∀ {result : Prop}, stream.exhausted = true → result := fun exhausted => by
    rw [running] at exhausted
    cases exhausted
  cases step with
  | incomplete | endOfInput => cases goesOn
  | token found =>
    obtain rfl : token = found := (Option.some.inj isToken).symm
    have fetched : stream.fetch = (.ok (), { stream with
        lexer := lexer, lookahead := stream.lookahead ++ [token], scanned := stream.scanned + 1 }) := by
      simp only [fetch, next, push, notFull, ↓reduceIte]
    exact ⟨_, fetched, reading.extend there room (fun _ => ahead) open' (fun _ known => known)
      (fun illegal => absurd illegal kind) (fun _ => reading.uncut_more running isNext rfl) reading.tail, rfl, open'⟩
  | truncated found cutoff =>
    obtain rfl : token = found := (Option.some.inj isToken).symm
    have fetched : stream.fetch = (.ok (), { stream with
        lexer := lexer, lookahead := stream.lookahead ++ [token], scanned := stream.scanned + 1,
        tail := some cutoff, exhausted := true }) := by
      simp only [fetch, next, push, notFull, ↓reduceIte]
    -- The text ends with the token, so no other token comes behind it.
    obtain ⟨empty, unarmed⟩ := reads.truncated_ends
    have last : steps.drop (stream.scanned + 1) = [] := ahead.2.eq_nil empty unarmed
    refine ⟨_, fetched, reading.extend there room (fun running => by cases running) (fun _ later behind => ?_)
      (fun _ known => known) (fun illegal => ?_) (fun running => by cases running) ?_, rfl,
      fun _ => ⟨token, cutoff, isNext⟩⟩
    · exact tokenAt_eq_none behind (by simp [last])
    · obtain ⟨literal, isLiteral⟩ := kind
      rw [isLiteral] at illegal
      cases illegal
    · have inside := (List.getElem?_eq_some_iff.mp isNext).1
      have length : steps.length = stream.scanned + 1 := Nat.le_antisymm (List.drop_eq_nil_iff.mp last) inside
      rw [List.getLast?_eq_getElem?, length, Nat.add_sub_cancel, isNext]
      rfl
  | invalid found diagnostic =>
    obtain rfl : token = found := (Option.some.inj isToken).symm
    have fetched : stream.fetch = (.ok (), { stream with
        lexer := lexer, lookahead := stream.lookahead ++ [token], scanned := stream.scanned + 1,
        invalid := (token.span, diagnostic) :: stream.invalid }) := by
      simp only [fetch, next, push, notFull, ↓reduceIte]
    refine ⟨_, fetched, reading.extend there room (fun _ => ahead) open' (fun _ => invalidDiagnostic?_cons)
      (fun _ => ?_) (fun _ => reading.uncut_more running isNext rfl) reading.tail, rfl, open'⟩
    simp [invalidDiagnostic?]

/-- A token is fetched if the budget has room for it. -/
theorem Reading.fetch_found (reading : stream.Reading steps limit number) (running : stream.exhausted = false)
    (there : tokenAt steps stream.scanned = some token) :
    (limit ≤ stream.scanned ∧ ∃ after, stream.fetch = (.error (.tokenLimitExceeded limit token.span), after)) ∨
      (stream.scanned < limit ∧ ∃ after, stream.fetch = (.ok (), after) ∧ after.Reading steps limit number ∧
        after.lookahead = stream.lookahead ++ [token] ∧ (after.exhausted = true → CutsOff steps stream.scanned)) := by
  rcases Nat.lt_or_ge stream.scanned limit with room | full
  · exact .inr ⟨room, reading.fetch_room running there room⟩
  · exact .inl ⟨full, reading.fetch_full running there full⟩

end

end TokenStream

end GoPrompt
