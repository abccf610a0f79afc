import GoPrompt.Proofs.Lexical.Reads
import GoPrompt.Proofs.Stream.Steps
import GoPrompt.Proofs.Syntax.Delimiters

/-! The tokens that a stream has given away are the first ones of its text, in order. This holds of every text, whether
or not it can be scanned to its end. -/

namespace GoPrompt

namespace Lexer

/-- The first tokens of a text: as many as asked for, or fewer if the text ends before or cannot be scanned. -/
def tokens : Nat → Lexer → List Token
  | 0, _ => []
  | count + 1, lexer =>
    match lexer.next with
    | (.error _, _) => []
    | (.ok step, after) =>
      match step.token? with
      | none => []
      | some token => token :: tokens count after

/-- A lexer that gives the tokens one after the other, and the lexer that it is then. -/
inductive Gives : Lexer → List Token → Lexer → Prop
  | none (lexer : Lexer) : Gives lexer [] lexer
  | more {lexer between last : Lexer} {step : LexStep} {token : Token} {later : List Token}
      (answered : lexer.next = (.ok step, between)) (isToken : step.token? = some token)
      (gives : Gives between later last) :
      Gives lexer (token :: later) last

variable {lexer last : Lexer} {given : List Token}

theorem Gives.concat (gives : lexer.Gives given last) {after : Lexer} {step : LexStep} {token : Token}
    (answered : last.next = (.ok step, after)) (isToken : step.token? = some token) :
    lexer.Gives (given ++ [token]) after := by
  induction gives with
  | none => exact .more answered isToken (.none after)
  | more answered' isToken' _ ih => exact .more answered' isToken' (ih answered)

theorem Gives.tokens (gives : lexer.Gives given last) {count : Nat} (within : count ≤ given.length) :
    lexer.tokens count = given.take count := by
  induction gives generalizing count with
  | none =>
    obtain rfl := Nat.le_zero.mp within
    rfl
  | more answered isToken _ ih =>
    cases count with
    | zero => rfl
    | succ count => simp only [Lexer.tokens, answered, isToken, ih (Nat.le_of_succ_le_succ within), List.take_succ_cons]

/-- A lexer that comes to the end of its text, or to a comment that is open there, has given all tokens of it. -/
theorem Gives.all (gives : lexer.Gives given last) {step : LexStep} {after : Lexer}
    (answered : last.next = (.ok step, after)) (ends : step.endsInput = true) :
    ∃ steps, lexer.steps.1 = .ok steps ∧ steps.filterMap LexStep.token? = given := by
  have stops : ∀ {steps : List LexStep}, steps = (if step = .endOfInput then [] else [step]) →
      steps.filterMap LexStep.token? = [] := by
    rintro _ rfl
    cases step with
    | incomplete | endOfInput => rfl
    | token | truncated | invalid => cases ends
  induction gives with
  | none lexer =>
    refine ⟨_, ?_, stops rfl⟩
    unfold Lexer.steps
    split
    next failed => cases answered.symm.trans failed
    next reached answered' =>
      cases answered.symm.trans answered'
      have notMore : ¬ step.endsInput = false := fun more => by cases ends.symm.trans more
      rw [dif_neg notMore]
  | @more lexer between last found token later answered' isToken _ ih =>
    obtain ⟨steps, rest, same⟩ := ih answered
    have goesOn : found.endsInput = false := by cases found <;> first | rfl | cases isToken
    refine ⟨found :: steps, ?_, by rw [List.filterMap_cons_some isToken, same]⟩
    unfold Lexer.steps
    split
    next failed => cases answered'.symm.trans failed
    next stepped =>
      cases answered'.symm.trans stepped
      rw [dif_pos goesOn]
      dsimp only
      rw [rest]
      rfl

theorem Gives.steps (gives : lexer.Gives given last) {after : Lexer} (ended : last.next = (.ok .endOfInput, after)) :
    ∃ steps, lexer.steps.1 = .ok steps ∧ steps.filterMap LexStep.token? = given := gives.all ended rfl

end Lexer

namespace TokenStream

/-- The stream has given away these tokens, and those ahead come next in its text. -/
structure Gave (stream : TokenStream) (taken : List Token) : Prop where
  count : stream.scanned = taken.length + stream.lookahead.length
  gives : ∃ last, (Lexer.ofText 0 stream.text).Gives (taken ++ stream.lookahead) last

/-- The stream also goes on where these tokens end, as long as nothing has kept it from doing so. -/
structure Traces (stream : TokenStream) (taken : List Token) : Prop where
  count : stream.scanned = taken.length + stream.lookahead.length
  gives : ∃ last, (Lexer.ofText 0 stream.text).Gives (taken ++ stream.lookahead) last ∧
    (stream.exhausted = false → last = stream.lexer) ∧
      (stream.exhausted = true → stream.tail = none → last.next = (.ok .endOfInput, stream.lexer))

variable {stream after : TokenStream} {taken : List Token}

theorem Gave.consumed (gave : stream.Gave taken) : stream.consumed = taken.length := by
  have := gave.count
  simp only [TokenStream.consumed]
  omega

theorem Gave.tokens (gave : stream.Gave taken) {count : Nat} (within : count ≤ stream.consumed) :
    (Lexer.ofText 0 stream.text).tokens count = taken.take count := by
  obtain ⟨last, gives⟩ := gave.gives
  rw [gave.consumed] at within
  rw [gives.tokens (Nat.le_trans within (by simp)), List.take_append_of_le_length within]

theorem Traces.gave (traces : stream.Traces taken) : stream.Gave taken := by
  obtain ⟨last, gives, -⟩ := traces.gives
  exact ⟨traces.count, last, gives⟩

theorem ofText_traces (text : List Char) (maxTokens : Nat) : (ofText text maxTokens).Traces [] :=
  ⟨rfl, _, .none _, fun _ => rfl, nofun⟩

private theorem Gave.traces_of_cut (gave : stream.Gave taken) (exhausted : stream.exhausted = true)
    (cut : stream.tail.isSome = true) :
    stream.Traces taken := by
  obtain ⟨last, gives⟩ := gave.gives
  refine ⟨gave.count, last, gives, fun running => ?_, fun _ whole => ?_⟩
  · cases running.symm.trans exhausted
  · rw [whole] at cut
    cases cut

/-- A fetch adds the next token of the text, finds its end, or leaves the tokens as they are. -/
theorem Traces.fetch (traces : stream.Traces taken) (running : stream.exhausted = false)
    {result : Except ParseError Unit} (fetched : stream.fetch = (result, after)) :
    after.Gave taken ∧ (result = .ok () → after.Traces taken) := by
  obtain ⟨last, gives, isLexer, -⟩ := traces.gives
  obtain rfl := isLexer running
  have fetches := stream.fetch_fetches
  rw [fetched] at fetches
  cases fetches with
  | fault | refused => exact ⟨⟨traces.count, _, gives⟩, nofun⟩
  | @found step token lexer answered isToken =>
    have more := gives.concat answered isToken
    rw [List.append_assoc] at more
    have count : stream.scanned + 1 = taken.length + (stream.lookahead ++ [token]).length := by
      rw [List.length_append, List.length_singleton, traces.count, Nat.add_assoc]
    have gave : (stream.withFound step token lexer).Gave taken := ⟨count, _, more⟩
    refine ⟨gave, fun _ => ?_⟩
    cases cut : step.cutoff? with
    | some cutoff => exact gave.traces_of_cut (by simp [withFound, cut]) (by simp [withFound, cut])
    | none =>
      refine ⟨count, _, more, fun _ => rfl, fun exhausted => ?_⟩
      simp [withFound, cut, running] at exhausted
  | @ended step lexer answered ends =>
    have gave : (stream.withEnd step lexer).Gave taken := ⟨traces.count, _, gives⟩
    refine ⟨gave, fun _ => ?_⟩
    cases step with
    | token | truncated | invalid => cases ends
    | incomplete => exact gave.traces_of_cut rfl rfl
    | endOfInput => exact ⟨gave.count, _, gives, nofun, fun _ _ => answered⟩

theorem Traces.fill (traces : stream.Traces taken) {missing : Nat} {result : Except ParseError Unit}
    (filled : fill missing stream = (result, after)) : after.Gave taken ∧ (result = .ok () → after.Traces taken) := by
  fun_induction TokenStream.fill missing stream with
  | case1 | case2 =>
    cases filled
    exact ⟨traces.gave, fun _ => traces⟩
  | case3 _ _ running _ fetched further =>
    exact further ((traces.fetch (Bool.eq_false_iff.mpr running) fetched).2 rfl) filled
  | case4 _ _ running => exact traces.fetch (Bool.eq_false_iff.mpr running) filled

theorem Traces.noteEnd (traces : stream.Traces taken) : stream.noteEnd.Traces taken := ⟨traces.count, traces.gives⟩

theorem Traces.peek (traces : stream.Traces taken) {index : Nat} {result : Except ParseError (Option Token)}
    (peeked : stream.peek index = (result, after)) :
    after.Gave taken ∧ ∀ found, result = .ok found → after.Traces taken ∧ found = after.lookahead[index]? := by
  cases result with
  | error error =>
    obtain served | ⟨_, _, fills, served⟩ | ⟨_, _, served⟩ := serve_cases (.peek index) stream <;>
      cases peeked.symm.trans served
    · exact ⟨traces.gave, nofun⟩
    · exact ⟨(traces.fill fills).1, nofun⟩
  | ok found =>
    obtain ⟨filled, fills, there, same⟩ := of_peek peeked
    have further : after.Traces taken := by
      rcases same with rfl | rfl
      · exact (traces.fill fills).2 rfl
      · exact ((traces.fill fills).2 rfl).noteEnd
    exact ⟨further.gave, fun _ same => ⟨further, (Except.ok.inj same).symm.trans there⟩⟩

theorem Traces.next (traces : stream.Traces taken) {token : Token} {later : List Token}
    (front : stream.lookahead = token :: later) (took : stream.next = (.ok (some token), after)) :
    after.Traces (taken ++ [token]) ∧ after.lookahead = later := by
  rw [next_given front] at took
  cases took
  obtain ⟨last, gives, running, ended⟩ := traces.gives
  have count := traces.count
  rw [front] at gives count
  refine ⟨⟨?_, last, ?_, running, ended⟩, rfl⟩
  · simp only [List.length_append, List.length_cons, List.length_nil] at count ⊢
    omega
  · rwa [List.append_assoc, List.singleton_append]

end TokenStream

end GoPrompt
