import GoPrompt.Grammar.Type
import GoPrompt.Proofs.Parse.Run
import GoPrompt.Proofs.Stream.Budgets

/-! What a computation leaves of the budget of tokens. None gives a token back, and one that succeeds may have consumed
one for sure. That is so of every text, whatever its tokens are and wherever it is cut off. -/

namespace GoPrompt

namespace TokenStream

/-- A stream that knows the number of its tokens, within its budget. -/
def Counts (stream : TokenStream) : Prop := ∃ own number, stream.Counted own number

theorem ofText_counts (text : List Char) (maxTokens : Nat) : (ofText text maxTokens).Counts :=
  ⟨maxTokens, 0, rfl, rfl, Nat.zero_le maxTokens⟩

variable {stream : TokenStream} {own number : Nat}

theorem next_consumes (counted : stream.Counted own number) :
    ∃ more, stream.next.2.Counted own (number + more) ∧ ∀ token, stream.next.1 = .ok (some token) → 0 < more := by
  have filled : (stream.fillTo 0).2.Counted own number := fill_counted _ counted
  obtain served | ⟨_, _, fills, served⟩ | ⟨_, fills, served⟩ := serve_cases .next stream <;>
    rw [show stream.next = _ from served]
  · exact ⟨0, counted, nofun⟩
  · rw [show stream.fillTo 0 = _ from fills] at filled
    exact ⟨0, filled, nofun⟩
  · rw [show stream.fillTo 0 = _ from fills] at filled
    dsimp only [settle, StreamCall.reach] at filled ⊢
    split
    next front => exact ⟨0, ⟨filled.budget, filled.count, filled.within⟩, by simp [front]⟩
    next token later front =>
      have count := filled.count
      rw [front, List.length_cons] at count
      refine ⟨1, ⟨filled.budget, ?_, filled.within⟩, fun _ _ => Nat.zero_lt_one⟩
      simp only
      omega

end TokenStream

namespace Parse

variable {α β : Type}

/-- Where a run comes to from a state: the tokens are counted, none is given back, and one is consumed for sure under a
condition. -/
structure Progress (before : ParseState) (moved : Prop) (after : ParseState) : Prop where
  counts : after.stream.Counts
  remaining : after.remaining ≤ before.remaining
  moved : moved → after.remaining < before.remaining

theorem Progress.trans {first second third : ParseState} {moved moved' both : Prop}
    (before : Progress first moved second) (after : Progress second moved' third) (either : both → moved ∨ moved') :
    Progress first both third where
  counts := after.counts
  remaining := Nat.le_trans after.remaining before.remaining
  moved both := (either both).elim (fun yes => Nat.lt_of_le_of_lt after.remaining (before.moved yes))
    fun yes => Nat.lt_of_lt_of_le (after.moved yes) before.remaining

theorem Progress.weaken {before after : ParseState} {moved moved' : Prop} (progress : Progress before moved after)
    (implies : moved' → moved) : Progress before moved' after :=
  ⟨progress.counts, progress.remaining, progress.moved ∘ implies⟩

/-- How far a result is from the state in which a run began. -/
def GetsTo (before : ParseState) (moves : α → Prop) : EStateM.Result Failure ParseState α → Prop
  | .ok value after => Progress before (moves value) after
  | .error _ after => Progress before False after

/-- A computation that has consumed a token when it succeeds with certain values. -/
def Advances (moves : α → Prop) (program : Parse α) : Prop :=
  ∀ state : ParseState, state.stream.Counts → GetsTo state moves (program state)

/-- A computation that has consumed a token when it succeeds. -/
abbrev Consumes (program : Parse α) : Prop := Advances (fun _ => True) program

/-- A computation that may have consumed none. -/
abbrev Proceeds (program : Parse α) : Prop := Advances (fun _ => False) program

section rules

variable {program : Parse α} {next : α → Parse β} {before : α → Prop} {moves : β → Prop}

theorem Advances.weaken {fewer : α → Prop} (advances : Advances before program)
    (implies : ∀ value, fewer value → before value) :
    Advances fewer program := by
  intro state counts
  have reached := advances state counts
  cases ran : program state with
  | ok value after =>
    rw [ran] at reached
    exact reached.weaken (implies value)
  | error failure after =>
    rw [ran] at reached
    exact reached

theorem Advances.sequence (advances : Advances before program)
    (later : ∀ value, Advances (fun result => moves result ∧ ¬ before value) (next value)) :
    Advances moves (program >>= next) := by
  intro state counts
  have reached := advances state counts
  cases ran : program state with
  | error failure after =>
    rw [ran] at reached
    rw [bind_error ran]
    exact reached
  | ok value middle =>
    rw [ran] at reached
    have reached' := later value middle reached.counts
    rw [bind_ok ran]
    cases ran' : next value middle with
    | error failure after =>
      rw [ran'] at reached'
      exact reached.trans reached' False.elim
    | ok result after =>
      rw [ran'] at reached'
      exact reached.trans reached' fun yes => (Classical.em (before value)).imp_right fun no => ⟨yes, no⟩

theorem Advances.bind (advances : Advances before program) (later : ∀ value, Advances moves (next value)) :
    Advances moves (program >>= next) :=
  advances.sequence fun value => (later value).weaken fun _ both => both.1

theorem Consumes.bind (consumes : Consumes program) (later : ∀ value, Proceeds (next value)) :
    Advances moves (program >>= next) :=
  Advances.sequence consumes fun value => (later value).weaken fun _ both => both.2 trivial

theorem Consumes.advances (consumes : Consumes program) : Advances before program :=
  Advances.weaken consumes fun _ _ => trivial

theorem advances_pure {value : α} (still : ¬ before value) : Advances before (pure value) :=
  fun _ counts => ⟨counts, Nat.le_refl _, fun moved => absurd moved still⟩

theorem proceeds_pure (value : α) : Proceeds (pure value) := advances_pure id

end rules

section steps

variable {operation : TokenStream → Except ParseError α × TokenStream} {moves : α → Prop}

private theorem advances_onStream (consumes : ∀ {stream : TokenStream} {own number : Nat}, stream.Counted own number →
    ∃ more, (operation stream).2.Counted own (number + more) ∧ ∀ value, (operation stream).1 = .ok value → moves value → 0 < more) :
    Advances moves (onStream operation) := by
  rintro state ⟨own, number, counted⟩
  obtain ⟨more, counted', some⟩ := consumes counted
  have reached : (operation state.stream).2.remaining ≤ state.stream.remaining := by
    rw [counted.remaining, counted'.remaining]
    omega
  cases answered : operation state.stream with
  | mk result after =>
    rw [answered] at counted' reached some
    cases result with
    | error error =>
      rw [onStream_error answered]
      exact ⟨⟨own, _, counted'⟩, reached, False.elim⟩
    | ok value =>
      rw [onStream_ok answered]
      exact ⟨⟨own, _, counted'⟩, reached, fun moved =>
        counted.remaining_lt counted' (Nat.lt_add_of_pos_right (some value rfl moved))⟩

theorem advances_next : Advances (·.isSome) (onStream TokenStream.next) :=
  advances_onStream fun counted => by
    obtain ⟨more, counted', some⟩ := TokenStream.next_consumes counted
    refine ⟨more, counted', fun found taken there => ?_⟩
    obtain ⟨token, rfl⟩ := Option.isSome_iff_exists.mp there
    exact some token taken

theorem proceeds_peek (index : Nat) : Proceeds (peek index) :=
  advances_onStream fun counted => ⟨0, TokenStream.peek_counted index counted, fun _ _ => False.elim⟩

theorem proceeds_peekKind (index : Nat) : Proceeds (peekKind index) :=
  (proceeds_peek index).bind fun _ => proceeds_pure _

theorem proceeds_peekOperator (index : Nat) : Proceeds (peekOperator index) :=
  (proceeds_peek index).bind fun _ => proceeds_pure _

theorem proceeds_atOperator (operator : Operator) : Proceeds (atOperator operator) :=
  (proceeds_peekOperator 0).bind fun _ => proceeds_pure _

theorem proceeds_atKeyword (keyword : Keyword) : Proceeds (atKeyword keyword) :=
  (proceeds_peekKind 0).bind fun _ => proceeds_pure _

theorem proceeds_atSemicolon : Proceeds atSemicolon := (proceeds_peekKind 0).bind fun _ => proceeds_pure _

theorem proceeds_atType : Proceeds Grammar.atType := (proceeds_peekKind 0).bind fun _ => proceeds_pure _

theorem proceeds_get : Proceeds (get : Parse ParseState) := fun _ counts => ⟨counts, Nat.le_refl _, False.elim⟩

theorem proceeds_spanFrom (start : Span) : Proceeds (spanFrom start) := proceeds_get.bind fun _ => proceeds_pure _

private theorem proceeds_modify {change : ParseState → ParseState}
    (same : ∀ state : ParseState, (change state).stream = state.stream) :
    Proceeds (modify change : Parse PUnit) := by
  intro state counts
  refine ⟨?_, Nat.le_of_eq ?_, False.elim⟩
  · rw [same]
    exact counts
  · rw [ParseState.remaining, same]
    rfl

private theorem advances_throw (failure : Failure) : Advances moves (throw failure : Parse α) :=
  fun _ counts => ⟨counts, Nat.le_refl _, False.elim⟩

theorem advances_endOfInput (expected : List String) : Advances moves (endOfInput expected : Parse α) :=
  proceeds_get.bind fun _ => advances_throw _

theorem advances_unexpected (token : Token) (expected : List String) :
    Advances moves (unexpected token expected : Parse α) := by
  unfold unexpected
  split
  next =>
    have noted : Proceeds (modify fun state : ParseState => { state with stream := state.stream.noteEnd }) := by
      rintro state ⟨own, number, counted⟩
      exact ⟨⟨own, number, counted.budget, counted.count, counted.within⟩, Nat.le_refl _, False.elim⟩
    exact noted.bind fun _ => advances_throw _
  next =>
    refine proceeds_get.bind fun state => ?_
    split <;> exact advances_throw _
  next => exact advances_throw _

theorem advances_rejectNext (expected : List String) : Advances moves (rejectNext expected : Parse α) := by
  refine (proceeds_peek 0).bind fun found => ?_
  cases found with
  | none => exact advances_endOfInput _
  | some token => exact advances_unexpected token _

theorem advances_beyondLimit (limit : Nat) : Advances moves (Grammar.beyondLimit limit : Parse α) := by
  have deeper : Proceeds (modify fun state : ParseState => { state with depth := state.depth + 1 }) :=
    proceeds_modify fun _ => rfl
  exact deeper.bind fun _ => (proceeds_peek 0).bind fun _ => advances_throw _

theorem consumes_bump : Consumes bump := by
  refine advances_next.sequence fun found => ?_
  cases found with
  | none => exact advances_endOfInput _
  | some token =>
    have noted : Proceeds (modify fun state : ParseState => { state with lastSpan := token.span }) :=
      proceeds_modify fun _ => rfl
    exact noted.weaken fun _ both => both.2 rfl

theorem consumes_expect (accepts : TokenKind → Bool) (expected : List String) : Consumes (expect accepts expected) := by
  refine (proceeds_peek 0).bind fun found => ?_
  cases found with
  | none => exact advances_endOfInput _
  | some token =>
    dsimp only
    split
    next => exact consumes_bump
    next => exact advances_unexpected token _

theorem proceeds_eatOperator (operator : Operator) : Proceeds (eatOperator operator) := by
  refine (proceeds_atOperator operator).bind fun there => ?_
  cases there with
  | true => exact consumes_bump.bind fun _ => proceeds_pure _
  | false => exact proceeds_pure _

end steps

section repetition

/-- A turn of a repetition moves when the repetition goes on, and may move when it ends. -/
def Turn.Moves (moves : β → Prop) : Turn α β → Prop
  | .again _ => True
  | .done result => moves result

variable {turn : α → Parse (Turn α β)} {moves : β → Prop}

theorem advances_iterate (turns : ∀ value, Advances (Turn.Moves moves) (turn value)) (value : α) :
    Advances moves (iterate turn value) := by
  intro state counts
  have reached := turns value state counts
  cases ran : turn value state with
  | error failure after =>
    rw [ran] at reached
    rw [iterate_error ran]
    exact reached
  | ok answer after =>
    rw [ran] at reached
    cases answer with
    | done result =>
      rw [iterate_done ran]
      exact reached
    | again next =>
      have progress := reached.moved trivial
      have later := advances_iterate turns next after reached.counts
      rw [iterate_again ran progress]
      cases ran' : iterate turn next after <;> rw [ran'] at later
      · exact reached.trans later .inr
      · exact reached.trans later False.elim
termination_by state => state.remaining

end repetition

end Parse

end GoPrompt
