import GoPrompt.Proofs.Coupled.Statements
import GoPrompt.Proofs.Stream.Onward
import GoPrompt.Proofs.Stream.Steps

/-! The first token of a text, however long the text is: a run that asks for more input has consumed it. -/

namespace GoPrompt

open Parse

namespace TokenStream

/-- Whatever is found when the stream is looked at, it is this token. -/
def Offers (token : Token) (stream : TokenStream) : Prop :=
  ∀ found after, stream.peek 0 = (.ok found, after) → found = some token ∧ after.lookahead.head? = some token

variable {stream : TokenStream} {token : Token}

private theorem offers_of_front (front : stream.lookahead.head? = some token) : stream.Offers token := by
  intro found after peeked
  cases (peek_front front).symm.trans peeked
  exact ⟨rfl, front⟩

private theorem next_front (front : stream.lookahead.head? = some token) :
    ∃ after, stream.next = (.ok (some token), after) ∧ after.lastConsumed = some token.kind := by
  obtain ⟨later, ahead⟩ := List.head?_eq_some_iff.mp front
  exact ⟨_, next_given ahead, rfl⟩

theorem peek_keeps_front (index : Nat) (front : stream.lookahead.head? = some token) :
    (stream.peek index).2.lookahead.head? = some token := by
  refine peek_keeps (·.lookahead.head? = some token) (fun {stream} front => ?_) id index front
  obtain ⟨more, longer⟩ := stream.fetch_lookahead
  rw [← longer, List.head?_append, front]
  rfl

end TokenStream

namespace Parse

variable {α : Type} {token : Token}

private theorem unexpected_written (written : token.kind ≠ .semicolon .endOfInput) (expected : List String)
    (state : ParseState) :
    ∃ error, (unexpected token expected : Parse α) state = .error (.rejected error) state := by
  cases kind : token.kind with
  | semicolon origin =>
    cases origin with
    | endOfInput => exact absurd kind written
    | explicit | newline =>
      simp only [unexpected, kind]
      exact ⟨_, rfl⟩
  | illegal =>
    simp only [unexpected, kind, bind_ok (show (get : Parse ParseState) state = .ok state state from rfl)]
    cases state.stream.invalidDiagnostic? token <;> exact ⟨_, rfl⟩
  | identifier | keyword | literal | operator =>
    simp only [unexpected, kind]
    exact ⟨_, rfl⟩

theorem peek_faults {index : Nat} {state after : ParseState} {failure : Failure}
    (failed : peek index state = .error failure after) : ∃ error, failure = .rejected error ∧ error.isFault = true := by
  unfold peek onStream at failed
  split at failed
  next => cases failed
  next error _ peeks =>
    cases failed
    exact ⟨error, rfl, (TokenStream.serve_fails (.peek index) peeks).isFault⟩

theorem beyondLimit_faults (limit : Nat) (state : ParseState) :
    ∃ error after, (Grammar.beyondLimit limit : Parse α) state = .error (.rejected error) after ∧
    error.isFault = true := by
  let deeper : ParseState := { state with depth := state.depth + 1 }
  let fail (token : Option Token) : Parse α := throw (.rejected (.nestingLimitExceeded limit (token.map (·.span))))
  have start : (Grammar.beyondLimit limit : Parse α) state = (peek 0 >>= fail) deeper := rfl
  rw [start]
  cases peeked : peek 0 deeper with
  | ok found after =>
    rw [bind_ok peeked]
    exact ⟨_, _, rfl, rfl⟩
  | error failure after =>
    rw [bind_error peeked]
    obtain ⟨error, rfl, fault⟩ := peek_faults peeked
    exact ⟨_, _, rfl, fault⟩

end Parse

namespace Coupling

/-- A run and itself, as long as the token is ahead that was the first one. -/
def front (token : Token) : Coupling where
  marks number first second := number = 0 ∧ first = second
  settled number first second := number = 0 ∧ first = second ∧ first.stream.Offers token
  seen number one other first second :=
    number = 0 ∧ first = second ∧ one = some token ∧ other = some token ∧ first.stream.lookahead.head? = some token
  window number one other next later first second :=
    (number = 0 ∧ first = second) ∧ (one = token ∧ other = token ∧ next = later) ∧
      first.stream.lookahead.head? = some token
  gone state := state.stream.lastConsumed ≠ none
  excused failure state := ∀ error, failure = .needMoreInput error → state.stream.lastConsumed ≠ none
  free := True
  stray _ _ := True
  fails _ _ _ _ := False

variable {token : Token} {α : Type} [Alike α]

private theorem front_excused (error : ParseError) (state : ParseState) :
    (front token).excused (.rejected error) state :=
  fun _ wants => absurd wants Failure.noConfusion

omit [Alike α] in
private theorem front_keeps {program : Parse α} (onwards : Onwards program) : (front token).Keeps program := by
  intro state begun
  have moved := onwards state
  cases ran : program state <;> rw [ran] at moved
  · exact moved.begun begun
  · exact fun _ _ => moved.begun begun

private theorem front_coupled {program : Parse α} {pre : ParseState → ParseState → Prop}
    {post : α → α → ParseState → ParseState → Prop} (onwards : Onwards program)
    (same : ∀ before after, pre before after → before = after)
    (runs : ∀ state, pre state state → match program state with
      | .ok value after => post value value after after ∨ after.stream.lastConsumed ≠ none
      | .error failure after => (front token).excused failure after) :
    (front token).Coupled pre program program post := by
  refine ⟨front_keeps onwards, fun before after holds => ?_⟩
  obtain rfl := same before after holds
  have ran := runs before holds
  cases result : program before with
  | ok value reached =>
    rw [result] at ran
    exact ran.symm.imp (fun begun => Lost.alone begun trivial) fun held => ⟨Alike.refl value, held⟩
  | error failure reached =>
    rw [result] at ran
    exact .inl (Lost.alone ran trivial)

private theorem front_bump {pre : ParseState → ParseState → Prop} {post : Unit → Unit → ParseState → ParseState → Prop}
    (same : ∀ before after, pre before after → before = after)
    (ahead : ∀ state, pre state state → state.stream.lookahead.head? = some token) :
    (front token).Coupled pre bump bump post :=
  front_coupled onwards_bump same fun state holds => by
    obtain ⟨after, taken, last⟩ := TokenStream.next_front (ahead state holds)
    rw [bump_some taken]
    exact .inr (by simp [last])

private theorem front_lawful (written : token.kind ≠ .semicolon .endOfInput) : (front token).Lawful where
  excuse _ begun := fun _ _ => begun
  settled_marks settled := ⟨settled.1, settled.2.1⟩
  window_marks window := window.1
  progress marked marked' further := by
    rw [marked.1, marked'.1] at further
    exact absurd further (Nat.lt_irrefl 0)
  seen_settled seen := ⟨seen.1, seen.2.1, TokenStream.offers_of_front seen.2.2.2.2⟩
  look number := front_coupled (onwards_peek 0) (fun _ _ settled => settled.2.1) fun state settled => by
    rcases peeked : state.stream.peek 0 with ⟨result, after⟩
    cases result with
    | error error =>
      rw [show peek 0 state = _ from onStream_error peeked]
      exact front_excused _ _
    | ok found =>
      rw [show peek 0 state = _ from onStream_ok peeked]
      obtain ⟨rfl, front⟩ := settled.2.2 found after peeked
      exact .inl ⟨settled.1, rfl, rfl, rfl, front⟩
  take number one other _ _ := front_bump (fun _ _ seen => seen.2.1) fun _ seen => seen.2.2.2.2
  reject number one other expected same := by
    refine ⟨front_keeps (onwards_unexpected one expected), ?_⟩
    rintro state _ ⟨-, rfl, isToken, -, -⟩
    obtain rfl := Option.some.inj isToken
    obtain ⟨error, failed⟩ := unexpected_written written expected state
    rw [failed]
    exact .inl (Lost.alone (front_excused error state) trivial)
  lose literal illegal seen := by
    obtain ⟨-, -, isToken, isToken', -⟩ := seen
    obtain rfl := Option.some.inj isToken
    obtain rfl := Option.some.inj isToken'
    cases literal.symm.trans illegal
  spoil _ _ _ _ := strays_of_free trivial _
  loose _ _ _ := trivial
  ended number expected := by
    refine ⟨front_keeps (onwards_endOfInput expected), ?_⟩
    rintro state _ ⟨-, -, none, -⟩
    cases none
  stop number limit := front_coupled (onwards_beyondLimit limit) (fun _ _ marked => marked.2) fun state _ => by
    obtain ⟨error, after, failed, _⟩ := beyondLimit_faults limit state
    rw [failed]
    exact front_excused _ _
  lookBeyond number one other _ _ := by
    refine ⟨front_keeps (onwards_peek 1), ?_⟩
    rintro state _ ⟨rfl, rfl, isToken, isToken', front⟩
    obtain rfl := Option.some.inj isToken
    obtain rfl := Option.some.inj isToken'
    have kept : (state.stream.peek 1).2.lookahead.head? = some _ := TokenStream.peek_keeps_front 1 front
    rcases peeked : state.stream.peek 1 with ⟨result, after⟩
    rw [peeked] at kept
    cases result with
    | error error =>
      rw [show peek 1 state = _ from onStream_error peeked]
      exact .inl (Lost.alone (front_excused error _) trivial)
    | ok found =>
      rw [show peek 1 state = _ from onStream_ok peeked]
      exact .inr ⟨Alike.refl found, ⟨rfl, rfl⟩, ⟨rfl, rfl, rfl⟩, kept⟩
  lookInWindow := by
    rintro number one other next later first _ ⟨⟨-, rfl⟩, ⟨rfl, rfl, -⟩, front⟩
    exact ⟨onStream_ok (TokenStream.peek_front front), onStream_ok (TokenStream.peek_front front)⟩
  takeInWindow number one other next later := front_bump (fun _ _ window => window.1.2) fun _ window => window.2.2
  takeBoth number one other next later := front_bump (fun _ _ window => window.1.2) fun _ window => window.2.2
  loseBeyond literal illegal window := by
    obtain ⟨-, ⟨-, -, same⟩, -⟩ := window
    cases same
    cases literal.symm.trans illegal

end Coupling

/-- A run that asks for more input has consumed the first token, if there is one. -/
theorem wholeText_begins {limit : Nat} {state after : ParseState} {token : Token} {error : ParseError}
    (offers : state.stream.Offers token) (written : token.kind ≠ .semicolon .endOfInput) (shallow : state.depth = 0)
    (ran : Grammar.wholeText limit state = .error (.needMoreInput error) after) : after.stream.lastConsumed ≠ none := by
  have start : (Coupling.front token).settled 0 state state := ⟨rfl, rfl, offers⟩
  have outcome := Grammar.wholeText_outcome (Coupling.front_lawful written) limit start shallow shallow
  rw [ran] at outcome
  exact outcome.elim (fun left => left.1 error rfl) False.elim

end GoPrompt
