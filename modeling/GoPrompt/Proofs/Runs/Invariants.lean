import GoPrompt.Proofs.Coupled.Statements
import GoPrompt.Proofs.Stream.Reached

/-! What every step on tokens keeps, every run of the grammar keeps, however it ends. A run is coupled with itself, and
the states of the coupling are those in which the property holds. -/

namespace GoPrompt

open Parse

variable {α β : Type} {holds : ParseState → Prop} {fails : Failure → ParseState → Prop}

/-- What is known of the state in which a run ends: one thing where it succeeds, and another one where it fails. -/
def Leaves (holds : ParseState → Prop) (fails : Failure → ParseState → Prop) :
    EStateM.Result Failure ParseState α → Prop
  | .ok _ after => holds after
  | .error failure after => fails failure after

theorem Leaves.iterate {turn : α → Parse (Turn α β)}
    (turns : ∀ value state, holds state → Leaves holds fails (turn value state))
    (stuck : ∀ state, holds state → fails (.rejected (.internalInvariant "repetition without progress" none)) state)
    (value : α) (state : ParseState) (held : holds state) : Leaves holds fails (Parse.iterate turn value state) := by
  have turned := turns value state held
  cases ran : turn value state with
  | error failure after =>
    rw [ran] at turned
    rw [iterate_error ran]
    exact turned
  | ok answer after =>
    rw [ran] at turned
    cases answer with
    | done result =>
      rw [iterate_done ran]
      exact turned
    | again next =>
      by_cases progress : after.remaining < state.remaining
      · rw [iterate_again ran progress]
        exact Leaves.iterate turns stuck next after turned
      · rw [iterate_stuck ran progress]
        exact stuck after turned
termination_by state.remaining

/-- A property of states that the steps on tokens keep, and what is known where they fail. -/
structure Kept (holds : ParseState → Prop) (fails : Failure → ParseState → Prop) : Prop where
  counts : ∀ {state : ParseState}, holds state → state.stream.Counts
  look : ∀ {state : ParseState} index, holds state → Leaves holds fails (peek index state)
  take : ∀ {state : ParseState}, holds state → Leaves holds fails (bump state)
  reject : ∀ {α : Type} {state : ParseState} token expected, holds state →
    Leaves holds fails ((unexpected token expected : Parse α) state)
  ask : ∀ {α : Type} {state : ParseState} expected, holds state →
    Leaves holds fails ((endOfInput expected : Parse α) state)
  stop : ∀ {α : Type} {state : ParseState} limit, holds state →
    Leaves holds fails ((Grammar.beyondLimit limit : Parse α) state)

namespace Coupling

/-- A run and itself, in states with a property that the steps on tokens keep. -/
def keeping (holds : ParseState → Prop) (fails : Failure → ParseState → Prop) (own : Nat) : Coupling where
  marks number first second := first = second ∧ holds first ∧ first.stream.Counted own number
  settled number first second := first = second ∧ holds first ∧ first.stream.Counted own number
  seen number one other first second :=
    (first = second ∧ one = other) ∧ (holds first ∧ first.stream.Counted own number) ∧ first.stream.lookahead[0]? = one
  window number one other next later first second :=
    (first = second ∧ one = other ∧ next = later) ∧ (holds first ∧ first.stream.Counted own number) ∧
      first.stream.lookahead[0]? = some one ∧ first.stream.lookahead[1]? = next
  gone _ := False
  excused _ _ := False
  free := True
  stray _ _ := True
  fails failure first failure' second := (failure = failure' ∧ first = second) ∧ fails failure first

variable {own : Nat}

theorem keeping_outcome [Alike α] {program : Parse α} {pre : ParseState → ParseState → Prop}
    {post : α → α → ParseState → ParseState → Prop}
    (coupled : (keeping holds fails own).Coupled pre program program post) {state : ParseState}
    (entered : pre state state) :
    match program state with
    | .ok value after => post value value after after
    | .error failure after => fails failure after := by
  have outcome := coupled.outcome state state entered
  cases ran : program state with
  | ok value after =>
    rw [ran] at outcome
    exact (outcome.resolve_left And.left).2
  | error failure after =>
    rw [ran] at outcome
    exact (outcome.resolve_left And.left).2

private theorem keeping_coupled [Alike α] {pre : ParseState → ParseState → Prop} {program : Parse α}
    {post : α → α → ParseState → ParseState → Prop} (same : ∀ before after, pre before after → before = after)
    (runs : ∀ state, pre state state → match program state with
      | .ok value after => post value value after after
      | .error failure after => fails failure after) :
    (keeping holds fails own).Coupled pre program program post := by
  refine ⟨fun _ gone => gone.elim, fun before after entered => .inr ?_⟩
  obtain rfl := same before after entered
  have ran := runs before entered
  cases result : program before with
  | ok value reached =>
    rw [result] at ran
    exact ⟨Alike.refl value, ran⟩
  | error failure reached =>
    rw [result] at ran
    exact ⟨⟨rfl, rfl⟩, ran⟩

private theorem keeping_failing [Alike α] {pre : ParseState → ParseState → Prop} {program : Parse α}
    {post : α → α → ParseState → ParseState → Prop} (same : ∀ before after, pre before after → before = after)
    (never : ∀ state value after, program state ≠ .ok value after)
    (runs : ∀ state, pre state state → Leaves holds fails (program state)) :
    (keeping holds fails own).Coupled pre program program post := by
  refine keeping_coupled same fun state entered => ?_
  have ran := runs state entered
  cases result : program state with
  | ok value after => exact absurd result (never state value after)
  | error failure after =>
    rw [result] at ran
    exact ran

theorem beyondLimit_ne_ok (limit : Nat) (state : ParseState) (value : α) (after : ParseState) :
    (Grammar.beyondLimit limit : Parse α) state ≠ .ok value after := by
  intro ran
  obtain ⟨_, _, -, ran⟩ := of_bind_ok ran
  obtain ⟨_, _, -, ran⟩ := of_bind_ok ran
  cases ran

variable (kept : Kept holds fails)
include kept

private theorem keeping_look (index : Nat) {number : Nat} {state : ParseState} (held : holds state)
    (counted : state.stream.Counted own number) :
    match peek index state with
    | .ok found after => (holds after ∧ after.stream.Counted own number) ∧
        state.stream.lookahead <+: after.stream.lookahead ∧
        after.stream.lookahead[index]? = found
    | .error failure after => fails failure after := by
  have looked := kept.look index held
  have same := TokenStream.peek_counted index counted
  cases ran : peek index state with
  | ok found after =>
    rw [ran] at looked
    rw [of_onStream_ok ran] at same
    obtain ⟨longer, there⟩ := TokenStream.peek_lookahead (of_onStream_ok ran)
    exact ⟨⟨looked, same⟩, longer, there.symm⟩
  | error failure after =>
    rw [ran] at looked
    exact looked

private theorem keeping_take {number : Nat} {state : ParseState} {token : Token} (held : holds state)
    (counted : state.stream.Counted own number) (front : state.stream.lookahead[0]? = some token) :
    match bump state with
    | .ok _ after => (holds after ∧ after.stream.Counted own (number + 1)) ∧
        after.stream.lookahead = state.stream.lookahead.tail
    | .error failure after => fails failure after := by
  have taken := kept.take held
  obtain ⟨stream, took, counted', -, ahead, -⟩ :=
    TokenStream.next_counted 0 (List.head?_eq_getElem?.trans front) counted
  rw [bump_some took] at taken ⊢
  exact ⟨⟨taken, counted'⟩, ahead⟩

theorem keeping_lawful : (keeping holds fails own).Lawful where
  excuse _ gone := gone.elim
  settled_marks settled := settled
  window_marks window := ⟨window.1.1, window.2.1⟩
  progress := by
    rintro number reached first _ before _ ⟨rfl, -, counted⟩ ⟨rfl, -, counted'⟩ further
    have less := counted.remaining_lt counted' further
    exact ⟨less, less⟩
  seen_settled seen := ⟨seen.1.1, seen.2.1⟩
  look number := keeping_coupled (fun _ _ settled => settled.1) fun state settled => by
    have looked := keeping_look kept 0 settled.2.1 settled.2.2
    cases ran : peek 0 state with
    | ok found after =>
      rw [ran] at looked
      exact ⟨⟨rfl, rfl⟩, looked.1, looked.2.2⟩
    | error failure after =>
      rw [ran] at looked
      exact looked
  take number one other _ _ := keeping_coupled (fun _ _ seen => seen.1.1) fun state seen => by
    have taken := keeping_take kept seen.2.1.1 seen.2.1.2 seen.2.2
    cases ran : bump state with
    | ok _ after =>
      rw [ran] at taken
      exact ⟨rfl, taken.1⟩
    | error failure after =>
      rw [ran] at taken
      exact taken
  reject number one other expected _ := by
    refine ⟨fun _ gone => gone.elim, ?_⟩
    rintro state _ ⟨⟨rfl, same⟩, ⟨held, -⟩, -⟩
    cases same
    exact (@keeping_failing _ holds fails own _ (fun before after => before = after ∧ holds before) _ _
      (fun _ _ entered => entered.1)
      (fun _ _ _ => unexpected_ne_ok one expected _) fun _ entered =>
        kept.reject one expected entered.2).outcome state state ⟨rfl, held⟩
  lose literal illegal seen := by
    obtain ⟨⟨-, same⟩, -⟩ := seen
    cases same
    cases literal.symm.trans illegal
  spoil _ _ _ _ := strays_of_free trivial _
  loose _ _ _ := trivial
  ended number expected := keeping_failing (fun _ _ seen => seen.1.1) (fun _ _ _ => nofun) fun _ seen =>
    kept.ask expected seen.2.1.1
  stop number limit := keeping_failing (fun _ _ marked => marked.1) (beyondLimit_ne_ok limit) fun _ marked =>
    kept.stop limit marked.2.1
  lookBeyond number one other _ _ := keeping_coupled (fun _ _ seen => seen.1.1) fun state seen => by
    obtain ⟨⟨-, same⟩, ⟨held, counted⟩, front⟩ := seen
    cases same
    have looked := keeping_look kept 1 held counted
    cases ran : peek 1 state with
    | ok found after =>
      rw [ran] at looked
      obtain ⟨kept, ⟨_, longer⟩, there⟩ := looked
      obtain ⟨later, ahead⟩ := List.head?_eq_some_iff.mp (List.head?_eq_getElem?.trans front)
      refine ⟨⟨rfl, rfl, rfl⟩, kept, ?_, there⟩
      rw [← longer, ahead]
      rfl
    | error failure after =>
      rw [ran] at looked
      exact looked
  lookInWindow := by
    rintro number one _ next _ first _ ⟨⟨rfl, rfl, rfl⟩, -, front, -⟩
    have looked : peek 0 first = .ok (some one) first :=
      onStream_ok (TokenStream.peek_front (List.head?_eq_getElem?.trans front))
    exact ⟨looked, looked⟩
  takeInWindow number one other next later := keeping_coupled (fun _ _ window => window.1.1) fun state window => by
    have taken := keeping_take kept window.2.1.1 window.2.1.2 window.2.2.1
    cases ran : bump state with
    | ok _ after =>
      rw [ran] at taken
      exact ⟨rfl, taken.1⟩
    | error failure after =>
      rw [ran] at taken
      exact taken
  takeBoth number one other next later := keeping_coupled (fun _ _ window => window.1.1) fun state window => by
    obtain ⟨⟨-, -, same⟩, ⟨held, counted⟩, front, behind⟩ := window
    cases same
    have taken := keeping_take kept held counted front
    cases ran : bump state with
    | ok _ after =>
      rw [ran] at taken
      obtain ⟨kept, ahead⟩ := taken
      refine ⟨⟨rfl, rfl⟩, kept, ?_⟩
      rw [ahead, List.getElem?_tail]
      exact behind
    | error failure after =>
      rw [ran] at taken
      exact taken
  loseBeyond literal illegal window := by
    obtain ⟨⟨-, -, same⟩, -⟩ := window
    cases same
    cases literal.symm.trans illegal

end Coupling

namespace Kept

open Coupling

theorem leaves [Alike α] (kept : Kept holds fails) (program : Parse α)
    (steady : ∀ own, (keeping holds fails own).Steady program program) {state : ParseState} (held : holds state) :
    Leaves holds fails (program state) := by
  obtain ⟨own, number, counted⟩ := kept.counts held
  have outcome := keeping_outcome (steady own number) ⟨number, Nat.le_refl _, rfl, held, counted⟩
  cases ran : program state with
  | ok value after =>
    rw [ran] at outcome
    obtain ⟨reached, -, -, held, -⟩ := outcome
    exact held
  | error failure after =>
    rw [ran] at outcome
    exact outcome

private theorem topLevelStatement_steady (kept : Kept holds fails) (limit own : Nat) :
    (keeping holds fails own).Steady (Grammar.topLevelStatement limit) (Grammar.topLevelStatement limit) := by
  refine fun number => ⟨fun _ gone => gone.elim, ?_⟩
  rintro state after ⟨reached, further, same, entered⟩
  cases same
  exact ((Grammar.levels_deep (keeping_lawful kept) limit (limit - state.depth)).statement .topLevel number).outcome
    state state
    ⟨reached, further, rfl, entered⟩

theorem topLevelStatement (kept : Kept holds fails) (limit : Nat) {state : ParseState} (held : holds state) :
    Leaves holds fails (Grammar.topLevelStatement limit state) :=
  kept.leaves _ (kept.topLevelStatement_steady limit) held

theorem wholeText (kept : Kept holds fails) (limit : Nat) {state : ParseState} (held : holds state) :
    Leaves holds fails (Grammar.wholeText limit state) := by
  refine kept.leaves (Grammar.wholeText limit) (fun own number => ?_) held
  refine (Grammar.textOf_coupled (keeping_lawful kept) (kept.topLevelStatement_steady limit own) number).weaken
    (fun _ _ entered => entered) ?_
  rintro _ _ - before after ⟨reached, further, seen⟩
  exact ⟨reached, further, seen.1.1, seen.2.1⟩

end Kept

end GoPrompt
