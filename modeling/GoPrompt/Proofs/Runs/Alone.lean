import GoPrompt.Proofs.Coupled.Statements
import GoPrompt.Proofs.Stream.Parsing

/-! A run coupled with itself: every run of the parser keeps its place among the tokens, and when it fails
it says of the token in that place, or of the end of the text, what is wrong. -/

namespace GoPrompt

open Parse

/-- The ways in which a run fails. -/
inductive Ends (steps : List LexStep) (limit : Nat) : Failure → ParseState → Prop
  | budget {error : ParseError} {state : ParseState} (spent : error.Spends steps limit) :
      Ends steps limit (.rejected error) state
  | blamed {number : Nat} {token : Token} {error : ParseError} {state : ParseState}
      (seen : state.stream.Seen steps limit number (some token)) (written : ¬ token.IsInserted)
      (blames : error.Blames token) : Ends steps limit (.rejected error) state
  | wanted {number : Nat} {found : Option Token} {error : ParseError} {state : ParseState}
      (seen : state.stream.Seen steps limit number found) (inserted : ∀ token, found = some token → token.IsInserted)
      (observed : state.stream.observedEnd = true) (asks : error.Asks state.stream found) :
      Ends steps limit (.needMoreInput error) state

namespace Coupling

/-- A run of the parser and itself. -/
def alone (steps : List LexStep) (limit : Nat) : Coupling where
  marks number first second := first = second ∧ first.stream.Reading steps limit number
  settled number first second := first = second ∧ first.stream.Settled steps limit number
  seen number one other first second := (first = second ∧ one = other) ∧ first.stream.Seen steps limit number one
  window number one other next later first second :=
    (first = second ∧ one = other ∧ next = later) ∧ first.stream.Window steps limit number one next
  gone _ := False
  excused _ _ := False
  free := True
  stray _ _ := True
  fails failure first failure' second := (failure = failure' ∧ first = second) ∧ Ends steps limit failure first

variable {steps : List LexStep} {limit : Nat} {α : Type} [Alike α]

private theorem alone_coupled {pre : ParseState → ParseState → Prop} {program : Parse α}
    {post : α → α → ParseState → ParseState → Prop} (same : ∀ before after, pre before after → before = after)
    (runs : ∀ state, pre state state → match program state with
      | .ok value after => post value value after after
      | .error failure after => Ends steps limit failure after) :
    (alone steps limit).Coupled pre program program post := by
  refine ⟨fun _ gone => gone.elim, fun before after holds => .inr ?_⟩
  obtain rfl := same before after holds
  have ran := runs before holds
  cases result : program before with
  | ok value reached =>
    rw [result] at ran
    exact ⟨Alike.refl value, ran⟩
  | error failure reached =>
    rw [result] at ran
    exact ⟨⟨rfl, rfl⟩, ran⟩

theorem alone_lawful (steps : List LexStep) (limit : Nat) : (alone steps limit).Lawful where
  excuse _ gone := gone.elim
  settled_marks settled := ⟨settled.1, settled.2.toReading⟩
  window_marks window := ⟨window.1.1, window.2.toReading⟩
  progress := by
    rintro number reached first _ before _ ⟨rfl, reading⟩ ⟨rfl, reading'⟩ further
    have less := reading.remaining_lt reading' further
    exact ⟨less, less⟩
  seen_settled seen := ⟨seen.1.1, seen.2.settled⟩
  look number := alone_coupled (fun _ _ settled => settled.1) fun state settled => by
    rcases peek_settled settled.2 with ⟨_, _, _, error, after, _, budget, failed⟩ | ⟨after, found, seen⟩
    · rw [failed]
      exact .budget budget
    · rw [found]
      exact ⟨⟨rfl, rfl⟩, seen⟩
  take number one other legal _ := alone_coupled (fun _ _ seen => seen.1.1) fun state seen => by
    obtain ⟨after, taken, settled, -⟩ := bump_seen seen.2 legal
    rw [taken]
    exact ⟨rfl, settled⟩
  reject number one other expected _ := by
    refine ⟨fun _ gone => gone.elim, ?_⟩
    rintro state _ ⟨⟨rfl, same⟩, seen⟩
    cases same
    rcases unexpected_seen seen expected with ⟨inserted, error, after, failed, noted, asks⟩ |
      ⟨written, error, failed, blames⟩
    · rw [failed]
      refine .inr ⟨⟨rfl, rfl⟩, .wanted (?_ : after.stream.Seen steps limit number (some one)) ?_ ?_ asks⟩
      · rw [noted]
        exact ⟨{ seen.toReading with }, seen.front, seen.fresh, nofun⟩
      · rintro _ ⟨⟩
        exact inserted
      · rw [noted]
        rfl
    · rw [failed]
      exact .inr ⟨⟨rfl, rfl⟩, .blamed seen written blames⟩
  lose literal illegal seen := by
    obtain ⟨⟨-, same⟩, -⟩ := seen
    cases same
    cases literal.symm.trans illegal
  spoil _ _ _ _ := strays_of_free trivial _
  loose _ _ _ := trivial
  ended number expected := alone_coupled (fun _ _ seen => seen.1.1) fun state seen => by
    rw [endOfInput_run]
    exact .wanted seen.2 (fun _ none => by cases none) (seen.2.missing rfl).2 ⟨rfl, rfl⟩
  stop number limit := alone_coupled (fun _ _ marked => marked.1) fun state marked => by
    obtain ⟨error, after, failed, budget⟩ := Grammar.beyondLimit_reading limit marked.2
    rw [failed]
    exact .budget budget
  lookBeyond number one other named _ := alone_coupled (fun _ _ seen => seen.1.1) fun state seen => by
    obtain ⟨⟨-, same⟩, seen⟩ := seen
    cases same
    rcases peekBeyond_seen seen named with ⟨_, _, error, after, _, budget, failed⟩ | ⟨after, found, window⟩
    · rw [failed]
      exact .budget budget
    · rw [found]
      exact ⟨⟨rfl, rfl, rfl⟩, window⟩
  lookInWindow := by
    rintro number one _ next _ first _ ⟨⟨rfl, rfl, rfl⟩, window⟩
    exact ⟨peek_window window, peek_window window⟩
  takeInWindow number one other next later := alone_coupled (fun _ _ window => window.1.1) fun state window => by
    obtain ⟨after, taken, settled, -⟩ := bump_window window.2
    rw [taken]
    exact ⟨rfl, settled⟩
  takeBoth number one other next later := alone_coupled (fun _ _ window => window.1.1) fun state window => by
    obtain ⟨⟨-, -, same⟩, window⟩ := window
    cases same
    obtain ⟨after, taken, -, -, seen⟩ := bump_window window
    rw [taken]
    exact ⟨⟨rfl, rfl⟩, seen nofun⟩
  loseBeyond literal illegal window := by
    obtain ⟨⟨-, -, same⟩, -⟩ := window
    cases same
    cases literal.symm.trans illegal

end Coupling

/-- A run over a text has read all its tokens, or fails in one of the ways above. -/
theorem wholeText_ends {steps : List LexStep} {maxTokens : Nat} (limit : Nat) {state : ParseState}
    (start : state.stream.Settled steps maxTokens 0) (shallow : state.depth = 0) :
    match Grammar.wholeText limit state with
    | .ok _ after => ∃ number, after.stream.Seen steps maxTokens number none
    | .error failure after => Ends steps maxTokens failure after := by
  have started : (Coupling.alone steps maxTokens).settled 0 state state := ⟨rfl, start⟩
  have outcome := Grammar.wholeText_outcome (Coupling.alone_lawful steps maxTokens) limit started shallow shallow
  cases ran : Grammar.wholeText limit state with
  | ok statement after =>
    rw [ran] at outcome
    obtain ⟨-, number, -, -, seen⟩ := outcome.resolve_left And.left
    exact ⟨number, seen⟩
  | error failure after =>
    rw [ran] at outcome
    exact (outcome.resolve_left And.left).2

end GoPrompt
