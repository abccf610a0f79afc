import GoPrompt.Proofs.Coupled.Statements
import GoPrompt.Proofs.Stream.Onward

/-! The whole grammar only goes on in its stream, because every single step does. No second run is needed for
that: a coupling in which no run is on a common path says nothing of one. -/

namespace GoPrompt

open Parse

namespace Coupling

/-- Runs that go on from the given stream. -/
def onwardFrom (start : TokenStream) : Coupling where
  marks _ _ _ := False
  settled _ _ _ := False
  seen _ _ _ _ _ := False
  window _ _ _ _ _ _ _ := False
  gone state := start.Onward state.stream
  excused _ state := start.Onward state.stream
  free := True
  stray _ _ := True
  fails _ _ _ _ := False

variable {start : TokenStream} {α : Type} [Alike α]

omit [Alike α] in
theorem onwardFrom_keeps {program : Parse α} (onwards : Onwards program) : (onwardFrom start).Keeps program := by
  intro state gone
  have moved := onwards state
  cases ran : program state <;> rw [ran] at moved <;> exact gone.trans moved

private theorem onwardFrom_coupled {program other : Parse α} {pre : ParseState → ParseState → Prop}
    {post : α → α → ParseState → ParseState → Prop} (onwards : Onwards program)
    (never : ∀ before after, ¬ pre before after) :
    (onwardFrom start).Coupled pre program other post := by
  exact ⟨onwardFrom_keeps onwards, fun before after holds => absurd holds (never before after)⟩

theorem onwardFrom_lawful (start : TokenStream) : (onwardFrom start).Lawful where
  excuse _ gone := gone
  settled_marks := id
  window_marks := id
  progress := False.elim
  seen_settled := id
  look _ := onwardFrom_coupled (onwards_peek 0) fun _ _ => id
  take _ _ _ _ _ := onwardFrom_coupled onwards_bump fun _ _ => id
  reject _ one _ expected _ := onwardFrom_coupled (onwards_unexpected one expected) fun _ _ => id
  lose _ _ := False.elim
  spoil _ _ _ := False.elim
  loose _ _ := False.elim
  ended _ expected := onwardFrom_coupled (onwards_endOfInput expected) fun _ _ => id
  stop _ limit := onwardFrom_coupled (onwards_beyondLimit limit) fun _ _ => id
  lookBeyond _ _ _ _ _ := onwardFrom_coupled (onwards_peek 1) fun _ _ => id
  lookInWindow := False.elim
  takeInWindow _ _ _ _ _ := onwardFrom_coupled onwards_bump fun _ _ => id
  takeBoth _ _ _ _ _ := onwardFrom_coupled onwards_bump fun _ _ => id
  loseBeyond _ _ := False.elim

end Coupling

theorem wholeText_onward (limit : Nat) {state : ParseState} (shallow : state.depth = 0) :
    match Grammar.wholeText limit state with
    | .ok _ after | .error _ after => state.stream.Onward after.stream := by
  have kept := Grammar.wholeText_keeps (Coupling.onwardFrom_lawful state.stream) limit shallow (.refl state.stream)
  cases ran : Grammar.wholeText limit state <;> rw [ran] at kept <;> exact kept

private theorem textEnd_looked {state after : ParseState} {found statement : Statement}
    (ran : (do
      match ← peek 0 with
      | none => return found
      | some token => unexpected token ["end of statement"] : Parse Statement) state = .ok statement after) :
    found = statement ∧ peek 0 state = .ok none after := by
  obtain ⟨next, reached, looked, ran⟩ := of_bind_ok ran
  cases next with
  | none =>
    cases ran
    exact ⟨rfl, looked⟩
  | some token => exact absurd ran (unexpected_ne_ok token _ _)

section

variable {limit : Nat} {state after : ParseState} {statement : Statement}

theorem wholeText_parts (ran : Grammar.wholeText limit state = .ok statement after) :
    ∃ first begun ended noted closed semicolon, peek 0 state = .ok (some first) begun ∧ isSemicolon first.kind = false ∧
      Grammar.topLevelStatement limit begun = .ok statement ended ∧ atSemicolon ended = .ok semicolon noted ∧
      (semicolon = true → bump noted = .ok () closed) ∧ (semicolon = false → closed = noted) ∧
      peek 0 closed = .ok none after := by
  obtain ⟨found, begun, looked, ran⟩ := of_bind_ok ran
  cases found with
  | none => cases ran
  | some first =>
    dsimp only at ran
    split at ran
    next => exact absurd ran (unexpected_ne_ok first _ _)
    next written =>
      obtain ⟨found, ended, read, ran⟩ := of_bind_ok ran
      obtain ⟨semicolon, noted, asked, ran⟩ := of_bind_ok ran
      -- Whether or not there is a semicolon, there is nothing behind it.
      cases semicolon with
      | false =>
        obtain ⟨rfl, looked'⟩ := textEnd_looked ran
        exact ⟨first, begun, ended, noted, noted, false, looked, Bool.eq_false_iff.mpr written, read, asked,
          nofun, fun _ => rfl, looked'⟩
      | true =>
        obtain ⟨_, closed, taken, ran⟩ := of_bind_ok ran
        obtain ⟨rfl, looked'⟩ := textEnd_looked ran
        exact ⟨first, begun, ended, noted, closed, true, looked, Bool.eq_false_iff.mpr written, read, asked,
          fun _ => taken, nofun, looked'⟩

theorem wholeText_looked (ran : Grammar.wholeText limit state = .ok statement after) :
    ∃ before, peek 0 before = .ok none after := by
  obtain ⟨_, _, _, _, closed, _, _, _, _, _, _, _, looked⟩ := wholeText_parts ran
  exact ⟨closed, looked⟩

theorem wholeText_exhausted (ran : Grammar.wholeText limit state = .ok statement after) :
    after.stream.exhausted = true := by
  obtain ⟨before, looked⟩ := wholeText_looked ran
  exact TokenStream.peek_exhausted (of_onStream_ok looked)

end

end GoPrompt
