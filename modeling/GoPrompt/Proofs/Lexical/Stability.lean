import GoPrompt.Proofs.Lexical.Collected
import GoPrompt.Proofs.Lexical.Encoding

/-! Behind a blank, more text changes no step of the text in front of it, but for the last one if the end of that text
has a part in it. So a source that grows by whole lines keeps its steps. -/

namespace GoPrompt

/-- The steps without a last one that the end of the text has a part in. -/
def settled (steps : List LexStep) : List LexStep :=
  if steps.getLast?.all LexStep.isSettled then steps else steps.dropLast

private theorem settled_cons {step : LexStep} (isSettled : step.isSettled = true) (steps : List LexStep) :
    settled (step :: steps) = step :: settled steps := by
  unfold settled
  cases steps with
  | nil => simp [isSettled]
  | cons next steps =>
    rw [List.getLast?_cons_cons, List.dropLast_cons_cons]
    split <;> rfl

private theorem settled_singleton {step : LexStep} (unsettled : ¬ step.isSettled = true) : settled [step] = [] :=
  if_neg (by simpa using unsettled)

namespace Lexer

def answers : Nat → Lexer → List (Except LexFault LexStep)
  | 0, _ => []
  | count + 1, lexer => lexer.next.1 :: answers count lexer.next.2

section

variable {lexer after last : Lexer} {step : LexStep} {steps kept : List LexStep} {more : List Char}

private theorem next_settled (answered : lexer.next = (.ok step, after)) (isSettled : step.isSettled = true)
    (blank : StartsBlank more) : (lexer.withMore more).next = (.ok step, after.withMore more) := by
  obtain ⟨reads, same⟩ := (Reads.of_next answered).settled blank isSettled
  refine reads.next_of_allowed ?_ (show after.offset ≤ maxOffset from offset_le_of_next answered)
  intro stop first skipped
  exact beginsAllowed_of_next answered (same.symm.trans skipped)

private theorem Reads.unsettled (reads : lexer.Reads step after) (goesOn : step.endsInput = false)
    (unsettled : ¬ step.isSettled = true) : after.rest = [] ∧ after.armed = false := by
  cases step with
  | token token =>
    have atEnd : token.kind = .semicolon .endOfInput := by simpa [LexStep.isSettled] using unsettled
    exact reads.inserted_ends atEnd
  | truncated => exact reads.truncated_ends
  | invalid => exact absurd rfl unsettled
  | incomplete | endOfInput => cases goesOn

private theorem Collects.answers_withMore (collects : lexer.Collects steps last) (blank : StartsBlank more) :
    (lexer.withMore more).answers (settled steps).length = (settled steps).map .ok := by
  induction collects with
  | ended => rfl
  | comment => rfl
  | @more lexer after last step steps answered goesOn later ih =>
    by_cases isSettled : step.isSettled = true
    · rw [settled_cons isSettled, List.length_cons, answers, next_settled answered isSettled blank, ih, List.map_cons]
    · obtain ⟨empty, unarmed⟩ := (Reads.of_next answered).unsettled goesOn isSettled
      obtain rfl := later.lexes.eq_nil empty unarmed
      rw [settled_singleton isSettled]
      rfl

private theorem Collects.prefix_of_answers (collects : lexer.Collects steps last)
    (goOn : ∀ step ∈ kept, step.endsInput = false) (first : lexer.answers kept.length = kept.map .ok) :
    kept <+: steps := by
  induction kept generalizing lexer steps with
  | nil => exact List.nil_prefix
  | cons step kept ih =>
    obtain ⟨isFirst, later⟩ := List.cons.inj first
    have goesOn := goOn step List.mem_cons_self
    cases collects with
    | ended answered =>
      rw [answered] at isFirst
      cases isFirst
      cases goesOn
    | comment answered =>
      rw [answered] at isFirst
      cases isFirst
      cases goesOn
    | more answered _ collects =>
      rw [answered] at isFirst later
      cases isFirst
      exact List.cons_prefix_cons.mpr ⟨rfl, ih collects (fun step mem => goOn step (List.mem_cons_of_mem _ mem)) later⟩

private theorem Collects.settled_goOn (collects : lexer.Collects steps last) :
    ∀ step ∈ settled steps, step.endsInput = false := by
  induction collects with
  | ended => exact fun step mem => absurd mem List.not_mem_nil
  | comment => exact fun step mem => absurd mem List.not_mem_nil
  | @more lexer after last step steps answered goesOn later ih =>
    by_cases isSettled : step.isSettled = true
    · rw [settled_cons isSettled]
      exact List.forall_mem_cons.mpr ⟨goesOn, ih⟩
    · obtain ⟨empty, unarmed⟩ := (Reads.of_next answered).unsettled goesOn isSettled
      obtain rfl := later.lexes.eq_nil empty unarmed
      rw [settled_singleton isSettled]
      exact fun step mem => absurd mem List.not_mem_nil

end

private theorem ofText_withMore {more : List Char} (blank : StartsBlank more) (source : Nat) (text : List Char) :
    ofText source (text ++ more) = (ofText source text).withMore more := by
  cases more with
  | nil => simp [withMore]
  | cons c more =>
    have notMark : c ≠ byteOrderMark := by
      rintro rfl
      cases blank
    exact ofText_behind notMark source text more

/-- The steps of a text come first in every longer text that goes on with a blank, except for those that the end of the
shorter text has a part in. -/
theorem steps_append {source : Nat} {text more : List Char} {steps : List LexStep} {last : Lexer}
    (collected : (ofText source text).steps = (.ok steps, last)) (blank : StartsBlank more) :
    (ofText source (text ++ more)).answers (settled steps).length = (settled steps).map .ok ∧
      ∀ steps' last', (ofText source (text ++ more)).steps = (.ok steps', last') → settled steps <+: steps' := by
  have collects := Collects.of_steps collected
  have first := collects.answers_withMore blank
  rw [← ofText_withMore blank] at first
  exact ⟨first, fun _ _ longer => (Collects.of_steps longer).prefix_of_answers collects.settled_goOn first⟩

/-- A flawed string and a name stay, but not the semicolon behind them, when a line break and an open comment follow. -/
theorem steps_append_comment : StartsBlank "\n/*".toList ∧ ∃ steps last,
    (ofText 0 "\"\\q\" x".toList).steps = (.ok steps, last) ∧ (settled steps).length = 2 ∧ steps.length = 3 ∧
      (ofText 0 ("\"\\q\" x".toList ++ "\n/*".toList)).answers (settled steps).length = (settled steps).map .ok ∧
        ∀ steps' last', (ofText 0 ("\"\\q\" x".toList ++ "\n/*".toList)).steps = (.ok steps', last') →
          settled steps <+: steps' := by
  have blank : StartsBlank "\n/*".toList := by
    rw [StartsBlank]
    decide
  obtain ⟨steps, last, collected, counts⟩ := @steps_of_decide (ofText 0 "\"\\q\" x".toList)
    (fun steps => (settled steps).length == 2 && steps.length == 3) (by decide +kernel)
  obtain ⟨kept, count⟩ : (settled steps).length = 2 ∧ steps.length = 3 := by simpa using counts
  exact ⟨blank, steps, last, collected, kept, count, steps_append collected blank⟩

end Lexer

end GoPrompt
