import GoPrompt.Proofs.Lexical.Fillers
import GoPrompt.Proofs.Lexical.Lexes

/-! The steps as the lexer collects them, one answer after the other. Within the offsets that there are, collecting them
comes to an end, and nothing but the encoding of the text makes it fail. -/

namespace GoPrompt

namespace Lexer

theorem skip_place (lexer : Lexer) (length : Nat) :
    (lexer.skip length).offset + byteSize (lexer.skip length).rest = lexer.offset + byteSize lexer.rest := by
  have parts := byteSize_append (lexer.rest.take length) (lexer.rest.drop length)
  rw [List.take_append_drop] at parts
  simp only [skip]
  omega

private theorem skip_skip (lexer : Lexer) (length further : Nat) :
    (lexer.skip length).skip further = lexer.skip (length + further) := by
  simp only [skip, List.take_add, byteSize_append, List.drop_drop, Nat.add_assoc]

theorem accept_skips (lexer : Lexer) (scan : TokenScan) :
    ∃ armed, (lexer.accept scan).2 = (lexer.skip scan.length).arm armed := by
  unfold accept
  dsimp only
  split
  next => exact ⟨_, rfl⟩
  next => split <;> exact ⟨_, rfl⟩
  next => exact ⟨_, rfl⟩

/-- Whatever the answer, the lexer goes over some of the characters in front of it, and nowhere else. -/
private theorem advance_skips (lexer : Lexer) : ∃ length armed, lexer.advance.2 = (lexer.skip length).arm armed := by
  rcases skipped : gap lexer.armed 0 0 lexer.rest with ⟨stop, landmark⟩
  simp only [advance, skipped]
  cases landmark with
  | token first =>
    simp only [stepAt]
    split
    next => exact ⟨stop, _, rfl⟩
    next =>
      split
      next => exact ⟨stop, _, rfl⟩
      next =>
        obtain ⟨armed, accepted⟩ := (lexer.skip stop).accept_skips (scanToken first ((lexer.skip stop).rest.drop 1))
        exact ⟨_, armed, by rw [accepted, skip_skip]⟩
  | lineEnd length | openComment length => exact ⟨_, _, by simp only [stepAt, skip_skip]; rfl⟩
  | nulInComment length => exact ⟨_, _, by simp only [stepAt, skip_skip]; rfl⟩
  | endOfInput =>
    simp only [stepAt]
    split <;> exact ⟨stop, _, rfl⟩

theorem next_skips (lexer : Lexer) : ∃ length armed, lexer.next.2 = (lexer.skip length).arm armed := by
  unfold next
  dsimp only
  split
  next => exact lexer.advance_skips
  next => exact ⟨0, lexer.armed, rfl⟩

theorem accept_place (lexer : Lexer) (scan : TokenScan) :
    (lexer.accept scan).2.offset + byteSize (lexer.accept scan).2.rest = lexer.offset + byteSize lexer.rest := by
  obtain ⟨armed, accepted⟩ := lexer.accept_skips scan
  rw [accepted]
  exact lexer.skip_place scan.length

private theorem advance_place (lexer : Lexer) :
    lexer.advance.2.offset + byteSize lexer.advance.2.rest = lexer.offset + byteSize lexer.rest := by
  obtain ⟨length, armed, advanced⟩ := lexer.advance_skips
  rw [advanced]
  exact lexer.skip_place length

theorem next_place (lexer : Lexer) :
    lexer.next.2.offset + byteSize lexer.next.2.rest = lexer.offset + byteSize lexer.rest := by
  obtain ⟨length, armed, answered⟩ := lexer.next_skips
  rw [answered]
  exact lexer.skip_place length

theorem steps_of_decide {lexer : Lexer} {p : List LexStep → Bool} (computed : lexer.steps.1.toOption.any p = true) :
    ∃ steps last, lexer.steps = (.ok steps, last) ∧ p steps = true := by
  rcases collected : lexer.steps with ⟨result, last⟩
  rw [collected] at computed
  cases result with
  | ok steps => exact ⟨steps, last, rfl, computed⟩
  | error => cases computed

/-- The lexer collects the steps up to the end of the input, and stands there behind them. -/
inductive Collects : Lexer → List LexStep → Lexer → Prop
  | ended {lexer last : Lexer} (answered : lexer.next = (.ok .endOfInput, last)) : Collects lexer [] last
  | comment {lexer last : Lexer} {cutoff : Cutoff} (answered : lexer.next = (.ok (.incomplete cutoff), last)) :
      Collects lexer [.incomplete cutoff] last
  | more {lexer after last : Lexer} {step : LexStep} {steps : List LexStep} (answered : lexer.next = (.ok step, after))
      (goesOn : step.endsInput = false) (later : Collects after steps last) : Collects lexer (step :: steps) last

section

variable {lexer after last : Lexer} {step : LexStep} {steps : List LexStep} {fault : LexFault}

theorem Collects.of_steps {lexer : Lexer} {steps : List LexStep} (collected : lexer.steps = (.ok steps, last)) :
    lexer.Collects steps last := by
  unfold Lexer.steps at collected
  split at collected
  next => cases collected
  next step after answered =>
    split at collected
    next goesOn =>
      have smaller := remaining_next_lt answered goesOn
      rcases later : after.steps with ⟨result, behind⟩
      simp only [later] at collected
      cases result with
      | error => cases collected
      | ok rest =>
        cases collected
        exact .more answered goesOn (of_steps later)
    next ends =>
      cases collected
      cases step with
      | endOfInput => exact .ended answered
      | incomplete cutoff => exact .comment answered
      | token | truncated | invalid => exact absurd rfl ends
termination_by lexer.remaining

theorem Collects.lexes (collects : lexer.Collects steps last) : lexer.Lexes steps := by
  induction collects with
  | ended answered => exact .ended (.of_next answered)
  | comment answered => exact .comment (.of_next answered)
  | more answered goesOn _ ih => exact .more (.of_next answered) goesOn ih

theorem Reads.ends (reads : lexer.Reads step after) (ends : step.endsInput = true) :
    after.rest = [] ∧ after.armed = false := by
  cases reads with
  | @openComment stop length skipped =>
    obtain ⟨fillers, behind, parts, size, -, -, whole, -⟩ := gap_skips skipped
    rw [Nat.sub_zero] at size
    refine ⟨?_, rfl⟩
    show (lexer.rest.drop stop).drop length = []
    rw [parts, size, List.drop_left, whole, List.drop_length]
  | ended skipped unarmed =>
    have ended := (gap_holds _ _ _ _ skipped).2
    simp only [Landmark.Holds, Nat.zero_add, Nat.sub_zero] at ended
    exact ⟨ended, unarmed⟩
  | whole | cutOff | invalid | lineEnd | inserted => cases ends

theorem offset_le_of_next (answered : lexer.next = (.ok step, after)) : after.offset ≤ maxOffset := by
  unfold next at answered
  dsimp only at answered
  split at answered
  next within =>
    obtain ⟨-, rfl⟩ := Prod.mk.inj answered
    exact within
  next => cases answered

/-- The end of the input is found behind all of the text, within the offsets that there are. -/
theorem next_ended (answered : lexer.next = (.ok .endOfInput, after)) : after.rest = [] ∧ after.offset ≤ maxOffset :=
  ⟨((Reads.of_next answered).ends rfl).1, offset_le_of_next answered⟩

/-- Behind the last step the lexer stands at the end of the text, with nothing to insert there. -/
theorem Collects.last_ended (collects : lexer.Collects steps last) : last.rest = [] ∧ last.armed = false ∧
    last.offset = lexer.offset + byteSize lexer.rest ∧ last.offset ≤ maxOffset := by
  have stops : ∀ {lexer last : Lexer} {step : LexStep}, lexer.next = (.ok step, last) → step.endsInput = true →
      last.rest = [] ∧ last.armed = false ∧ last.offset = lexer.offset + byteSize lexer.rest ∧
        last.offset ≤ maxOffset := by
    intro lexer last step answered ends
    obtain ⟨empty, unarmed⟩ := (Reads.of_next answered).ends ends
    have place := lexer.next_place
    rw [answered, empty, byteSize_nil, Nat.add_zero] at place
    exact ⟨empty, unarmed, place, offset_le_of_next answered⟩
  induction collects with
  | ended answered => exact stops answered rfl
  | comment answered => exact stops answered rfl
  | @more lexer _ _ _ _ answered _ _ ih =>
    have place := lexer.next_place
    rw [answered] at place
    rwa [place] at ih

theorem next_at_end (empty : lexer.rest = []) (unarmed : lexer.armed = false) (fits : lexer.offset ≤ maxOffset) :
    lexer.next = (.ok .endOfInput, lexer) := by
  obtain ⟨source, rest, offset, armed⟩ := lexer
  obtain rfl : rest = [] := empty
  obtain rfl : armed = false := unarmed
  have stays : advance ⟨source, [], offset, false⟩ = (.ok .endOfInput, ⟨source, [], offset, false⟩) := rfl
  simp only [next, stays]
  exact if_pos fits

theorem accept_ok {first : Char} {rest : List Char} (here : lexer.rest = first :: rest) :
    ∃ step, (lexer.accept (scanToken first rest)).1 = .ok step := by
  unfold accept
  dsimp only
  split
  next => exact ⟨_, rfl⟩
  next kind cause isCut =>
    have covers := le_scanToken_length_of_cutOff isCut
    have empty : (lexer.skip (scanToken first rest).length).rest.isEmpty = true := by
      rw [List.isEmpty_iff]
      show lexer.rest.drop _ = []
      rw [here]
      exact List.drop_eq_nil_of_le covers
    rw [if_pos empty]
    exact ⟨_, rfl⟩
  next => exact ⟨_, rfl⟩

/-- Within the offsets that there are, nothing but the encoding of the text makes a step fail. -/
theorem next_fault (fits : lexer.offset + byteSize lexer.rest ≤ maxOffset) (failed : lexer.next.1 = .error fault) :
    ∃ diagnostic, fault = .malformed diagnostic := by
  have advanced : ∀ fault, lexer.advance.1 = .error fault → ∃ diagnostic, fault = .malformed diagnostic := by
    intro fault failed
    rcases skipped : gap lexer.armed 0 0 lexer.rest with ⟨stop, landmark⟩
    simp only [advance, skipped] at failed
    cases landmark with
    | token first =>
      obtain ⟨rest, here⟩ := gap_begins skipped
      simp only [stepAt] at failed
      split at failed
      next =>
        cases failed
        exact ⟨_, rfl⟩
      next =>
        split at failed
        next =>
          cases failed
          exact ⟨_, rfl⟩
        next =>
          have ahead : (lexer.skip stop).rest = first :: rest := here
          obtain ⟨step, accepted⟩ := accept_ok ahead
          rw [ahead, List.drop_one, List.tail_cons, accepted] at failed
          cases failed
    | lineEnd | openComment => cases failed
    | nulInComment =>
      cases failed
      exact ⟨_, rfl⟩
    | endOfInput =>
      simp only [stepAt] at failed
      split at failed <;> cases failed
  unfold next at failed
  dsimp only at failed
  split at failed
  next => exact advanced fault failed
  next beyond =>
    have place := lexer.advance_place
    omega

/-- Collecting the steps of a text comes to an end, and fails only because of the encoding. -/
theorem steps_fault {lexer : Lexer} (fits : lexer.offset + byteSize lexer.rest ≤ maxOffset)
    (failed : lexer.steps.1 = .error fault) : ∃ diagnostic, fault = .malformed diagnostic := by
  unfold Lexer.steps at failed
  split at failed
  next fault' after answered =>
    cases failed
    exact next_fault fits (congrArg Prod.fst answered)
  next step after answered =>
    split at failed
    next goesOn =>
      have smaller := remaining_next_lt answered goesOn
      have place := lexer.next_place
      rw [answered] at place
      cases later : after.steps.1 with
      | ok steps =>
        simp only [later] at failed
        cases failed
      | error fault' =>
        simp only [later] at failed
        cases failed
        exact steps_fault (place ▸ fits) later
    next => cases failed
termination_by lexer.remaining

end

end Lexer

end GoPrompt
