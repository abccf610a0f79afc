import GoPrompt.Proofs.Lexical.Lexes

/-! The tokens of a text come in the order of their places. So a text has all the tokens that a longer text has within
it, up to the first one that is cut off or invalid. -/

namespace GoPrompt

theorem byteSize_pos {text : List Char} (nonempty : text ≠ []) : 0 < byteSize text := by
  obtain ⟨c, rest, rfl⟩ := List.exists_cons_of_ne_nil nonempty
  have positive := c.utf8Size_pos
  rw [byteSize_cons]
  omega

/-- Where a step starts, with its token or with what the end of the input cuts off. -/
def LexStep.StartsAt (step : LexStep) (offset : Nat) : Prop :=
  (∀ token, step.token? = some token → token.span.start = offset) ∧
    ∀ cutoff, step.cutoff? = some cutoff → cutoff.diagnostic.span.start = offset

namespace Lexer

section

variable {lexer after : Lexer} {step : LexStep} {steps steps' : List LexStep} {token : Token}

/-- A token starts in the text that was left, and the lexer goes on where it stops. -/
theorem Reads.span (reads : lexer.Reads step after) (isToken : step.token? = some token) :
    lexer.offset ≤ token.span.start ∧ after.offset = token.span.stop := by
  cases reads with
  | whole | cutOff | invalid | lineEnd =>
    cases isToken
    exact ⟨Nat.le_add_right _ _, rfl⟩
  | inserted =>
    cases isToken
    exact ⟨Nat.le_add_right _ _, (Nat.add_zero _).symm⟩
  | openComment | ended => cases isToken

theorem Reads.nonempty (reads : lexer.Reads step after) (isToken : step.token? = some token)
    (written : ¬ token.IsInserted) :
    token.span.start < token.span.stop := by
  obtain ⟨_, _, _, _, _, nonempty, span, -⟩ := reads.places isToken written
  rw [span]
  exact Nat.lt_add_of_pos_right (byteSize_pos nonempty)

theorem Reads.startsAt (reads : lexer.Reads step after) :
    ∃ stop, step.StartsAt (lexer.offset + byteSize (lexer.rest.take stop)) := by
  cases reads with
  | @whole stop | @cutOff stop | @invalid stop | @lineEnd stop | @openComment stop | @inserted stop | @ended stop =>
    refine ⟨stop, fun token isToken => ?_, fun cutoff isCut => ?_⟩
    · cases isToken <;> rfl
    · cases isCut <;> rfl

theorem Lexes.boundary (lexes : lexer.Lexes steps) {number : Nat} (there : steps[number]? = some step) :
    ∃ front behind, lexer.rest = front ++ behind ∧ step.StartsAt (lexer.offset + byteSize front) := by
  have begins : ∀ {lexer after : Lexer}, lexer.Reads step after →
      ∃ front behind, lexer.rest = front ++ behind ∧ step.StartsAt (lexer.offset + byteSize front) := by
    intro lexer after reads
    obtain ⟨stop, starts⟩ := reads.startsAt
    exact ⟨_, _, (List.take_append_drop stop lexer.rest).symm, starts⟩
  induction lexes generalizing number with
  | ended => simp at there
  | comment reads =>
    obtain rfl := List.mem_singleton.mp (List.mem_of_getElem? there)
    exact begins reads
  | more reads _ _ ih =>
    cases number with
    | zero =>
      obtain rfl := Option.some.inj there
      exact begins reads
    | succ number =>
      obtain ⟨taken, splits, moved⟩ := reads.takes
      obtain ⟨front, behind, rest, starts⟩ := ih there
      refine ⟨taken ++ front, behind, by rw [splits, rest, List.append_assoc], ?_⟩
      rw [byteSize_append, ← Nat.add_assoc, ← moved]
      exact starts

theorem Lexes.starts (lexes : lexer.Lexes steps) {number : Nat} (there : steps[number]? = some step)
    (isToken : step.token? = some token) : lexer.offset ≤ token.span.start := by
  induction lexes generalizing number with
  | ended => simp at there
  | comment =>
    obtain rfl := List.mem_singleton.mp (List.mem_of_getElem? there)
    cases isToken
  | more reads goesOn _ ih =>
    cases number with
    | zero =>
      obtain rfl := Option.some.inj there
      exact (reads.span isToken).1
    | succ number =>
      obtain ⟨first, isFirst⟩ := LexStep.token?_of_goesOn goesOn
      have begins := (reads.span isFirst).1
      have ordered := first.span.ordered
      have later := ih there
      rw [(reads.span isFirst).2] at later
      omega

theorem Lexes.leaves (lexes : lexer.Lexes steps) {number : Nat} (there : steps[number]? = some step) :
    ∃ before after, Reads before step after ∧ after.offset + byteSize after.rest =
    lexer.offset + byteSize lexer.rest := by
  have leaves : ∀ {before after : Lexer} {step : LexStep}, before.Reads step after →
      after.offset + byteSize after.rest = before.offset + byteSize before.rest := by
    intro before after step reads
    obtain ⟨taken, splits, moved⟩ := reads.takes
    rw [splits, byteSize_append, moved, Nat.add_assoc]
  induction lexes generalizing number with
  | ended => simp at there
  | comment reads =>
    obtain rfl := List.mem_singleton.mp (List.mem_of_getElem? there)
    exact ⟨_, _, reads, leaves reads⟩
  | more reads _ _ ih =>
    cases number with
    | zero =>
      obtain rfl := Option.some.inj there
      exact ⟨_, _, reads, leaves reads⟩
    | succ number =>
      obtain ⟨before, after, read, left⟩ := ih there
      exact ⟨before, after, read, left.trans (leaves reads)⟩

theorem Lexes.ordered (lexes : lexer.Lexes steps) {number later : Nat} (less : number < later) {next : LexStep}
    {other : Token} (there : steps[number]? = some step) (isToken : step.token? = some token)
    (there' : steps[later]? = some next) (isToken' : next.token? = some other) :
    token.span.stop ≤ other.span.start := by
  induction lexes generalizing number later with
  | ended => simp at there
  | comment =>
    obtain rfl := List.mem_singleton.mp (List.mem_of_getElem? there)
    cases isToken
  | more reads _ follow ih =>
    cases later with
    | zero => cases less
    | succ later =>
      cases number with
      | zero =>
        obtain rfl := Option.some.inj there
        exact (reads.span isToken).2 ▸ follow.starts there' isToken'
      | succ number => exact ih (Nat.lt_of_succ_lt_succ less) there there'

/-- All the steps, as the lexer collects them. -/
theorem Lexes.steps_eq (lexes : lexer.Lexes steps) (sound : lexer.Sound) : lexer.steps.1 = .ok steps := by
  induction lexes with
  | ended reads =>
    have answered := reads.next sound
    unfold Lexer.steps
    split
    next failed => cases answered.symm.trans failed
    next stepped =>
      cases answered.symm.trans stepped
      rfl
  | comment reads =>
    have answered := reads.next sound
    unfold Lexer.steps
    split
    next failed => cases answered.symm.trans failed
    next stepped =>
      cases answered.symm.trans stepped
      rfl
  | more reads goesOn _ ih =>
    have answered := reads.next sound
    have later := ih (reads.sound sound)
    unfold Lexer.steps
    split
    next failed => cases answered.symm.trans failed
    next stepped =>
      cases answered.symm.trans stepped
      rw [dif_pos goesOn]
      simp only [later]
      rfl

theorem Lexes.unique (lexes : lexer.Lexes steps) (lexes' : lexer.Lexes steps') (sound : lexer.Sound) : steps = steps' :=
  Except.ok.inj ((lexes.steps_eq sound).symm.trans (lexes'.steps_eq sound))

theorem Reads.within {more : List Char} (reads : (lexer.withMore more).Reads (.token token) after)
    (inside : token.span.stop ≤ lexer.offset + byteSize lexer.rest) :
    ∃ behind, after = behind.withMore more ∧ lexer.Reads (.token token) behind := by
  obtain ⟨taken, splits, moved⟩ := reads.takes
  rw [(reads.span rfl).2] at moved
  have short : byteSize taken ≤ byteSize lexer.rest := by
    have : (lexer.withMore more).offset = lexer.offset := rfl
    omega
  obtain ⟨rest, same⟩ : ∃ rest, after.rest = rest ++ more := by
    rcases List.append_eq_append_iff.mp (show lexer.rest ++ more = taken ++ after.rest from splits) with
      ⟨excess, isTaken, isMore⟩ | ⟨rest, _, behind⟩
    · rw [isTaken, byteSize_append] at short
      obtain rfl : excess = [] := Decidable.byContradiction fun nonempty => by
        have := byteSize_pos nonempty
        omega
      exact ⟨[], isMore.symm⟩
    · exact ⟨rest, behind⟩
  have isMore : after = ({ after with rest := rest } : Lexer).withMore more := by
    simp only [Lexer.withMore, ← same]
  rw [isMore] at reads
  exact ⟨_, isMore, reads.of_withMore⟩

/-- A text has the tokens that a longer text has within it. -/
theorem Lexes.within {more : List Char} (longer : (lexer.withMore more).Lexes steps') {number : Nat}
    (tokens : ∀ earlier, earlier ≤ number → ∃ token, steps'[earlier]? = some (.token token))
    (inside : ∀ token, steps'[number]? = some (.token token) → token.span.stop ≤ lexer.offset + byteSize lexer.rest)
    (sound : lexer.Sound) :
    ∃ steps, lexer.Lexes steps ∧ ∀ earlier, earlier ≤ number → steps[earlier]? = steps'[earlier]? := by
  induction number generalizing lexer steps' with
  | zero =>
    obtain ⟨token, isFirst⟩ := tokens 0 (Nat.le_refl _)
    cases longer with
    | ended => simp at isFirst
    | comment => simp at isFirst
    | more reads goesOn later =>
      obtain rfl := Option.some.inj isFirst
      obtain ⟨behind, rfl, reads'⟩ := reads.within (inside token rfl)
      obtain ⟨steps, follow⟩ := (reads'.sound sound).lexes
      refine ⟨_, .more reads' goesOn follow, fun earlier less => ?_⟩
      obtain rfl := Nat.le_zero.mp less
      rfl
  | succ number ih =>
    obtain ⟨first, isFirst⟩ := tokens 0 (Nat.zero_le _)
    obtain ⟨last, isLast⟩ := tokens (number + 1) (Nat.le_refl _)
    have ordered := longer.ordered (Nat.succ_pos number) isFirst rfl isLast rfl
    have ends := inside last isLast
    cases longer with
    | ended => simp at isFirst
    | comment => simp at isFirst
    | more reads goesOn later =>
      obtain rfl := Option.some.inj isFirst
      obtain ⟨behind, rfl, reads'⟩ := reads.within (Nat.le_trans ordered (Nat.le_trans last.span.ordered ends))
      obtain ⟨taken, splits, moved⟩ := reads'.takes
      obtain ⟨steps, follow, same⟩ := ih later (fun earlier less => tokens (earlier + 1) (Nat.succ_le_succ less))
        (fun token isToken => by
          have stop := inside token isToken
          rw [splits, byteSize_append] at stop
          omega)
        (reads'.sound sound)
      refine ⟨_, .more reads' goesOn follow, fun earlier less => ?_⟩
      cases earlier with
      | zero => rfl
      | succ earlier => exact same earlier (Nat.le_of_succ_le_succ less)

end

end Lexer

end GoPrompt
