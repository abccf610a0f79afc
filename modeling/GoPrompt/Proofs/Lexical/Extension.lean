import GoPrompt.Proofs.Lexical.Sorts
import GoPrompt.Proofs.Lexical.Reads

/-! Single steps of the lexer on a text and on a longer one. -/

namespace GoPrompt

/-- Whether the step does not depend on the end of the text. -/
def LexStep.isSettled : LexStep → Bool
  | .token read => read.kind != .semicolon .endOfInput
  | .invalid _ _ => true
  | .truncated _ _ | .incomplete _ | .endOfInput => false

namespace Lexer

/-- The lexer in the same place of a longer text. -/
def withMore (lexer : Lexer) (more : List Char) : Lexer := { lexer with rest := lexer.rest ++ more }

section

variable {lexer after : Lexer} {step : LexStep} (more : List Char) {length : Nat}

theorem withMore_skip (within : length ≤ lexer.rest.length) :
    (lexer.withMore more).skip length = (lexer.skip length).withMore more := by
  simp only [skip, withMore, List.drop_append_of_le_length within, List.take_append_of_le_length within]

theorem withMore_token (kind : TokenKind) (within : length ≤ lexer.rest.length) :
    (lexer.withMore more).token kind length = lexer.token kind length := by
  simp only [token, span, withMore, List.take_append_of_le_length within]

theorem token_within {stop : Nat} {first : Char} {rest : List Char} (here : lexer.rest.drop stop = first :: rest) :
    stop ≤ lexer.rest.length ∧ (lexer.skip stop).rest.length = rest.length + 1 := by
  have := congrArg List.length here
  simp only [List.length_drop, List.length_cons] at this
  exact ⟨by omega, by simp [skip, here]⟩

theorem withMore_here {stop : Nat} {first : Char} {rest : List Char} (here : lexer.rest.drop stop = first :: rest) :
    (lexer.withMore more).rest.drop stop = first :: (rest ++ more) := by
  simp only [withMore, List.drop_append_of_le_length (token_within here).1, here, List.cons_append]

theorem withMore_flawDiagnostic {flaw : Flaw} (within : flaw.Within lexer.rest.length) :
    (lexer.withMore more).flawDiagnostic flaw = lexer.flawDiagnostic flaw := by
  obtain ⟨ordered, inside⟩ := within
  have start : (lexer.withMore more).skip flaw.first = (lexer.skip flaw.first).withMore more :=
    withMore_skip more (Nat.le_trans ordered inside)
  have here : flaw.last - flaw.first ≤ (lexer.skip flaw.first).rest.length := by
    simp only [skip, List.length_drop]
    omega
  simp only [flawDiagnostic, start]
  simp only [span, withMore, List.take_append_of_le_length here]

/-- What more text does not change. -/
theorem Reads.settled {more : List Char} (blank : StartsBlank more) (reads : lexer.Reads step after)
    (settled : step.isSettled = true) :
    (lexer.withMore more).Reads step (after.withMore more) ∧
      gap (lexer.withMore more).armed 0 0 (lexer.withMore more).rest = gap lexer.armed 0 0 lexer.rest := by
  have scannedWithin : ∀ {stop first rest length shape}, lexer.rest.drop stop = first :: rest →
      scanToken first rest = ⟨length, shape⟩ → stop ≤ lexer.rest.length ∧ length ≤ (lexer.skip stop).rest.length := by
    intro stop first rest length shape here scanned
    obtain ⟨within, size⟩ := token_within here
    have taken := scanToken_length_le first rest
    rw [scanned] at taken
    exact ⟨within, size ▸ taken⟩
  cases reads with
  | @whole stop first rest length kind skipped here scanned =>
    have moved := gap_append_of_blank blank skipped rfl
    obtain ⟨stopWithin, within⟩ := scannedWithin here scanned
    have same : scanToken first (rest ++ more) = ⟨length, .whole kind⟩ := by
      rcases scanToken_append_of_blank blank with same | ⟨_, _, cutOff, _⟩
      · exact same.trans scanned
      · rw [scanned] at cutOff
        cases cutOff
    have reads' := Reads.whole moved (withMore_here more here) same
    rw [withMore_skip more stopWithin, withMore_token more kind within, withMore_skip more within] at reads'
    exact ⟨reads', moved.trans skipped.symm⟩
  | @invalid stop first rest length flaw skipped here scanned =>
    have moved := gap_append_of_blank blank skipped rfl
    obtain ⟨stopWithin, within⟩ := scannedWithin here scanned
    have same : scanToken first (rest ++ more) = ⟨length, .invalid flaw⟩ := by
      rcases scanToken_append_of_blank blank with same | ⟨_, _, cutOff, _⟩
      · exact same.trans scanned
      · rw [scanned] at cutOff
        cases cutOff
    have inside : flaw.Within length := by
      have inside := scanToken_flaw_within (congrArg TokenScan.shape scanned)
      rwa [scanned] at inside
    have reads' := Reads.invalid moved (withMore_here more here) same
    rw [withMore_skip more stopWithin, withMore_token more _ within, withMore_skip more within,
      withMore_flawDiagnostic more (inside.mono within)] at reads'
    exact ⟨reads', moved.trans skipped.symm⟩
  | @lineEnd stop length skipped =>
    have moved : gap (lexer.withMore more).armed 0 0 (lexer.withMore more).rest = (stop, .lineEnd length) :=
      gap_append_of_blank blank skipped rfl
    have within := gap_lineEnd_le skipped
    rw [Nat.zero_add] at within
    have size : (lexer.skip stop).rest.length = lexer.rest.length - stop := List.length_drop
    have reads' := Reads.lineEnd moved
    rw [withMore_skip more (by omega), withMore_token more _ (by omega), withMore_skip more (by omega)] at reads'
    exact ⟨reads', moved.trans skipped.symm⟩
  | cutOff | openComment | inserted | ended => cases settled

/-- With a blank behind it, the next token of a text is the same, unless the end of the text cuts it off:
then what comes in its place is a literal of its kind or illegal. -/
theorem Reads.withMore {more : List Char} (blank : StartsBlank more)
    (reads : lexer.Reads step after) {token : Token} (isToken : step.token? = some token)
    (notInserted : token.kind ≠ .semicolon .endOfInput) :
    ∃ step' after' token', (lexer.withMore more).Reads step' after' ∧ step'.token? = some token' ∧
      ((token' = token ∧ after' = after.withMore more) ∨
        (after.rest = [] ∧ after.armed = false ∧ (∃ cutoff, step = .truncated token cutoff) ∧
          token'.span.start = token.span.start ∧ (token'.kind = token.kind ∨ token'.kind = .illegal))) := by
  by_cases settled : step.isSettled = true
  · exact ⟨step, _, token, (reads.settled blank settled).1, isToken, .inl ⟨rfl, rfl⟩⟩
  cases reads with
  | @cutOff stop first rest length kind cause skipped here scanned =>
    have moved := gap_append_of_blank blank skipped rfl
    obtain ⟨stopWithin, size⟩ := token_within here
    have covers := le_scanToken_length_of_cutOff (show (scanToken first rest).shape =
      .cutOff kind cause by rw [scanned])
    rw [scanned] at covers
    cases isToken
    have ended : (((lexer.skip stop).skip length).arm false).rest = [] :=
      List.drop_eq_nil_of_le (Nat.le_trans (Nat.le_of_eq size) covers)
    have start : ∀ kind' length', (((lexer.withMore more).skip stop).token kind' length').span.start =
        ((lexer.skip stop).token (.literal kind) length).span.start := by
      intro kind' length'
      rw [withMore_skip more stopWithin]
      rfl
    rcases longer : scanToken first (rest ++ more) with ⟨length', shape⟩
    have changed : (∀ found, shape = .whole found → found = .literal kind) ∧
        (∀ found cause, shape = .cutOff found cause → found = kind) := by
      rcases scanToken_append_of_blank blank with same | ⟨_, _, cutOff, wholes, cuts⟩
      · rw [longer, scanned] at same
        cases same
        refine ⟨fun found whole => (by cases whole), fun found cause cut => (by cases cut; rfl)⟩
      · rw [scanned] at cutOff
        cases cutOff
        rw [longer] at wholes cuts
        exact ⟨wholes, cuts⟩
    cases shape with
    | whole kind' =>
      refine ⟨_, _, _, .whole moved (withMore_here more here) longer, rfl,
        .inr ⟨ended, rfl, ⟨_, rfl⟩, start _ _, .inl ?_⟩⟩
      exact changed.1 kind' rfl
    | cutOff kind' cause' =>
      refine ⟨_, _, _, .cutOff moved (withMore_here more here) longer, rfl,
        .inr ⟨ended, rfl, ⟨_, rfl⟩, start _ _, .inl ?_⟩⟩
      exact congrArg TokenKind.literal (changed.2 kind' cause' rfl)
    | invalid flaw =>
      exact ⟨_, _, _, .invalid moved (withMore_here more here) longer, rfl,
        .inr ⟨ended, rfl, ⟨_, rfl⟩, start _ _, .inr rfl⟩⟩
  | @whole stop first rest length kind _ _ scanned =>
    cases isToken
    exact absurd (bne_iff_ne.mpr notInserted) settled
  | invalid | lineEnd => exact absurd rfl settled
  | inserted =>
    cases isToken
    exact absurd rfl notInserted
  | openComment | ended => cases isToken

private theorem skip_rest (lexer : Lexer) (length : Nat) :
    lexer.rest = lexer.rest.take length ++ (lexer.skip length).rest := (List.take_append_drop _ _).symm

theorem Reads.takes (reads : lexer.Reads step after) :
    ∃ taken, lexer.rest = taken ++ after.rest ∧ after.offset = lexer.offset + byteSize taken := by
  have twice : ∀ stop length, lexer.rest = (lexer.rest.take stop ++ (lexer.skip stop).rest.take length) ++
      ((lexer.skip stop).skip length).rest ∧
      ((lexer.skip stop).skip length).offset =
        lexer.offset + byteSize (lexer.rest.take stop ++ (lexer.skip stop).rest.take length) := by
    intro stop length
    refine ⟨?_, by simp only [skip, byteSize_append]; omega⟩
    rw [List.append_assoc, ← skip_rest, ← skip_rest]
  cases reads with
  | whole | cutOff | invalid | lineEnd | openComment => exact ⟨_, twice _ _⟩
  | inserted | ended => exact ⟨_, skip_rest lexer _, rfl⟩

private theorem withMore_injective {first second : Lexer} {more : List Char}
    (same : first.withMore more = second.withMore more) :
    first = second := by
  cases first
  cases second
  simp only [withMore, mk.injEq, List.append_cancel_right_eq] at same ⊢
  exact same

/-- A token that a longer text has within the shorter one is there, too. -/
theorem Reads.of_withMore {more : List Char} {token : Token}
    (reads : (lexer.withMore more).Reads (.token token) (after.withMore more)) : lexer.Reads (.token token) after := by
  generalize behind : after.withMore more = last at reads
  have sizes := congrArg (fun lexer => lexer.rest.length) behind
  cases reads with
  | @whole stop first rest length kind skipped here scanned =>
    have inside := (token_within here).1
    have left := (token_within here).2
    have within := scanToken_length_le first rest
    have positive := one_le_scanToken_length first rest
    rw [scanned] at within positive
    simp only [Lexer.withMore, skip, arm, List.length_append, List.length_drop] at sizes inside left within positive
    have skipped' := (gap_of_append skipped).1 1 rfl (by omega)
    have here' := here
    simp only [Lexer.withMore] at here'
    rw [List.drop_append_of_le_length (by omega)] at here'
    obtain ⟨rest', starts, rfl⟩ : ∃ rest', lexer.rest.drop stop = first :: rest' ∧ rest' ++ more = rest := by
      cases tail : lexer.rest.drop stop with
      | nil =>
        have := List.drop_eq_nil_iff.mp tail
        omega
      | cons c rest' =>
        rw [tail, List.cons_append] at here'
        obtain ⟨rfl, rfl⟩ := List.cons.inj here'
        exact ⟨rest', rfl, rfl⟩
    have size := congrArg List.length starts
    simp only [List.length_drop, List.length_cons] at size
    have scanned' := scanToken_of_append scanned (by omega)
    have inner : length ≤ (lexer.skip stop).rest.length := by
      simp only [skip, List.length_drop]
      omega
    rw [withMore_skip more (by omega), withMore_skip more inner] at behind
    rw [withMore_skip more (by omega), withMore_token more kind inner]
    rw [show after = ((lexer.skip stop).skip length).arm kind.terminatesLine from withMore_injective behind]
    exact .whole skipped' starts scanned'
  | @lineEnd stop length skipped =>
    have within := gap_lineEnd_le skipped
    simp only [Lexer.withMore, skip, arm, List.length_append, List.length_drop, Nat.zero_add] at sizes within
    have skipped' := (gap_of_append skipped).1 length rfl (by omega)
    have inner : length ≤ (lexer.skip stop).rest.length := by
      simp only [skip, List.length_drop]
      omega
    rw [withMore_skip more (by omega), withMore_skip more inner] at behind
    rw [withMore_skip more (by omega), withMore_token more _ inner]
    rw [show after = ((lexer.skip stop).skip length).arm false from withMore_injective behind]
    exact .lineEnd skipped'
  | @inserted stop skipped armed =>
    have ended := (gap_holds _ _ _ _ skipped).2
    simp only [Landmark.Holds, Nat.zero_add, Nat.sub_zero] at ended
    have nothing : after.rest ++ more = [] := by
      exact (congrArg Lexer.rest behind).trans ended
    obtain ⟨-, rfl⟩ := List.append_eq_nil_iff.mp nothing
    have whole : ∀ lexer : Lexer, lexer.withMore [] = lexer := fun lexer => by simp [Lexer.withMore]
    rw [whole] at behind skipped armed ⊢
    rw [behind, whole]
    exact .inserted skipped armed

end

end Lexer

end GoPrompt
