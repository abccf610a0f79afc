import GoPrompt.Proofs.Lexical.Returns
import GoPrompt.Proofs.Stream.Reading

/-! The steps of the lexer over two texts that say the same. They read tokens of the same kinds up to the first illegal
one, and find the same construct cut off; where their tokens stand does not matter. Two such texts are a text and the
same text with a carriage return in front of every newline. -/

namespace GoPrompt

/-- Steps that read tokens of the same kind, or are cut off within the same construct. -/
inductive LexStep.Parallel : LexStep → LexStep → Prop
  | token {token token' : Token} (kind : token.kind = token'.kind) : Parallel (.token token) (.token token')
  | truncated {token token' : Token} {cutoff cutoff' : Cutoff} (kind : token.kind = token'.kind)
      (construct : cutoff.construct = cutoff'.construct) :
      Parallel (.truncated token cutoff) (.truncated token' cutoff')
  | invalid {token token' : Token} (illegal : token.kind = .illegal) (illegal' : token'.kind = .illegal)
      (diagnostic diagnostic' : LexDiagnostic) : Parallel (.invalid token diagnostic) (.invalid token' diagnostic')
  | incomplete {cutoff cutoff' : Cutoff} (construct : cutoff.construct = cutoff'.construct) :
      Parallel (.incomplete cutoff) (.incomplete cutoff')
  | endOfInput : Parallel .endOfInput .endOfInput

theorem LexStep.Parallel.kind {step step' : LexStep} (parallel : step.Parallel step') :
    step.token?.map (·.kind) = step'.token?.map (·.kind) := by
  cases parallel with
  | token kind | truncated kind => exact congrArg some kind
  | invalid illegal illegal' => exact congrArg some (illegal.trans illegal'.symm)
  | incomplete | endOfInput => rfl

theorem LexStep.Parallel.construct {step step' : LexStep} (parallel : step.Parallel step') :
    step.cutoff?.map (·.construct) = step'.cutoff?.map (·.construct) := by
  cases parallel with
  | truncated _ construct | incomplete construct => exact congrArg some construct
  | token | invalid | endOfInput => rfl

/-- The steps over two texts that say the same up to the first illegal token. -/
inductive InParallel : List LexStep → List LexStep → Prop
  | ended : InParallel [] []
  | illegal {step step' : LexStep} (parallel : step.Parallel step')
      (illegal : ∃ token, step.token? = some token ∧ token.kind = .illegal) (behind behind' : List LexStep) :
      InParallel (step :: behind) (step' :: behind')
  | more {step step' : LexStep} {steps steps' : List LexStep} (parallel : step.Parallel step')
      (later : InParallel steps steps') :
      InParallel (step :: steps) (step' :: steps')

section

variable {steps steps' : List LexStep}

/-- Whether all tokens in front of the one with a number are legal. -/
def LegalBefore (steps : List LexStep) (number : Nat) : Prop :=
  ∀ earlier found, earlier < number → tokenAt steps earlier = some found → found.kind ≠ .illegal

theorem LegalBefore.tail {step : LexStep} {number : Nat} (legal : LegalBefore (step :: steps) (number + 1)) :
    LegalBefore steps number := fun earlier found less => legal (earlier + 1) found (Nat.succ_lt_succ less)

/-- Behind legal tokens the two texts go on with the same step, or both are at their end. -/
theorem InParallel.step (parallel : InParallel steps steps') {number : Nat} (legal : LegalBefore steps number) :
    (steps[number]? = none ∧ steps'[number]? = none) ∨
      ∃ step step', steps[number]? = some step ∧ steps'[number]? = some step' ∧ step.Parallel step' := by
  induction parallel generalizing number with
  | ended => exact .inl ⟨rfl, rfl⟩
  | illegal parallel illegal behind behind' =>
    cases number with
    | zero => exact .inr ⟨_, _, rfl, rfl, parallel⟩
    | succ number =>
      obtain ⟨token, isToken, isIllegal⟩ := illegal
      exact absurd isIllegal (legal 0 token (Nat.succ_pos _) isToken)
  | more parallel later ih =>
    cases number with
    | zero => exact .inr ⟨_, _, rfl, rfl, parallel⟩
    | succ number => exact ih legal.tail

theorem InParallel.kind (parallel : InParallel steps steps') {number : Nat} (legal : LegalBefore steps number) :
    (tokenAt steps number).map (·.kind) = (tokenAt steps' number).map (·.kind) := by
  rcases parallel.step legal with ⟨ended, ended'⟩ | ⟨step, step', there, there', same⟩
  · rw [tokenAt, tokenAt, ended, ended']
  · rw [tokenAt, tokenAt, there, there']
    exact same.kind

theorem InParallel.construct (parallel : InParallel steps steps') {number : Nat} (legal : LegalBefore steps number) :
    (steps[number]?.bind LexStep.cutoff?).map (·.construct) =
    (steps'[number]?.bind LexStep.cutoff?).map (·.construct) := by
  rcases parallel.step legal with ⟨ended, ended'⟩ | ⟨step, step', there, there', same⟩
  · rw [ended, ended']
  · rw [there, there']
    exact same.construct

theorem InParallel.tail (parallel : InParallel steps steps') (legal : ∀ number, LegalBefore steps number) :
    (steps.getLast?.bind LexStep.cutoff?).map (·.construct) =
    (steps'.getLast?.bind LexStep.cutoff?).map (·.construct) := by
  have length : steps.length = steps'.length := by
    refine Nat.le_antisymm (Nat.le_of_not_lt fun shorter => ?_) (Nat.le_of_not_lt fun shorter => ?_)
    · rcases parallel.step (legal steps'.length) with ⟨ended, -⟩ | ⟨_, _, -, there, -⟩
      · exact absurd (List.getElem?_eq_none_iff.mp ended) (Nat.not_le.mpr shorter)
      · simp at there
    · rcases parallel.step (legal steps.length) with ⟨-, ended⟩ | ⟨_, _, there, -⟩
      · exact absurd (List.getElem?_eq_none_iff.mp ended) (Nat.not_le.mpr shorter)
      · simp at there
  rw [List.getLast?_eq_getElem?, List.getLast?_eq_getElem?, ← length]
  exact parallel.construct (legal _)

end

namespace Lexer

/-- A lexer, and one with the same ahead but for the carriage returns. -/
structure Parallel (lexer lexer' : Lexer) : Prop where
  rest : lexer'.rest = withReturns lexer.rest
  armed : lexer'.armed = lexer.armed

variable {lexer lexer' after : Lexer} {step : LexStep} {steps : List LexStep}

/-- Both lexers take parallel steps. Behind a whole token they still have the same ahead. -/
theorem Reads.parallel (reads : lexer.Reads step after) (parallel : lexer.Parallel lexer') :
    ∃ step' after', lexer'.Reads step' after' ∧ step.Parallel step' ∧
    (∀ token, step = .token token → after.Parallel after') := by
  have skips : Landmark.Parallel lexer.rest lexer'.rest (gap lexer.armed 0 0 lexer.rest)
      (gap lexer'.armed 0 0 lexer'.rest) := by
    rw [parallel.armed, parallel.rest]
    exact gap_parallel _ _
  rcases skipped' : gap lexer'.armed 0 0 lexer'.rest with ⟨stop', landmark'⟩
  rw [skipped'] at skips
  -- Behind the gap both lexers have the same token, which is not the end of a line.
  have token_ahead : ∀ {stop first rest}, gap lexer.armed 0 0 lexer.rest = (stop, .token first) →
    lexer.rest.drop stop = first :: rest →
      landmark' = .token first ∧ lexer'.rest.drop stop' = first :: withReturns rest ∧
        TokenScan.Parallel (first :: rest) (first :: withReturns rest) (scanToken first rest)
          (scanToken first (withReturns rest)) := by
    intro stop first rest skipped here
    rw [skipped] at skips
    cases skips with
    | token apart behind =>
      rw [here, withReturns_cons apart] at behind
      exact ⟨rfl, behind, scanToken_parallel apart rest⟩
  cases reads with
  | @whole stop first rest length kind skipped here scanned =>
    obtain ⟨rfl, here', scans⟩ := token_ahead skipped here
    rw [scanned] at scans
    generalize scanned' : scanToken first (withReturns rest) = scan' at scans
    cases scans with
    | @whole _ length' _ behind =>
      refine ⟨_, _, .whole skipped' here' scanned', .token rfl, fun _ _ => ⟨?_, rfl⟩⟩
      simp only [Lexer.skip, Lexer.arm, here, here', behind]
  | @cutOff stop first rest length kind cause skipped here scanned =>
    obtain ⟨rfl, here', scans⟩ := token_ahead skipped here
    rw [scanned] at scans
    generalize scanned' : scanToken first (withReturns rest) = scan' at scans
    cases scans with
    | cutOff => exact ⟨_, _, .cutOff skipped' here' scanned', .truncated rfl rfl, fun _ isToken => by cases isToken⟩
  | @invalid stop first rest length flaw skipped here scanned =>
    obtain ⟨rfl, here', scans⟩ := token_ahead skipped here
    rw [scanned] at scans
    generalize scanned' : scanToken first (withReturns rest) = scan' at scans
    cases scans with
    | invalid => exact ⟨_, _, .invalid skipped' here' scanned', .invalid rfl rfl _ _, fun _ isToken => by cases isToken⟩
  | @lineEnd stop length skipped =>
    rw [skipped] at skips
    cases skips with
    | @lineEnd _ _ _ length' behind =>
      refine ⟨_, _, .lineEnd skipped', .token rfl, fun _ _ => ⟨?_, rfl⟩⟩
      simp only [Lexer.skip, Lexer.arm, List.drop_drop, behind]
  | openComment skipped =>
    rw [skipped] at skips
    cases skips with
    | openComment => exact ⟨_, _, .openComment skipped', .incomplete rfl, fun _ isToken => by cases isToken⟩
  | @inserted stop skipped armed =>
    rw [skipped] at skips
    cases skips with
    | endOfInput =>
      have ended := (gap_holds _ _ _ _ skipped).2
      have ended' := (gap_holds _ _ _ _ skipped').2
      simp only [Landmark.Holds, Nat.zero_add, Nat.sub_zero] at ended ended'
      refine ⟨_, _, .inserted skipped' (parallel.armed.trans armed), .token rfl, fun _ _ => ⟨?_, rfl⟩⟩
      simp only [Lexer.skip, Lexer.arm, ended, ended', withReturns_nil]
  | ended skipped unarmed =>
    rw [skipped] at skips
    cases skips with
    | endOfInput => exact ⟨_, _, .ended skipped' (parallel.armed.trans unarmed), .endOfInput,
        fun _ isToken => by cases isToken⟩

theorem Lexes.parallel (lexes : lexer.Lexes steps) (parallel : lexer.Parallel lexer') (sound' : lexer'.Sound) :
    ∃ steps', lexer'.Lexes steps' ∧ InParallel steps steps' := by
  induction lexes generalizing lexer' with
  | ended reads =>
    obtain ⟨step', after', reads', same, -⟩ := reads.parallel parallel
    cases same
    exact ⟨[], .ended reads', .ended⟩
  | comment reads =>
    obtain ⟨step', after', reads', same, -⟩ := reads.parallel parallel
    cases same with
    | incomplete construct => exact ⟨_, .comment reads', .more (.incomplete construct) .ended⟩
  | @more lexer after step steps reads goesOn later ih =>
    obtain ⟨step', after', reads', same, goOn⟩ := reads.parallel parallel
    have sound := reads'.sound sound'
    cases same with
    | token kind =>
      obtain ⟨steps', lexes', behind⟩ := ih (goOn _ rfl) sound
      exact ⟨_, .more reads' rfl lexes', .more (.token kind) behind⟩
    | truncated kind construct =>
      obtain ⟨empty, unarmed⟩ := reads.truncated_ends
      obtain ⟨empty', unarmed'⟩ := reads'.truncated_ends
      obtain rfl := later.eq_nil empty unarmed
      exact ⟨_, .more reads' rfl (lexes_nil empty' unarmed'), .more (.truncated kind construct) .ended⟩
    | invalid illegal illegal' diagnostic diagnostic' =>
      obtain ⟨behind', lexes'⟩ := sound.lexes
      exact ⟨_, .more reads' rfl lexes', .illegal (.invalid illegal illegal' _ _) ⟨_, rfl, illegal⟩ _ _⟩
    | incomplete | endOfInput => cases goesOn

theorem ofText_parallel (source : Nat) (text : List Char) :
    (ofText source text).Parallel (ofText source (withReturns text)) := by
  cases text with
  | nil => exact ⟨rfl, rfl⟩
  | cons c rest =>
    by_cases newline : c = '\n'
    · subst newline
      exact ⟨rfl, rfl⟩
    · rw [withReturns_cons newline]
      simp only [ofText]
      split
      next => exact ⟨rfl, rfl⟩
      next => exact ⟨(withReturns_cons newline rest).symm, rfl⟩

end Lexer

end GoPrompt
