import GoPrompt.Proofs.Lexical.Extension

/-! All the steps of the lexer over a text, and how they change when the text goes on or is cut. A text cut
in front of a token has the tokens before it, and perhaps an inserted semicolon. -/

namespace GoPrompt

/-- Whether a token is the semicolon inserted at the end of the input. -/
def Token.IsInserted (token : Token) : Prop := token.kind = .semicolon .endOfInput

namespace LexStep

theorem token?_of_goesOn {step : LexStep} (goesOn : step.endsInput = false) : ∃ token, step.token? = some token := by
  cases step with
  | token token | truncated token | invalid token => exact ⟨token, rfl⟩
  | incomplete | endOfInput => cases goesOn

private theorem goesOn_of_token? {step : LexStep} {token : Token} (isToken : step.token? = some token) :
    step.endsInput = false := by
  cases step with
  | token | truncated | invalid => rfl
  | incomplete | endOfInput => cases isToken

/-- What a step says of the construct that the end of the input cuts off. -/
def cutoff? : LexStep → Option Cutoff
  | .truncated _ cutoff | .incomplete cutoff => some cutoff
  | .token _ | .invalid _ _ | .endOfInput => none

/-- The kind of a token shows whether it is whole, cut off or invalid. -/
def ShowsInKind : LexStep → Prop
  | .token read => read.kind ≠ .illegal
  | .truncated read _ => ∃ kind, read.kind = .literal kind
  | .invalid read _ => read.kind = .illegal
  | .incomplete _ | .endOfInput => True

end LexStep

namespace Lexer

/-- The steps to the end of the input. -/
inductive Lexes : Lexer → List LexStep → Prop
  | ended {lexer after : Lexer} (reads : lexer.Reads .endOfInput after) : Lexes lexer []
  | comment {lexer after : Lexer} {cutoff : Cutoff} (reads : lexer.Reads (.incomplete cutoff) after) :
      Lexes lexer [.incomplete cutoff]
  | more {lexer after : Lexer} {step : LexStep} {steps : List LexStep} (reads : lexer.Reads step after)
      (goesOn : step.endsInput = false) (later : Lexes after steps) : Lexes lexer (step :: steps)

theorem Sound.lexes {lexer : Lexer} (sound : lexer.Sound) : ∃ steps, lexer.Lexes steps := by
  obtain ⟨step, after, reads⟩ := sound.reads
  by_cases goesOn : step.endsInput = false
  · have smaller := remaining_next_lt (reads.next sound) goesOn
    obtain ⟨steps, later⟩ := (reads.sound sound).lexes
    exact ⟨step :: steps, .more reads goesOn later⟩
  · cases step with
    | endOfInput => exact ⟨[], .ended reads⟩
    | incomplete cutoff => exact ⟨[.incomplete cutoff], .comment reads⟩
    | token | truncated | invalid => exact absurd rfl goesOn
termination_by lexer.remaining

section

variable {lexer after : Lexer} {step : LexStep} {steps : List LexStep}

theorem Lexes.eq_nil (lexes : lexer.Lexes steps) (empty : lexer.rest = []) (unarmed : lexer.armed = false) :
    steps = [] := by
  have skipped : gap lexer.armed 0 0 lexer.rest = (0, .endOfInput) := by rw [empty]; rfl
  have only : ∀ {step after}, lexer.Reads step after → step = .endOfInput := by
    intro step after reads
    cases reads with
    | inserted _ armed =>
      rw [unarmed] at armed
      cases armed
    | ended => rfl
    | whole found | cutOff found | invalid found | lineEnd found | openComment found =>
      rw [skipped] at found
      cases found
  cases lexes with
  | ended => rfl
  | comment reads => cases only reads
  | more reads goesOn =>
    rw [only reads] at goesOn
    cases goesOn

theorem lexes_nil (empty : lexer.rest = []) (unarmed : lexer.armed = false) : lexer.Lexes [] := by
  have skipped : gap lexer.armed 0 0 lexer.rest = (0, .endOfInput) := by rw [empty]; rfl
  exact .ended (.ended skipped unarmed)

theorem Reads.of_inserted {token : Token} (reads : lexer.Reads (.token token) after) (inserted : token.IsInserted) :
    ∃ stop, gap lexer.armed 0 0 lexer.rest = (stop, .endOfInput) ∧ lexer.armed = true ∧
    after = (lexer.skip stop).arm false := by
  generalize isStep : LexStep.token token = step at reads
  cases reads with
  | @whole _ _ _ _ kind _ _ scanned =>
    cases isStep
    have written := scanToken_isWritten (congrArg TokenScan.shape scanned)
    rw [show kind = .semicolon .endOfInput from inserted] at written
    cases written
  | lineEnd =>
    cases isStep
    cases inserted
  | inserted skipped armed => exact ⟨_, skipped, armed, rfl⟩
  | cutOff | invalid | openComment | ended => cases isStep

theorem Reads.inserted_ends {token : Token} (reads : lexer.Reads (.token token) after) (inserted : token.IsInserted) :
    after.rest = [] ∧ after.armed = false := by
  obtain ⟨stop, skipped, -, rfl⟩ := reads.of_inserted inserted
  have ended := (gap_holds _ _ _ _ skipped).2
  simp only [Landmark.Holds, Nat.zero_add, Nat.sub_zero] at ended
  exact ⟨ended, rfl⟩

theorem Reads.truncated_ends {token : Token} {cutoff : Cutoff} (reads : lexer.Reads (.truncated token cutoff) after) :
    after.rest = [] ∧ after.armed = false := by
  generalize isStep : LexStep.truncated token cutoff = step at reads
  cases reads with
  | @cutOff stop first rest length kind cause skipped here scanned =>
    have covers := le_scanToken_length_of_cutOff (show (scanToken first rest).shape =
      .cutOff kind cause by rw [scanned])
    rw [scanned] at covers
    exact ⟨List.drop_eq_nil_of_le (Nat.le_trans (Nat.le_of_eq (token_within here).2) covers), rfl⟩
  | whole | lineEnd | inserted | invalid | openComment | ended => cases isStep

theorem Reads.kind (reads : lexer.Reads step after) : step.ShowsInKind := by
  cases reads with
  | @whole _ _ _ _ kind _ _ scanned =>
    intro illegal
    have written := scanToken_isWritten (congrArg TokenScan.shape scanned)
    rw [show kind = .illegal from illegal] at written
    cases written
  | cutOff => exact ⟨_, rfl⟩
  | lineEnd | inserted => exact nofun
  | invalid => rfl
  | openComment | ended => trivial

theorem Reads.step_of_inserted {token : Token} (reads : lexer.Reads step after) (isToken : step.token? = some token)
    (inserted : token.IsInserted) : step = .token token := by
  have kind := reads.kind
  cases step <;> cases isToken
  · rfl
  · obtain ⟨kind, isLiteral⟩ := kind
    rw [show token.kind = _ from inserted] at isLiteral
    cases isLiteral
  · have illegal : token.kind = .illegal := kind
    rw [show token.kind = _ from inserted] at illegal
    cases illegal

theorem Lexes.read_at (lexes : lexer.Lexes steps) {number : Nat} (there : steps[number]? = some step) :
    ∃ lexer after, Reads lexer step after := by
  induction lexes generalizing number with
  | ended => simp at there
  | comment reads =>
    obtain rfl := List.mem_singleton.mp (List.mem_of_getElem? there)
    exact ⟨_, _, reads⟩
  | more reads _ _ ih =>
    cases number with
    | succ number => exact ih there
    | zero =>
      obtain rfl := Option.some.inj there
      exact ⟨_, _, reads⟩

theorem Lexes.not_endOfInput (lexes : lexer.Lexes steps) : LexStep.endOfInput ∉ steps := by
  induction lexes with
  | ended => nofun
  | comment => nofun
  | more _ goesOn _ ih =>
    rintro (_ | ⟨_, mem⟩)
    · cases goesOn
    · exact ih mem

theorem Lexes.last (lexes : lexer.Lexes steps) {number : Nat} (there : steps[number]? = some step)
    (ends : ∀ lexer after, Reads lexer step after → after.rest = [] ∧ after.armed = false) :
    steps.length = number + 1 := by
  induction lexes generalizing number with
  | ended => simp at there
  | comment =>
    cases number with
    | zero => rfl
    | succ number => simp at there
  | more reads _ later ih =>
    cases number with
    | succ number => rw [List.length_cons, ih there]
    | zero =>
      obtain rfl := Option.some.inj there
      obtain ⟨empty, unarmed⟩ := ends _ _ reads
      rw [later.eq_nil empty unarmed]
      rfl

theorem Lexes.inserted_last (lexes : lexer.Lexes steps) {number : Nat} {token : Token}
    (there : steps[number]? = some step) (isToken : step.token? = some token) (inserted : token.IsInserted) :
    steps.length = number + 1 :=
  lexes.last there fun _ _ reads => by
    obtain rfl := reads.step_of_inserted isToken inserted
    exact reads.inserted_ends inserted

theorem Lexes.truncated_last (lexes : lexer.Lexes steps) {number : Nat} {token : Token} {cutoff : Cutoff}
    (there : steps[number]? = some (.truncated token cutoff)) : steps.length = number + 1 :=
  lexes.last there fun _ _ reads => reads.truncated_ends

/-- A step that is not the last one is a token, and neither inserted nor cut off. -/
theorem Lexes.inner (lexes : lexer.Lexes steps) {number : Nat} (there : steps[number]? = some step)
    (inside : number + 1 < steps.length) : ∃ token, step.token? = some token ∧ ¬ token.IsInserted ∧
      ∀ cutoff, step ≠ .truncated token cutoff := by
  have isToken : ∃ token, step.token? = some token := by
    induction lexes generalizing number with
    | ended => simp at there
    | comment => simp at inside
    | more reads goesOn _ ih =>
      cases number with
      | succ number => exact ih there (by simpa using inside)
      | zero =>
        obtain rfl := Option.some.inj there
        exact LexStep.token?_of_goesOn goesOn
  obtain ⟨token, isToken⟩ := isToken
  refine ⟨token, isToken, fun inserted => ?_, fun cutoff isCut => ?_⟩
  · rw [lexes.inserted_last there isToken inserted] at inside
    omega
  · rw [lexes.truncated_last (isCut ▸ there)] at inside
    omega

theorem Reads.source (reads : lexer.Reads step after) : after.source = lexer.source := by
  cases reads <;> rfl

/-- What a token becomes when a blank follows the text: it stays, or it was cut off. -/
def Kept (step step' : LexStep) : Prop :=
  ∃ token token', step.token? = some token ∧ step'.token? = some token' ∧ token'.span.start = token.span.start ∧
    (token'.kind = token.kind ∨ (token'.kind = .illegal ∧ ∃ cutoff, step = .truncated token cutoff))

/-- With a blank behind a text, its tokens are kept, but for the semicolon inserted at its end. -/
theorem Lexes.withMore (lexes : lexer.Lexes steps) {more : List Char} (blank : StartsBlank more)
    (sound : (lexer.withMore more).Sound) : ∃ steps', (lexer.withMore more).Lexes steps' ∧
      ∀ (number : Nat) (step : LexStep) (token : Token), steps[number]? = some step → step.token? = some token →
        ¬ token.IsInserted → ∃ step', steps'[number]? = some step' ∧ Kept step step' := by
  induction lexes with
  | ended =>
    obtain ⟨steps', lexes'⟩ := sound.lexes
    exact ⟨steps', lexes', fun number step token found => by simp at found⟩
  | comment =>
    obtain ⟨steps', lexes'⟩ := sound.lexes
    refine ⟨steps', lexes', fun number step token found isToken => ?_⟩
    obtain rfl := List.mem_singleton.mp (List.mem_of_getElem? found)
    cases isToken
  | @more lexer after step steps reads goesOn later ih =>
    obtain ⟨token, isToken⟩ := LexStep.token?_of_goesOn goesOn
    by_cases inserted : token.IsInserted
    · obtain ⟨steps', lexes'⟩ := sound.lexes
      refine ⟨steps', lexes', fun number found token' isFound isToken' notInserted => ?_⟩
      obtain rfl := reads.step_of_inserted isToken inserted
      obtain ⟨empty, unarmed⟩ := reads.inserted_ends inserted
      obtain rfl := later.eq_nil empty unarmed
      obtain rfl := List.mem_singleton.mp (List.mem_of_getElem? isFound)
      cases isToken'
      exact absurd inserted notInserted
    · obtain ⟨step', after', token', reads', isToken', outcome⟩ := reads.withMore blank isToken inserted
      have sound' := reads'.sound sound
      have goesOn' := LexStep.goesOn_of_token? isToken'
      rcases outcome with ⟨rfl, rfl⟩ | ⟨empty, unarmed, ⟨cutoff, isCut⟩, start, kind⟩
      · obtain ⟨steps', lexes', kept⟩ := ih sound'
        refine ⟨step' :: steps', .more reads' goesOn' lexes',
          fun number found token isFound isToken'' notInserted => ?_⟩
        cases number with
        | zero =>
          obtain rfl := Option.some.inj isFound
          exact ⟨step', rfl, token', token', isToken, isToken', rfl, .inl rfl⟩
        | succ number => exact kept number found token isFound isToken'' notInserted
      · obtain ⟨steps', lexes'⟩ := sound'.lexes
        refine ⟨step' :: steps', .more reads' goesOn' lexes',
          fun number found token'' isFound isToken'' notInserted => ?_⟩
        obtain rfl := later.eq_nil empty unarmed
        cases number with
        | zero =>
          obtain rfl := Option.some.inj isFound
          exact ⟨step', rfl, token, token', isToken, isToken', start, kind.imp_right fun illegal =>
            ⟨illegal, cutoff, isCut⟩⟩
        | succ number => simp at isFound

/-- Where a token lies in the text. -/
def Places (lexer : Lexer) (token : Token) (front chars : List Char) : Prop :=
  chars ≠ [] ∧ token.span = Span.ofLength lexer.source (lexer.offset + byteSize front) (byteSize chars) ∧
    (token.kind ≠ .semicolon .newline → token.lexeme = String.ofList chars)

theorem Reads.places {token : Token} (reads : lexer.Reads step after) (isToken : step.token? = some token)
    (notInserted : ¬ token.IsInserted) : ∃ stop size landmark, gap lexer.armed 0 0 lexer.rest = (stop, landmark) ∧
      stop ≤ lexer.rest.length ∧ Places lexer token (lexer.rest.take stop) ((lexer.rest.drop stop).take size) := by
  have token_places : ∀ {stop first rest length}, lexer.rest.drop stop = first :: rest → 1 ≤ length → ∀ kind,
      (kind ≠ .semicolon .endOfInput) →
      Places lexer ((lexer.skip stop).token kind length) (lexer.rest.take stop)
        ((lexer.rest.drop stop).take length) := by
    intro stop first rest length here positive kind notEnd
    refine ⟨?_, rfl, fun notNewline => ?_⟩
    · rw [here]
      cases length with
      | zero => cases positive
      | succ length => simp
    · cases kind with
      | semicolon origin => cases origin <;> first | rfl | exact absurd rfl notNewline | exact absurd rfl notEnd
      | _ => rfl
  cases reads with
  | @whole stop first rest length kind skipped here scanned =>
    cases isToken
    have positive := one_le_scanToken_length first rest
    rw [scanned] at positive
    exact ⟨stop, length, _, skipped, (token_within here).1, token_places here positive kind notInserted⟩
  | @cutOff stop first rest length kind cause skipped here scanned =>
    cases isToken
    have positive := one_le_scanToken_length first rest
    rw [scanned] at positive
    exact ⟨stop, length, _, skipped, (token_within here).1, token_places here positive _ notInserted⟩
  | @invalid stop first rest length flaw skipped here scanned =>
    cases isToken
    have positive := one_le_scanToken_length first rest
    rw [scanned] at positive
    exact ⟨stop, length, _, skipped, (token_within here).1, token_places here positive _ notInserted⟩
  | @lineEnd stop length skipped =>
    cases isToken
    obtain ⟨nonempty, positive⟩ := (gap_holds _ _ _ _ skipped).2
    simp only [Nat.zero_add, Nat.sub_zero] at nonempty
    obtain ⟨first, rest, here⟩ := List.exists_cons_of_ne_nil nonempty
    exact ⟨stop, length, _, skipped, (token_within here).1, token_places here positive _ notInserted⟩
  | inserted =>
    cases isToken
    exact absurd rfl notInserted
  | openComment | ended => cases isToken

/-- A text cut in front of a token has the tokens before it and perhaps an inserted semicolon. -/
theorem Lexes.cut (lexes : lexer.Lexes steps) {number : Nat} {step : LexStep} {token : Token}
    (there : steps[number]? = some step) (isToken : step.token? = some token) (notInserted : ¬ token.IsInserted)
    (before : ∀ earlier, earlier < number → ∃ token, steps[earlier]? = some (.token token)) :
    ∃ front chars behind, lexer.rest = front ++ (chars ++ behind) ∧ Places lexer token front chars ∧
      ∃ ending, Lexes { lexer with rest := front } (steps.take number ++ ending) ∧
        ∀ last ∈ ending, ∃ token, last = .token token ∧ token.IsInserted := by
  induction lexes generalizing number with
  | ended => simp at there
  | comment =>
    obtain rfl := List.mem_singleton.mp (List.mem_of_getElem? there)
    cases isToken
  | @more lexer after first steps reads goesOn later ih =>
    cases number with
    | zero =>
      obtain rfl := Option.some.inj there
      obtain ⟨stop, size, landmark, skipped, within, places⟩ := reads.places isToken notInserted
      have parts := List.take_append_drop stop lexer.rest
      refine ⟨_, _, (lexer.rest.drop stop).drop size, ?_, places, ?_⟩
      · rw [List.take_append_drop, parts]
      -- In front of the token there are gaps only, so the shorter text ends where the token starts.
      have length : (lexer.rest.take stop).length = stop := List.length_take_of_le within
      rw [← parts] at skipped
      have ended := (gap_of_append skipped).2 (by rw [length, Nat.zero_add])
      let cut : Lexer := { lexer with rest := lexer.rest.take stop }
      by_cases armed : cut.armed = true
      · refine ⟨[.token ((cut.skip stop).token (.semicolon .endOfInput) 0)],
          .more (.inserted ended armed) rfl (lexes_nil ?_ rfl), ?_⟩
        · exact List.drop_eq_nil_of_le (Nat.le_of_eq length)
        · intro last mem
          exact ⟨_, List.mem_singleton.mp mem, rfl⟩
      · exact ⟨[], .ended (.ended ended (Bool.eq_false_iff.mpr armed)), fun _ mem => absurd mem List.not_mem_nil⟩
    | succ number =>
      obtain ⟨token₀, isFirst⟩ := before 0 (Nat.succ_pos _)
      obtain rfl := Option.some.inj isFirst
      obtain ⟨front, chars, behind, rest, places, ending, cut, inserted⟩ := ih there fun earlier less =>
        before (earlier + 1) (Nat.succ_lt_succ less)
      obtain ⟨taken, splits, moved⟩ := reads.takes
      have whole : lexer.rest = (taken ++ front) ++ (chars ++ behind) := by rw [splits, rest, List.append_assoc]
      have source := reads.source
      refine ⟨taken ++ front, chars, behind, whole, ⟨places.1, ?_, places.2.2⟩, ending, ?_, inserted⟩
      · rw [places.2.1, source, moved, byteSize_append, Nat.add_assoc]
      · have longer : ({ lexer with rest := taken ++ front } : Lexer).withMore (chars ++ behind) = lexer := by
          simp only [Lexer.withMore, ← whole]
        have longer' : ({ after with rest := front } : Lexer).withMore (chars ++ behind) = after := by
          simp only [Lexer.withMore, ← rest]
        have reads' : ({ lexer with rest := taken ++ front } : Lexer).Reads (.token token₀) { after with rest :=
            front } := by
          rw [← longer, ← longer'] at reads
          exact reads.of_withMore
        exact .more reads' rfl cut

end

end Lexer

end GoPrompt
