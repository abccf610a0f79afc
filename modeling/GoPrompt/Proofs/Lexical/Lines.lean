import GoPrompt.Proofs.Lexical.LineEnds
import GoPrompt.Proofs.Lexical.Parallel
import GoPrompt.Proofs.Lexical.Reaches
import GoPrompt.Proofs.Stream.Lookahead

/-! A text with more lines behind it. Unless the text ends within a literal or a comment, it has its own steps in
front of them, with the semicolon at its end if it has one there, and the lines behind it have the steps that they
have alone. -/

namespace GoPrompt

/-- A kind of token where the text goes on behind the line. -/
def TokenKind.onLine : TokenKind → TokenKind
  | .semicolon .endOfInput => .semicolon .newline
  | kind => kind

theorem TokenKind.onLine_eq {kind : TokenKind} (written : ¬ kind = .semicolon .endOfInput) : kind.onLine = kind := by
  unfold onLine
  split
  next => exact absurd rfl written
  next => rfl

namespace Lexer

variable {lexer lexer' next after : Lexer} {step : LexStep} {steps later : List LexStep} {more : List Char}

/-- A lexer, and one that has the same ahead behind some text that it skips. -/
structure Rejoins (lexer lexer' : Lexer) : Prop where
  armed : lexer'.armed = lexer.armed
  ahead : ∃ skipped, lexer'.rest = skipped ++ lexer.rest ∧
    gap lexer.armed 0 0 lexer'.rest = gap lexer.armed 0 skipped.length lexer.rest

private theorem Rejoins.of_rest (armed : lexer'.armed = lexer.armed) (rest : lexer'.rest = lexer.rest) :
    lexer.Rejoins lexer' :=
  ⟨armed, [], rest, congrArg (gap lexer.armed 0 0) rest⟩

theorem Rejoins.skips (rejoins : lexer.Rejoins lexer') {stop : Nat} {landmark : Landmark}
    (skipped : gap lexer.armed 0 0 lexer.rest = (stop, landmark)) :
    ∃ stop', gap lexer'.armed 0 0 lexer'.rest = (stop', landmark) ∧
      ∀ length, lexer'.rest.drop (stop' + length) = lexer.rest.drop (stop + length) := by
  obtain ⟨before, rest, same⟩ := rejoins.ahead
  refine ⟨before.length + stop, ?_, fun length => ?_⟩
  · have shifted := gap_shift lexer.armed 0 0 before.length lexer.rest
    rw [Nat.zero_add, skipped] at shifted
    rw [rejoins.armed, same, shifted, Nat.add_comm]
  · rw [rest, Nat.add_assoc, ← List.drop_drop, List.drop_left]

private theorem Reads.rejoins (reads : lexer.Reads step after) (rejoins : lexer.Rejoins lexer') :
    ∃ step' after', lexer'.Reads step' after' ∧ step.Parallel step' ∧ after.Rejoins after' := by
  cases reads with
  | @whole stop first rest length kind skipped here scanned =>
    obtain ⟨stop', skipped', behind⟩ := rejoins.skips skipped
    refine ⟨_, _, .whole skipped' ((behind 0).trans here) scanned, .token rfl, .of_rest rfl ?_⟩
    simp only [Lexer.skip, Lexer.arm, List.drop_drop, behind]
  | @cutOff stop first rest length kind cause skipped here scanned =>
    obtain ⟨stop', skipped', behind⟩ := rejoins.skips skipped
    refine ⟨_, _, .cutOff skipped' ((behind 0).trans here) scanned, .truncated rfl rfl, .of_rest rfl ?_⟩
    simp only [Lexer.skip, Lexer.arm, List.drop_drop, behind]
  | @invalid stop first rest length flaw skipped here scanned =>
    obtain ⟨stop', skipped', behind⟩ := rejoins.skips skipped
    refine ⟨_, _, .invalid skipped' ((behind 0).trans here) scanned, .invalid rfl rfl _ _, .of_rest rejoins.armed ?_⟩
    simp only [Lexer.skip, List.drop_drop, behind]
  | @lineEnd stop length skipped =>
    obtain ⟨stop', skipped', behind⟩ := rejoins.skips skipped
    refine ⟨_, _, .lineEnd skipped', .token rfl, .of_rest rfl ?_⟩
    simp only [Lexer.skip, Lexer.arm, List.drop_drop, behind]
  | @openComment stop length skipped =>
    obtain ⟨stop', skipped', behind⟩ := rejoins.skips skipped
    refine ⟨_, _, .openComment skipped', .incomplete rfl, .of_rest rfl ?_⟩
    simp only [Lexer.skip, Lexer.arm, List.drop_drop, behind]
  | @inserted stop skipped armed =>
    obtain ⟨stop', skipped', behind⟩ := rejoins.skips skipped
    exact ⟨_, _, .inserted skipped' (rejoins.armed.trans armed), .token rfl, .of_rest rfl (behind 0)⟩
  | @ended stop skipped unarmed =>
    obtain ⟨stop', skipped', behind⟩ := rejoins.skips skipped
    exact ⟨_, _, .ended skipped' (rejoins.armed.trans unarmed), .endOfInput, .of_rest rejoins.armed (behind 0)⟩

private theorem Lexes.rejoins (lexes : lexer.Lexes steps) (rejoins : lexer.Rejoins lexer') :
    ∃ steps', lexer'.Lexes steps' ∧ LexStep.kinds steps' = LexStep.kinds steps := by
  induction lexes generalizing lexer' with
  | ended reads =>
    obtain ⟨_, _, reads', same, -⟩ := reads.rejoins rejoins
    cases same
    exact ⟨[], .ended reads', rfl⟩
  | comment reads =>
    obtain ⟨_, _, reads', same, -⟩ := reads.rejoins rejoins
    cases same
    exact ⟨_, .comment reads', rfl⟩
  | @more _ _ step _ reads goesOn _ ih =>
    obtain ⟨step', _, reads', same, onward⟩ := reads.rejoins rejoins
    obtain ⟨steps', lexes', behind⟩ := ih onward
    refine ⟨step' :: steps', .more reads' (by cases same <;> exact goesOn) lexes', ?_⟩
    obtain ⟨token, isToken⟩ := LexStep.token?_of_goesOn goesOn
    have kind := same.kind
    rw [isToken] at kind
    obtain ⟨token', isToken', isKind⟩ := Option.map_eq_some_iff.mp kind.symm
    rw [LexStep.kinds_cons isToken, LexStep.kinds_cons isToken', isKind, behind]

private theorem Reads.rejoins_ended (reads : lexer.Reads .endOfInput after) (fresh : next.armed = false) :
    next.Rejoins (lexer.withMore ('\n' :: next.rest)) := by
  cases reads with
  | ended skipped unarmed =>
    rw [unarmed] at skipped
    refine ⟨unarmed.trans fresh.symm, lexer.rest ++ ['\n'], by simp [Lexer.withMore], ?_⟩
    rw [fresh, List.length_append, List.length_singleton]
    have nextLine := gap_nextLine skipped next.rest
    rwa [Nat.zero_add] at nextLine

private theorem Reads.rejoins_inserted {token : Token} (reads : lexer.Reads (.token token) after)
    (inserted : token.IsInserted) (fresh : next.armed = false) :
    ∃ token' after', (lexer.withMore ('\n' :: next.rest)).Reads (.token token') after' ∧
      token'.kind = .semicolon .newline ∧ next.Rejoins after' := by
  obtain ⟨stop, skipped, armed, -⟩ := reads.of_inserted inserted
  have alone : gap true 0 0 (lexer.rest ++ ['\n']) = (stop, .lineEnd 1) := by
    rw [gap_newline (fun _ mem => absurd mem List.not_mem_nil), ← armed, skipped, behindNewline, armed, if_pos rfl]
  have found : gap (lexer.withMore ('\n' :: next.rest)).armed 0 0 (lexer.withMore ('\n' :: next.rest)).rest =
      (stop, .lineEnd 1) := by
    have longer : gap true 0 0 ((lexer.rest ++ ['\n']) ++ next.rest) = (stop, .lineEnd 1) := gap_append alone trivial
    rw [List.append_assoc] at longer
    rw [show (lexer.withMore ('\n' :: next.rest)).armed = true from armed]
    exact longer
  refine ⟨_, _, .lineEnd found, rfl, .of_rest fresh.symm ?_⟩
  have within := gap_lineEnd_le alone
  have ended := (gap_holds _ _ _ _ skipped).2
  simp only [List.length_append, List.length_singleton, Nat.zero_add] at within
  simp only [Landmark.Holds, Nat.zero_add, Nat.sub_zero] at ended
  simp only [Lexer.skip, Lexer.arm, Lexer.withMore,
    List.drop_append_of_le_length (Nat.le_of_succ_le_succ within), ended, List.nil_append, List.drop_succ_cons,
    List.drop_zero]

theorem Lexes.nextLine (lexes : lexer.Lexes steps) (whole : ∀ step ∈ steps, step.cutoff? = none)
    (fresh : next.armed = false) (behind : next.Lexes later) :
    ∃ steps', (lexer.withMore ('\n' :: next.rest)).Lexes steps' ∧
      LexStep.kinds steps' = (LexStep.kinds steps).map TokenKind.onLine ++ LexStep.kinds later := by
  induction lexes with
  | ended reads => exact behind.rejoins (reads.rejoins_ended fresh)
  | comment => cases whole _ (List.mem_singleton_self _)
  | @more lexer after step steps reads goesOn others ih =>
    obtain ⟨token, isToken⟩ := LexStep.token?_of_goesOn goesOn
    rw [LexStep.kinds_cons isToken]
    by_cases inserted : token.IsInserted
    · obtain rfl := reads.step_of_inserted isToken inserted
      obtain ⟨empty, unarmed⟩ := reads.inserted_ends inserted
      obtain rfl := others.eq_nil empty unarmed
      obtain ⟨token', after', reads', isNewline, rejoins⟩ := reads.rejoins_inserted inserted fresh
      obtain ⟨later', lexes', same⟩ := behind.rejoins rejoins
      refine ⟨.token token' :: later', .more reads' rfl lexes', ?_⟩
      rw [LexStep.kinds_cons rfl, isNewline, inserted, same]
      rfl
    · obtain ⟨step', reads', stays⟩ := reads.newline isToken inserted (whole step List.mem_cons_self)
      obtain ⟨steps', lexes', same⟩ := ih fun other mem => whole other (List.mem_cons_of_mem _ mem)
      have isToken' : step'.token? = some token := by cases stays <;> exact isToken
      refine ⟨step' :: steps', .more reads' (by cases stays <;> rfl) lexes', ?_⟩
      rw [LexStep.kinds_cons isToken', same, List.map_cons, TokenKind.onLine_eq inserted, List.cons_append]

/-- The literal at the end of a text is spoilt by a newline, which stays behind it, unless it is a raw string. -/
theorem Reads.spoilt {token : Token} {cutoff : Cutoff} (reads : lexer.Reads (.truncated token cutoff) after)
    (single : cutoff.construct ≠ .rawString) (more : List Char) : ∃ token' diagnostic after' kind,
      (lexer.withMore ('\n' :: more)).Reads (.invalid token' diagnostic) after' ∧ token.kind = .literal kind ∧
      token'.kind = .illegal ∧ (kind = .string → cutoff.construct = .string) ∧ after'.rest = '\n' :: more ∧
      after'.armed = lexer.armed := by
  generalize isStep : LexStep.truncated token cutoff = step at reads
  cases reads with
  | @cutOff stop first rest length kind cause skipped here scanned =>
    cases isStep
    have notRaw : first ≠ Quoted.backquote := by
      rintro rfl
      rw [scanToken_backquote] at scanned
      have cutOff := LiteralScan.outcome_of_cutOff (congrArg TokenScan.shape scanned)
      rw [Quoted.scanRawString_eq] at cutOff
      dsimp only at cutOff
      split at cutOff
      next => cases cutOff
      next =>
        cases cutOff
        exact single rfl
    obtain ⟨⟨flaw, spoilt⟩, size, construct⟩ :=
      scanToken_break (.newline more) notRaw (congrArg TokenScan.shape scanned)
    have size := size rfl
    rcases scanned' : scanToken first (rest ++ '\n' :: more) with ⟨length', shape⟩
    rw [scanned'] at spoilt size
    obtain rfl : shape = .invalid flaw := spoilt
    obtain rfl : length' = rest.length + 1 := size
    have here' := withMore_here ('\n' :: more) here
    have skipped' : gap lexer.armed 0 0 (lexer.rest ++ '\n' :: more) = (stop, .token first) :=
      gap_append_of_blank startsBlank_newline skipped rfl
    refine ⟨_, _, _, kind, .invalid skipped' here' scanned', rfl, rfl, construct, ?_, rfl⟩
    simp only [Lexer.skip, here', List.drop_succ_cons, List.drop_left]
  | whole | lineEnd | inserted | invalid | openComment | ended => cases isStep

/-- Where a newline ends the line, such a literal becomes an illegal token with the end of the line behind it. -/
theorem Reads.spoiltLine {token : Token} {cutoff : Cutoff} (reads : lexer.Reads (.truncated token cutoff) after)
    (single : cutoff.construct ≠ .rawString) (armed : lexer.armed = true) (fresh : next.armed = false)
    (behind : next.Lexes later) : ∃ steps', (lexer.withMore ('\n' :: next.rest)).Lexes steps' ∧
      BehindLine [.truncated token cutoff] steps' ∧
      LexStep.kinds steps' = .illegal :: .semicolon .newline :: LexStep.kinds later := by
  obtain ⟨token', diagnostic, after', kind, reads', literal, illegal, construct, rest, same⟩ :=
    reads.spoilt single next.rest
  have found : gap after'.armed 0 0 after'.rest = (0, .lineEnd 1) := by
    rw [same, armed, rest]
    rfl
  have left : ((after'.skip 0).skip 1).rest = next.rest := by simp [Lexer.skip, rest]
  obtain ⟨later', lexes', kinds⟩ :=
    behind.rejoins (.of_rest fresh.symm left : next.Rejoins (((after'.skip 0).skip 1).arm false))
  refine ⟨_, .more reads' rfl (.more (.lineEnd found) rfl lexes'), .spoilt diagnostic _ literal illegal construct, ?_⟩
  rw [LexStep.kinds_cons rfl, LexStep.kinds_cons rfl, illegal, kinds]
  rfl

/-- In front of further steps there are tokens only, and none of them is inserted or cut off. -/
theorem Lexes.inside {front behind : List LexStep} (lexes : lexer.Lexes (front ++ behind)) (nonempty : behind ≠ []) :
    ∀ step ∈ front, ∃ token, step.token? = some token ∧ ¬ token.IsInserted ∧ step.cutoff? = none := by
  intro step mem
  have several := List.length_pos_iff.mpr nonempty
  obtain ⟨number, there⟩ := List.getElem?_of_mem mem
  have less := (List.getElem?_eq_some_iff.mp there).1
  have isStep : (front ++ behind)[number]? = some step := by rw [List.getElem?_append_left less, there]
  obtain ⟨token, isToken, written, uncut⟩ := lexes.inner isStep (by rw [List.length_append]; omega)
  refine ⟨token, isToken, written, ?_⟩
  cases step with
  | token | invalid | endOfInput => rfl
  | truncated _ cutoff =>
    cases isToken
    exact absurd rfl (uncut cutoff)
  | incomplete => cases isToken

private theorem Reads.newline_inner (reads : lexer.Reads step after) (goesOn : step.endsInput = false)
    (others : after.Lexes steps) (nonempty : steps ≠ []) (blanks : List Char) : ∃ step' token,
      (lexer.withMore ('\n' :: blanks)).Reads step' (after.withMore ('\n' :: blanks)) ∧ step.Stays step' ∧
      step.token? = some token ∧ step'.token? = some token := by
  have lexes : lexer.Lexes ([step] ++ steps) := .more reads goesOn others
  obtain ⟨token, isToken, written, whole⟩ := lexes.inside nonempty step List.mem_cons_self
  obtain ⟨step', reads', stays⟩ := reads.newline isToken written whole
  exact ⟨step', token, reads', stays, isToken, by cases stays <;> exact isToken⟩

/-- A text that ends with such a literal behind a token that ends a line has, with a further line behind it, its own
tokens, the illegal one and the end of the line first. -/
theorem Lexes.spoiltLine {front : List LexStep} {before token : Token} {cutoff : Cutoff}
    (lexes : lexer.Lexes (front ++ [.token before, .truncated token cutoff])) (arms : before.kind.terminatesLine = true)
    (single : cutoff.construct ≠ .rawString) (fresh : next.armed = false) (behind : next.Lexes later) :
    ∃ steps', (lexer.withMore ('\n' :: next.rest)).Lexes steps' ∧
      BehindLine (front ++ [.token before, .truncated token cutoff]) steps' ∧
      LexStep.kinds steps' =
        LexStep.kinds front ++ before.kind :: .illegal :: .semicolon .newline :: LexStep.kinds later := by
  induction front generalizing lexer with
  | nil =>
    generalize isSteps : [] ++ [LexStep.token before, .truncated token cutoff] = all at lexes
    cases lexes with
    | ended | comment => cases isSteps
    | more reads goesOn others =>
      cases isSteps
      obtain ⟨step', found, reads', stays, isToken, isToken'⟩ :=
        reads.newline_inner goesOn others (List.cons_ne_nil _ _) next.rest
      cases others with
      | more cutOff =>
        obtain ⟨steps', lexes', line, kinds⟩ := cutOff.spoiltLine single (reads.armed.trans arms) fresh behind
        refine ⟨step' :: steps', .more reads' (by cases stays; rfl) lexes', .more stays line, ?_⟩
        cases isToken
        rw [LexStep.kinds_cons isToken', kinds]
        rfl
  | cons step front ih =>
    generalize isSteps : (step :: front) ++ [LexStep.token before, .truncated token cutoff] = all at lexes
    cases lexes with
    | ended => cases isSteps
    | comment => cases List.append_ne_nil_of_right_ne_nil front (List.cons_ne_nil _ _) (List.cons.inj isSteps).2
    | more reads goesOn others =>
      obtain ⟨rfl, rfl⟩ := List.cons.inj isSteps
      obtain ⟨step', found, reads', stays, isToken, isToken'⟩ :=
        reads.newline_inner goesOn others (List.append_ne_nil_of_right_ne_nil front (List.cons_ne_nil _ _)) next.rest
      obtain ⟨steps', lexes', line, kinds⟩ := ih others
      refine ⟨step' :: steps', .more reads' (by cases stays <;> rfl) lexes', .more stays line, ?_⟩
      rw [LexStep.kinds_cons isToken, LexStep.kinds_cons isToken', kinds, List.cons_append]

theorem Lexes.unterminated {token : Token} (lexes : lexer.Lexes (steps ++ [.token token])) :
    token.kind.terminatesLine = false := by
  generalize isSteps : steps ++ [.token token] = all at lexes
  induction lexes generalizing steps with
  | ended => cases List.append_ne_nil_of_right_ne_nil steps (List.cons_ne_nil _ _) isSteps
  | comment =>
    cases steps with
    | nil => cases isSteps
    | cons step steps =>
      obtain ⟨-, nothing⟩ := List.cons.inj isSteps
      cases List.append_ne_nil_of_right_ne_nil steps (List.cons_ne_nil _ _) nothing
  | more reads _ others ih =>
    cases steps with
    | cons step steps => exact ih (List.cons.inj isSteps).2
    | nil =>
      obtain ⟨rfl, rfl⟩ := List.cons.inj isSteps
      rw [← reads.armed]
      cases others with
      | ended reads => cases reads; assumption

end Lexer

end GoPrompt
