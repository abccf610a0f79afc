import GoPrompt.Proofs.Lexical.Newlines

/-! The tokens of a text and of the same text with a newline and perhaps blanks behind it. They are the same up to
the last one, and whatever comes behind a literal that the newline spoils is of no interest. -/

namespace GoPrompt

variable {blanks : List Char}

private theorem blockComment_open {text : List Char} (apart : ∀ c ∈ text, c ≠ '/' ∧ c ≠ '\x00') (length : Nat)
    (spansLines : Bool) :
    blockComment length spansLines text = (length + text.length, .endOfInput) := by
  induction text generalizing length spansLines with
  | nil => rfl
  | cons c rest ih =>
    have unclosed : ¬ (c = '*' ∧ rest.head? = some '/') := fun ⟨_, slash⟩ =>
      (apart '/' (List.mem_cons_of_mem c (List.mem_of_head? slash))).1 rfl
    rw [blockComment_cons unclosed, if_neg (apart c List.mem_cons_self).2,
      ih fun d mem => apart d (List.mem_cons_of_mem c mem), List.length_cons]
    congr 1
    omega

private theorem blockComment_newline (blank : ∀ c ∈ blanks, Unicode.isBlank c = true) (length : Nat) (spansLines : Bool)
    (text : List Char) :
    blockComment length spansLines (text ++ '\n' :: blanks) = match blockComment length spansLines text with
      | (taken, .endOfInput) => (taken + 1 + blanks.length, .endOfInput)
      | found => found := by
  induction text generalizing length spansLines with
  | nil =>
    have apart : ∀ c ∈ '\n' :: blanks, c ≠ '/' ∧ c ≠ '\x00' := by
      intro c mem
      rcases List.mem_cons.mp mem with rfl | mem
      · decide
      · exact ⟨ne_of_blank (blank c mem) (by decide), ne_of_blank (blank c mem) (by decide)⟩
    rw [List.nil_append, blockComment_open apart, List.length_cons]
    simp only [blockComment, Nat.add_assoc, Nat.add_comm 1]
  | cons c rest ih =>
    by_cases closes : c = '*' ∧ rest.head? = some '/'
    · obtain ⟨rfl, slash⟩ := closes
      obtain ⟨tail, rfl⟩ := List.head?_eq_some_iff.mp slash
      simp [blockComment]
    · have closesNot : ¬ (c = '*' ∧ (rest ++ '\n' :: blanks).head? = some '/') := by
        rintro ⟨star, slash⟩
        cases rest with
        | nil => cases slash
        | cons d tail => exact closes ⟨star, slash⟩
      rw [List.cons_append, blockComment_cons closesNot, blockComment_cons closes]
      split
      next => rfl
      next => exact ih _ _

/-- What a newline makes of the end of a text, or of a comment that reaches it. -/
def behindNewline (blanks : List Char) (armed : Bool) : Nat × Landmark → Nat × Landmark
  | (stop, .endOfInput) => if armed then (stop, .lineEnd 1) else gap false 0 (stop + 1) blanks
  | (stop, .openComment taken) => (stop, .openComment (taken + 1 + blanks.length))
  | found => found

theorem gap_newline (blank : ∀ c ∈ blanks, Unicode.isBlank c = true) (armed : Bool) (length : Nat) (text : List Char) :
    gap armed 0 length (text ++ '\n' :: blanks) = behindNewline blanks armed (gap armed 0 length text) := by
  have comment := blockComment_newline blank 2 false
  induction length, text using Gap.turns armed with
  | halt length text landmark halts =>
    rw [halts.gap]
    cases halts with
    | ended => cases armed <;> rfl
    | newline isArmed => exact (Gap.Halts.newline isArmed).gap length
    | comment read breaks => exact (Gap.Halts.comment ((comment _).trans (by rw [read])) breaks).gap length
    | nul read => exact (Gap.Halts.nul ((comment _).trans (by rw [read]))).gap length
    | unclosed read => exact (Gap.Halts.unclosed ((comment _).trans (by rw [read]))).gap length
    | @token c rest notHorizontal notNewline noComment =>
      refine (Gap.Halts.token notHorizontal notNewline fun mark isMark follows => ?_).gap length
      cases rest with
      | nil =>
        obtain rfl : '\n' = mark := Option.some.inj follows.2
        exact absurd isMark (by decide)
      | cons d tail => exact noComment mark isMark follows
  | pass length text taken passes ih =>
    rw [passes.gap, ← ih, ← List.drop_append_of_le_length passes.within.2]
    refine Gap.Passes.gap ?_ length
    rcases passes.append with same | ⟨rfl, onward⟩
    · exact same _
    · exact onward ('\n' :: blanks)

theorem gap_skips_blanks {before : List Char} (known : ∀ c ∈ before, isBlank c = true) (length : Nat) (rest : List Char) :
    gap false 0 length (before ++ rest) = gap false 0 (length + before.length) rest := by
  induction before generalizing length with
  | nil => rfl
  | cons c before ih =>
    have passes : Gap.Passes false (c :: (before ++ rest)) 1 := by
      rcases Bool.or_eq_true_iff.mp (known c List.mem_cons_self) with horizontal | newline
      · exact .blank horizontal
      · rw [beq_iff_eq.mp newline]
        exact .newline rfl
    rw [List.cons_append, passes.gap, List.drop_one, List.tail_cons, ih fun d mem =>
      known d (List.mem_cons_of_mem c mem), List.length_cons, Nat.add_assoc, Nat.add_comm 1]

theorem gap_unknown_blank {c : Char} (blank : Unicode.isBlank c = true) (unknown : isBlank c = false) (length : Nat)
    (rest : List Char) :
    gap false 0 length (c :: rest) = (length, .token c) := by
  obtain ⟨notHorizontal, notNewline⟩ := Bool.or_eq_false_iff.mp unknown
  exact (Gap.Halts.of_ne_slash notHorizontal (beq_eq_false_iff_ne.mp notNewline)
    (ne_of_blank blank (by decide)) rest).gap length

theorem exists_first_of_not {p : Char → Bool} {text : List Char} (mixed : ¬ ∀ c ∈ text, p c = true) :
    ∃ before c after, text = before ++ c :: after ∧ (∀ d ∈ before, p d = true) ∧ p c = false := by
  induction text with
  | nil => exact absurd (fun c mem => absurd mem List.not_mem_nil) mixed
  | cons first rest ih =>
    cases here : p first with
    | false => exact ⟨[], first, rest, rfl, fun d mem => absurd mem List.not_mem_nil, here⟩
    | true =>
      obtain ⟨before, c, after, rfl, same, other⟩ := ih fun all => mixed (List.forall_mem_cons.mpr ⟨here, all⟩)
      exact ⟨first :: before, c, after, rfl, List.forall_mem_cons.mpr ⟨here, same⟩, other⟩

/-- Behind blanks the text ends, unless there is one among them that is not allowed between tokens. -/
private theorem gap_blanks (blank : ∀ c ∈ blanks, Unicode.isBlank c = true) (length : Nat) :
    gap false 0 length blanks = (length + blanks.length, .endOfInput) ∨
      ∃ stop c, c ∈ blanks ∧ isBlank c = false ∧ gap false 0 length blanks = (stop, .token c) := by
  by_cases known : ∀ c ∈ blanks, isBlank c = true
  · have skipped := gap_skips_blanks known length []
    rw [List.append_nil] at skipped
    exact .inl skipped
  · obtain ⟨before, c, after, rfl, known, unknown⟩ := exists_first_of_not known
    have mem : c ∈ before ++ c :: after := by simp
    refine .inr ⟨length + before.length, c, mem, unknown, ?_⟩
    rw [gap_skips_blanks known, gap_unknown_blank (blank c mem) unknown]

theorem unicode_isBlank {c : Char} (blank : isBlank c = true) : Unicode.isBlank c = true := by
  rcases isBlank_iff.mp blank with rfl | rfl | rfl | rfl <;> decide

theorem Lexer.ofText_blanks {text : List Char} (blank : ∀ c ∈ text, Unicode.isBlank c = true) (source : Nat) :
    Lexer.ofText source text = ⟨source, text, 0, false⟩ := by
  cases text with
  | nil => rfl
  | cons c rest => exact if_neg (ne_of_blank (blank c List.mem_cons_self) (by decide))

/-- Steps that read the same token, whole or invalid. -/
inductive LexStep.Stays : LexStep → LexStep → Prop
  | whole (token : Token) : Stays (.token token) (.token token)
  | invalid (token : Token) (diagnostic diagnostic' : LexDiagnostic) :
      Stays (.invalid token diagnostic) (.invalid token diagnostic')

def HasIllegal (steps : List LexStep) : Prop :=
  ∃ step ∈ steps, ∃ token, step.token? = some token ∧ token.kind = .illegal

/-- The steps over a text, and those over the text with a newline behind it. -/
inductive BehindLine : List LexStep → List LexStep → Prop
  | ended : BehindLine [] []
  | comment (cutoff cutoff' : Cutoff) : BehindLine [.incomplete cutoff] [.incomplete cutoff']
  | inserted {token token' : Token} (inserted : token.IsInserted) (lineEnd : token'.kind = .semicolon .newline) :
      BehindLine [.token token] [.token token']
  | rawString {token token' : Token} (cutoff cutoff' : Cutoff) (isString : token.kind = .literal .string)
      (isString' : token'.kind = .literal .string) : BehindLine [.truncated token cutoff] [.truncated token' cutoff']
  | spoilt {token token' : Token} {cutoff : Cutoff} {kind : LiteralKind} (diagnostic : LexDiagnostic)
      (behind : List LexStep) (literal : token.kind = .literal kind) (illegal : token'.kind = .illegal)
      (construct : kind = .string → cutoff.construct = .string) :
      BehindLine [.truncated token cutoff] (.invalid token' diagnostic :: behind)
  | more {step step' : LexStep} {steps steps' : List LexStep} (stays : step.Stays step')
      (later : BehindLine steps steps') :
      BehindLine (step :: steps) (step' :: steps')

namespace Lexer

variable {lexer after : Lexer} {step : LexStep} {steps : List LexStep}

/-- A token that the end of the text does not cut off is not changed by the newline behind the text. -/
theorem Reads.newline (reads : lexer.Reads step after) {token : Token} (isToken : step.token? = some token)
    (written : ¬ token.IsInserted) (whole : step.cutoff? = none) :
    ∃ step', (lexer.withMore ('\n' :: blanks)).Reads step' (after.withMore ('\n' :: blanks)) ∧ step.Stays step' := by
  obtain ⟨step', after', token', reads', isToken', outcome⟩ := reads.withMore startsBlank_newline isToken written
  rcases outcome with ⟨rfl, rfl⟩ | ⟨-, -, ⟨cutoff, isCut⟩, -⟩
  · refine ⟨step', reads', ?_⟩
    have kind := reads.kind
    have kind' := reads'.kind
    cases step with
    | incomplete | endOfInput => cases isToken
    | truncated => cases whole
    | token found =>
      cases isToken
      cases step' with
      | incomplete | endOfInput => cases isToken'
      | token found =>
        cases isToken'
        exact .whole _
      | invalid found =>
        cases isToken'
        exact absurd kind' kind
      | truncated found =>
        have empty := reads'.truncated_ends.1
        simp [Lexer.withMore] at empty
    | invalid found diagnostic =>
      cases isToken
      cases step' with
      | incomplete | endOfInput => cases isToken'
      | token found =>
        cases isToken'
        exact absurd kind kind'
      | invalid found diagnostic' =>
        cases isToken'
        exact .invalid _ _ _
      | truncated found =>
        have empty := reads'.truncated_ends.1
        simp [Lexer.withMore] at empty
  · rw [isCut] at whole
    cases whole

section

variable (blank : ∀ c ∈ blanks, Unicode.isBlank c = true)
include blank

private theorem Sound.lexes_blanks (sound : lexer.Sound) {length : Nat} (unarmed : lexer.armed = false)
    (ahead : gap lexer.armed 0 0 lexer.rest = gap false 0 length blanks) :
    ∃ steps, lexer.Lexes steps ∧ (steps = [] ∨ (∃ c ∈ blanks, isBlank c = false) ∧ HasIllegal steps) := by
  rcases gap_blanks blank length with ended | ⟨stop, c, mem, written, found⟩
  · exact ⟨[], .ended (.ended (ahead.trans ended) unarmed), .inl rfl⟩
  · have skipped := ahead.trans found
    obtain ⟨rest, here⟩ := gap_begins skipped
    obtain ⟨flaw, scanned⟩ := scanToken_blank (blank c mem) rest
    have reads : lexer.Reads _ _ := .invalid skipped here scanned
    obtain ⟨steps, lexes⟩ := (reads.sound sound).lexes
    exact ⟨_, .more reads rfl lexes, .inr ⟨⟨c, mem, written⟩, _, List.mem_cons_self, _, rfl, rfl⟩⟩

private theorem Reads.newline_ended (reads : lexer.Reads .endOfInput after)
    (sound : (lexer.withMore ('\n' :: blanks)).Sound) :
    ∃ steps, (lexer.withMore ('\n' :: blanks)).Lexes steps ∧
      (BehindLine [] steps ∨ (∃ c ∈ blanks, isBlank c = false) ∧ HasIllegal steps) := by
  cases reads with
  | ended skipped unarmed =>
    have skipped' := gap_newline blank lexer.armed 0 lexer.rest
    rw [skipped, behindNewline, unarmed] at skipped'
    obtain ⟨steps, lexes, outcome⟩ := sound.lexes_blanks blank unarmed (by rw [Lexer.withMore, unarmed]; exact skipped')
    refine ⟨steps, lexes, outcome.imp_left ?_⟩
    rintro rfl
    exact .ended

private theorem Reads.newline_comment {cutoff : Cutoff} (reads : lexer.Reads (.incomplete cutoff) after) :
    ∃ cutoff', (lexer.withMore ('\n' :: blanks)).Lexes [.incomplete cutoff'] := by
  cases reads with
  | openComment skipped =>
    have skipped' := gap_newline blank lexer.armed 0 lexer.rest
    rw [skipped] at skipped'
    exact ⟨_, .comment (.openComment skipped')⟩

private theorem Reads.newline_inserted {token : Token} (reads : lexer.Reads (.token token) after)
    (inserted : token.IsInserted) (sound : (lexer.withMore ('\n' :: blanks)).Sound) :
    ∃ steps, (lexer.withMore ('\n' :: blanks)).Lexes steps ∧
      (BehindLine [.token token] steps ∨ (∃ c ∈ blanks, isBlank c = false) ∧ HasIllegal steps) := by
  obtain ⟨stop, skipped, armed, -⟩ := reads.of_inserted inserted
  have skipped' := gap_newline blank lexer.armed 0 lexer.rest
  rw [skipped, behindNewline, armed, if_pos rfl] at skipped'
  have lineEnd : (lexer.withMore ('\n' :: blanks)).Reads _ _ :=
    .lineEnd (by rw [Lexer.withMore, armed]; exact skipped')
  have left : (((lexer.withMore ('\n' :: blanks)).skip stop).skip 1).rest = blanks := by
    have alone : gap lexer.armed 0 0 (lexer.rest ++ ['\n']) = (stop, .lineEnd 1) := by
      rw [gap_newline (by simp), skipped, behindNewline, armed, if_pos rfl]
    have within := gap_lineEnd_le alone
    have ended := (gap_holds _ _ _ _ skipped).2
    simp only [List.length_append, List.length_singleton, Nat.zero_add] at within
    simp only [Landmark.Holds, Nat.zero_add, Nat.sub_zero] at ended
    simp only [Lexer.withMore, Lexer.skip,
      List.drop_append_of_le_length (Nat.le_of_succ_le_succ within), ended, List.nil_append, List.drop_succ_cons,
      List.drop_zero]
  obtain ⟨steps, lexes, outcome⟩ := (lineEnd.sound sound).lexes_blanks blank rfl (congrArg (gap false 0 0) left)
  refine ⟨_, .more lineEnd rfl lexes, ?_⟩
  rcases outcome with rfl | ⟨written, step, mem, isIllegal⟩
  · exact .inl (.inserted inserted rfl)
  · exact .inr ⟨written, step, List.mem_cons_of_mem _ mem, isIllegal⟩

private theorem Reads.newline_truncated {token : Token} {cutoff : Cutoff}
    (reads : lexer.Reads (.truncated token cutoff) after) (sound : (lexer.withMore ('\n' :: blanks)).Sound) :
    ∃ steps', (lexer.withMore ('\n' :: blanks)).Lexes steps' ∧ BehindLine [.truncated token cutoff] steps' := by
  generalize isStep : LexStep.truncated token cutoff = step at reads
  cases reads with
  | @cutOff stop first rest length kind cause skipped here scanned =>
    cases isStep
    have skipped' : gap lexer.armed 0 0 (lexer.rest ++ '\n' :: blanks) = (stop, .token first) :=
      gap_append_of_blank startsBlank_newline skipped rfl
    have here' := withMore_here ('\n' :: blanks) here
    rcases scanned' : scanToken first (rest ++ '\n' :: blanks) with ⟨length', shape⟩
    rcases scanToken_newline blank (congrArg TokenScan.shape scanned) with
      ⟨⟨flaw, spoilt⟩, construct⟩ | ⟨isOpen, rfl, rfl⟩
    · rw [scanned'] at spoilt
      obtain rfl : shape = .invalid flaw := spoilt
      have reads' : (lexer.withMore ('\n' :: blanks)).Reads _ _ := .invalid skipped' here' scanned'
      obtain ⟨behind, lexes⟩ := (reads'.sound sound).lexes
      exact ⟨_, .more reads' rfl lexes, .spoilt _ behind rfl rfl construct⟩
    · rw [scanned'] at isOpen
      obtain rfl : shape = .cutOff .string .rawString := isOpen
      have reads' : (lexer.withMore ('\n' :: blanks)).Reads _ _ := .cutOff skipped' here' scanned'
      obtain ⟨empty, unarmed⟩ := reads'.truncated_ends
      exact ⟨_, .more reads' rfl (lexes_nil empty unarmed), .rawString _ _ rfl rfl⟩
  | whole | lineEnd | inserted | invalid | openComment | ended => cases isStep

/-- The tokens of a text with a newline and blanks behind it. -/
theorem Lexes.newline (lexes : lexer.Lexes steps) (sound : (lexer.withMore ('\n' :: blanks)).Sound) :
    ∃ steps', (lexer.withMore ('\n' :: blanks)).Lexes steps' ∧
      (BehindLine steps steps' ∨ (∃ c ∈ blanks, isBlank c = false) ∧ HasIllegal steps') := by
  induction lexes with
  | ended reads => exact reads.newline_ended blank sound
  | comment reads =>
    obtain ⟨cutoff', lexes'⟩ := reads.newline_comment blank
    exact ⟨_, lexes', .inl (.comment _ cutoff')⟩
  | @more lexer after step steps reads goesOn later ih =>
    have written : ∀ token, step.token? = some token → ¬ token.IsInserted → step.cutoff? = none →
        ∃ steps', (lexer.withMore ('\n' :: blanks)).Lexes steps' ∧
          (BehindLine (step :: steps) steps' ∨ (∃ c ∈ blanks, isBlank c = false) ∧ HasIllegal steps') := by
      intro token isToken written whole
      obtain ⟨step', reads', stays⟩ := reads.newline isToken written whole
      obtain ⟨steps', lexes', outcome⟩ := ih (reads'.sound sound)
      refine ⟨_, .more reads' (by cases stays <;> rfl) lexes', ?_⟩
      rcases outcome with behind | ⟨apart, found, mem, isIllegal⟩
      · exact .inl (.more stays behind)
      · exact .inr ⟨apart, found, List.mem_cons_of_mem _ mem, isIllegal⟩
    cases step with
    | incomplete | endOfInput => cases goesOn
    | invalid token diagnostic =>
      exact written token rfl (fun inserted => by cases inserted.symm.trans reads.kind) rfl
    | truncated token cutoff =>
      obtain ⟨empty, unarmed⟩ := reads.truncated_ends
      obtain rfl := later.eq_nil empty unarmed
      obtain ⟨steps', lexes', behind⟩ := reads.newline_truncated blank sound
      exact ⟨steps', lexes', .inl behind⟩
    | token token =>
      by_cases inserted : token.IsInserted
      · obtain ⟨empty, unarmed⟩ := reads.inserted_ends inserted
        obtain rfl := later.eq_nil empty unarmed
        exact reads.newline_inserted blank inserted sound
      · exact written token rfl inserted rfl

end

end Lexer

end GoPrompt
