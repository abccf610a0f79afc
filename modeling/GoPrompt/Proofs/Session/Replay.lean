import GoPrompt.Proofs.Classification.BlankLines
import GoPrompt.Proofs.Lexical.Newlines
import GoPrompt.Proofs.Session.Blocks
import GoPrompt.Proofs.Session.Reachable
import GoPrompt.Proofs.Text.Pieces
import GoPrompt.Repl.Command

/-! A selection of history entries is read as it is typed.

A replay of the whole history. The lines of every statement are in the history, and at a fresh prompt they open
and close the same statement again. -/

namespace GoPrompt

namespace Text

section

variable {number : Nat} {digits : List Char} (isDigits : digits = Nat.toDigits 10 number)
include isDigits

private theorem digits_nonempty : digits ≠ [] := isDigits ▸ Nat.toDigits_ne_nil

private theorem isDigit_of_mem {c : Char} (mem : c ∈ digits) : c.isDigit = true :=
  Nat.isDigit_of_mem_toDigits (by decide) (by decide) (isDigits ▸ mem)

private theorem isBlank_of_mem_digits {c : Char} (mem : c ∈ digits) : Unicode.isBlank c = false :=
  have spares : Unicode.SparesBlanks Char.isDigit := by decide +kernel
  spares.not_isBlank (isDigit_of_mem isDigits mem)

private theorem trim_digits : trim digits = digits := trim_eq_self fun _ => isBlank_of_mem_digits isDigits

private theorem decimalValue_digits : decimalValue digits = number := by
  have value := @Nat.ofDigitChars_ten_toDigits number
  rw [Nat.ofDigitChars_eq_foldl] at value
  rw [isDigits]
  simpa only [decimalValue, Nat.mul_comm 10] using value

private theorem count?_digits (counts : number ≤ maxCount) : count? digits = some number := by
  have unsigned : ∀ rest, digits ≠ '+' :: rest := by
    rintro rest rfl
    exact absurd (isDigit_of_mem isDigits List.mem_cons_self) (by decide)
  have all : digits.all Char.isDigit = true := List.all_eq_true.mpr fun c mem => isDigit_of_mem isDigits mem
  have some : digits.isEmpty = false := List.isEmpty_eq_false_iff.mpr (digits_nonempty isDigits)
  unfold count?
  split
  next rest => exact absurd rfl (unsigned rest)
  next => simp [some, all, decimalValue_digits isDigits, counts]

end

end Text

namespace HistoryRange

private theorem parseBound_digits {number : Nat} (counts : number ≤ Text.maxCount) :
    parseBound (Nat.toDigits 10 number) = .ok (some number) := by
  have nonempty : (Nat.toDigits 10 number).isEmpty = false := List.isEmpty_eq_false_iff.mpr Nat.toDigits_ne_nil
  simp only [parseBound, parseIndex, Text.trim_digits rfl, nonempty, Text.count?_digits rfl counts]
  rfl

/-- How a selection from one number to another one is typed. -/
def typed (first last : Nat) : List Char := Nat.toDigits 10 first ++ '-' :: Nat.toDigits 10 last

private theorem isBlank_of_mem_typed {first last : Nat} {c : Char} (mem : c ∈ typed first last) :
    Unicode.isBlank c = false := by
  rcases List.mem_append.mp mem with mem | mem
  · exact Text.isBlank_of_mem_digits rfl mem
  · rcases List.mem_cons.mp mem with rfl | mem
    · decide
    · exact Text.isBlank_of_mem_digits rfl mem

private theorem parse_span {first last : Nat} (counts : first ≤ Text.maxCount) (counts' : last ≤ Text.maxCount) :
    parse (typed first last) = .ok (span (some first) (some last)) := by
  have apart : ∀ number, '-' ∉ Nat.toDigits 10 number :=
    fun number mem => absurd (Text.isDigit_of_mem rfl mem) (by decide)
  rw [parse, Text.trim_eq_self fun _ =>
    isBlank_of_mem_typed, typed, List.splitOn_append_cons_self_of_not_mem (apart first),
    List.splitOn_eq_singleton (apart last)]
  simp only [parseBound_digits counts, parseBound_digits counts']
  rfl

end HistoryRange

/-- Two numbers with a dash between them behind a colon ask for a replay of the entries between them. -/
private theorem Command.parse?_replay (home : Option String) {first last : Nat} (counts : first ≤ Text.maxCount)
    (counts' : last ≤ Text.maxCount) : Command.parse? home (":" ++ toString first ++ "-" ++ toString last) =
      some (.ok (.replay (.span (some first) (some last)))) := by
  have text : (":" ++ toString first ++ "-" ++ toString last).toList = ':' :: HistoryRange.typed first last := by
    simp [HistoryRange.typed, Nat.toList_repr]
  have written : ∀ c ∈ ':' :: HistoryRange.typed first last, Unicode.isBlank c = false := by
    intro c mem
    rcases List.mem_cons.mp mem with rfl | mem
    · decide
    · exact HistoryRange.isBlank_of_mem_typed mem
  obtain ⟨digit, digits, isDigits⟩ := List.exists_cons_of_ne_nil (@Nat.toDigits_ne_nil first 10)
  have isDigit : digit.isDigit = true := Text.isDigit_of_mem isDigits.symm List.mem_cons_self
  have starts : HistoryRange.typed first last = digit :: (digits ++ '-' :: Nat.toDigits 10 last) := by
    rw [HistoryRange.typed, isDigits, List.cons_append]
  have colon : digit ≠ ':' := by
    rintro rfl
    cases isDigit
  have parsed := HistoryRange.parse_span counts counts'
  have trimmed := Text.trim_eq_self written
  rw [starts] at parsed trimmed
  simp only [parse?, text, starts, trimmed, colon, startsRange, isDigit, parseRange, parsed,
    Bool.true_or, ↓reduceIte]
  rfl

/-- Whether an event reports a statement that has been dropped. -/
def ReplEvent.isLoss : ReplEvent → Bool
  | .syntaxError _ _ | .fault _ _ | .unfinished _ => true
  | _ => false

/-- The statements that are evaluated in a list of answers. -/
def evaluated (answers : List (Except ReplError (List ReplEvent))) : Evaluations :=
  answers.flatMap fun answer => match answer with
    | .ok events => events.filterMap (·.evaluation?)
    | .error _ => []

/-- Lines that a prompt holds one after the other, because with each of them a statement is open. -/
inductive Opens (limits : Limits) : List String → Prop
  | fresh : Opens limits []
  | more {opened : List String} {line : String} {classification : Classification} (opens : Opens limits opened)
      (begins : opened = [] → ¬ IsBlankLine line)
      (classified : classify limits (joined (opened ++ [line])) = .ok classification)
      (wanting : classification.answer = .needMoreInput) (begun : classification.pending ≠ some .emptyInput) :
      Opens limits (opened ++ [line])

/-- A statement with the lines that it is written in. -/
structure Written where
  lines : List String
  kind : StatementKind

namespace Written

def evaluation (written : Written) : String × StatementKind := (joined written.lines, written.kind)

/-- The lines make up a statement of the kind, which the last of them completes. -/
inductive Closes (limits : Limits) : Written → Prop
  | done {opened : List String} {line : String} {classification : Classification} (opens : Opens limits opened)
      (begins : opened = [] → ¬ IsBlankLine line)
      (classified : classify limits (joined (opened ++ [line])) = .ok classification)
      (complete : classification.answer = .complete) :
      Closes limits ⟨opened ++ [line], classification.statement.getD .expression⟩

end Written

section

variable {limits : Limits}

private theorem Opens.joined_ne_empty {opened : List String} (opens : Opens limits opened) (nonempty : opened ≠ []) :
    joined opened ≠ "" := by
  cases opens with
  | fresh => exact absurd rfl nonempty
  | @more opened line _ _ begins =>
    by_cases first : opened = []
    · have shows := begins first
      rw [first, List.nil_append, joined_singleton]
      rintro rfl
      exact shows rfl
    · rw [joined_append first]
      intro empty
      have := congrArg String.toList empty
      simp at this

theorem Written.Closes.ends {written : Written} (closes : written.Closes limits) {line : String}
    (last : written.lines.getLast? = some line) : ¬ IsBlankLine line := by
  cases closes with
  | done opens begins classified complete =>
    rw [List.getLast?_concat] at last
    obtain rfl := Option.some.inj last
    cases opens with
    | fresh => exact begins rfl
    | more before _ classified' wanting =>
      rw [joined_append (by simp)] at classified
      exact fun blank => blankLine_open (isBlankLine_iff.mp blank) classified' wanting classified complete

theorem Written.Closes.nonempty {written : Written} (closes : written.Closes limits) : written.lines ≠ [] := by
  cases closes
  simp

end

namespace Repl

variable {σ : Type} {repl : Repl σ} {limits : Limits}

private theorem acceptLines_append (repl : Repl σ) (lines more : List String) : repl.acceptLines (lines ++ more) =
    ((repl.acceptLines lines).1 ++ ((repl.acceptLines lines).2.acceptLines more).1,
      ((repl.acceptLines lines).2.acceptLines more).2) := by
  induction lines generalizing repl with
  | nil => rfl
  | cons line rest ih => simp only [List.cons_append, acceptLines, ih, List.append_assoc]

private theorem holds_nil (fresh : repl.buffer = "") : repl.Holds [] := ⟨fresh, by simp [fresh]⟩

theorem Holds.setBuffer {opened : List String} (opens : Opens limits opened) :
    (repl.setBuffer (joined opened)).Holds opened where
  buffer := rfl
  fresh := by
    constructor
    · rintro rfl
      rfl
    · exact fun empty => Decidable.byContradiction fun nonempty => opens.joined_ne_empty nonempty empty

theorem Holds.takes {opened : List String} (holds : repl.Holds opened) {line : String}
    (begins : opened = [] → ¬ IsBlankLine line) :
    repl.Takes line := by
  by_cases fresh : opened = []
  · exact .inr (Bool.eq_false_iff.mpr (begins fresh))
  · exact .inl (repl.isContinuing_iff.mpr (mt holds.fresh.mpr fresh))

private theorem acceptLines_opens {opened : List String} (opens : Opens limits opened)
    (isLimits : repl.config.limits = limits) (fresh : repl.buffer = "") :
    ∃ events, repl.acceptLines opened = (events, repl.setBuffer (joined opened)) ∧
      ∀ event ∈ events, event.evaluation? = none ∧ event.isLoss = false := by
  subst isLimits
  induction opens with
  | fresh =>
    have same : repl.setBuffer (joined []) = repl := by
      rw [joined, show String.intercalate "\n" [] = repl.buffer from fresh.symm]
      rfl
    exact ⟨[], by rw [same]; rfl, fun _ mem => absurd mem List.not_mem_nil⟩
  | @more opened line classification opens begins classified wanting begun ih =>
    obtain ⟨events, accepted, harmless⟩ := ih
    have holds : (repl.setBuffer (joined opened)).Holds opened := .setBuffer opens
    have extends' := holds.extended line
    have waits : (repl.setBuffer (joined opened)).acceptLine line = _ :=
      (Accepts.waiting (holds.takes begins) (by rw [extends']; exact classified) wanting begun).acceptLine_eq
    refine ⟨events ++ [.needMoreInput classification.pending], ?_, ?_⟩
    · rw [acceptLines_append, accepted, acceptLines, waits, extends']
      rfl
    · intro event mem
      rcases List.mem_append.mp mem with mem | mem
      · exact harmless event mem
      · obtain rfl := List.mem_singleton.mp mem
        exact ⟨rfl, rfl⟩

/-- What comes of statements that arrive at a fresh prompt, line by line. -/
structure Evaluates (repl after : Repl σ) (events : List ReplEvent) (statements : List Written) : Prop where
  config : after.config = repl.config
  fresh : after.buffer = ""
  history : after.history = repl.history.recordAll (statements.map (·.evaluation))
  harmless : ∀ event ∈ events, event.isLoss = false
  evaluations : events.filterMap (·.evaluation?) = statements.map (·.evaluation)

private theorem acceptLines_closes {written : Written} (closes : written.Closes limits)
    (isLimits : repl.config.limits = limits) (fresh : repl.buffer = "") :
    ∃ events after, repl.acceptLines written.lines = (events, after) ∧
      repl.Evaluates after events [written] := by
  subst isLimits
  cases closes with
  | @done opened line classification opens begins classified complete =>
    obtain ⟨events, accepted, harmless⟩ := acceptLines_opens opens rfl fresh
    have holds : (repl.setBuffer (joined opened)).Holds opened := .setBuffer opens
    have extends' := holds.extended line
    have evaluates : (repl.setBuffer (joined opened)).acceptLine line = _ :=
      (Accepts.evaluated (holds.takes begins) (by rw [extends']; exact classified) complete).acceptLine_eq
    rw [extends'] at evaluates
    have all := repl.acceptLines_append opened [line]
    rw [accepted, acceptLines, evaluates] at all
    refine ⟨_, _, all, rfl, rfl, rfl, ?_, ?_⟩
    · intro event mem
      rcases List.mem_append.mp mem with mem | mem
      · exact (harmless event mem).2
      · obtain rfl := List.mem_singleton.mp mem
        rfl
    · rw [List.filterMap_append, List.filterMap_eq_nil_iff.mpr fun event mem => (harmless event mem).1]
      rfl

private theorem acceptLines_evaluates {statements : List Written}
    (closes : ∀ written ∈ statements, written.Closes limits) (isLimits : repl.config.limits = limits)
    (fresh : repl.buffer = "") : ∃ events after,
      repl.acceptLines (statements.flatMap (·.lines)) = (events, after) ∧ repl.Evaluates after events statements := by
  induction statements generalizing repl with
  | nil => exact ⟨[], repl, rfl, rfl, fresh, rfl, fun _ mem => absurd mem List.not_mem_nil, rfl⟩
  | cons written rest ih =>
    obtain ⟨events, middle, accepted, evaluates⟩ :=
      acceptLines_closes (closes written List.mem_cons_self) isLimits fresh
    obtain ⟨later, after, accepted', evaluates'⟩ := ih (fun written mem => closes written (List.mem_cons_of_mem _ mem))
      (evaluates.config ▸ isLimits) evaluates.fresh
    refine ⟨events ++ later, after, by rw [List.flatMap_cons, acceptLines_append, accepted, accepted'],
      evaluates'.config.trans evaluates.config, evaluates'.fresh, ?_, ?_, ?_⟩
    · rw [evaluates'.history, evaluates.history]
      rfl
    · intro event mem
      exact (List.mem_append.mp mem).elim (evaluates.harmless event) (evaluates'.harmless event)
    · rw [List.filterMap_append, evaluates.evaluations, evaluates'.evaluations]
      rfl

/-- What source text has done to a session: the statements that it evaluated, and the lines that are open. -/
structure Gathers (repl after : Repl σ) (lines : List String) (evaluations : Evaluations) (statements : List Written)
    (left : List String) : Prop where
  config : after.config = repl.config
  history : after.history = repl.history.recordAll (statements.map (·.evaluation))
  evaluations : evaluations = statements.map (·.evaluation)
  closes : ∀ written ∈ statements, written.Closes repl.config.limits
  opens : Opens repl.config.limits left
  holds : after.Holds left
  given : ∀ line, (line ∈ left ∨ ∃ written ∈ statements, line ∈ written.lines) → line ∈ lines

/-- What a line does to the lines that are open. -/
private theorem Accepts.gathers {after : Repl σ} {opened : List String} (holds : repl.Holds opened)
    (opens : Opens repl.config.limits opened) {line : String} {event : Option ReplEvent}
    (accepts : repl.Accepts line event after) : ∃ statements left,
      repl.Gathers after (opened ++ [line]) (event.toList.filterMap (·.evaluation?)) statements left := by
  have held := holds.extended line
  have given : ∀ found, (found ∈ ([] : List String) ∨ ∃ written ∈ ([] : List Written), found ∈ written.lines) →
      found ∈ opened ++ [line] := by simp
  have dropped : repl.Gathers (repl.setBuffer "") (opened ++ [line]) [] [] [] :=
    ⟨rfl, rfl, rfl, by simp, .fresh, holds_nil rfl, given⟩
  -- A line that begins a statement is taken where nothing is open.
  have begins : repl.Takes line → opened = [] → ¬ IsBlankLine line := by
    rintro takes rfl
    have fresh : repl.isContinuing = false := repl.isContinuing_eq_false.mpr (holds.fresh.mp rfl)
    rcases takes with continuing | shows
    · rw [fresh] at continuing
      cases continuing
    · exact Bool.eq_false_iff.mp shows
  cases accepts with
  | skipped blank =>
    have fresh : repl.buffer = "" := repl.isContinuing_eq_false.mp (Bool.eq_false_iff.mpr (not_or.mp blank).1)
    exact ⟨[], [], rfl, rfl, rfl, by simp, .fresh, holds_nil fresh, given⟩
  | dropped => exact ⟨[], [], dropped⟩
  | rejected => exact ⟨[], [], dropped⟩
  | unclassified => exact ⟨[], [], dropped⟩
  | waiting takes classified wanting begun =>
    rw [held] at classified ⊢
    have opens' := Opens.more opens (begins takes) classified wanting begun
    exact ⟨[], opened ++ [line], rfl, rfl, rfl, by simp, opens', .setBuffer opens', by simp⟩
  | evaluated takes classified complete =>
    rw [held] at classified ⊢
    refine ⟨[⟨opened ++ [line], _⟩], [], rfl, rfl, rfl, ?_, .fresh, holds_nil rfl, by simp⟩
    intro written mem
    obtain rfl := List.mem_singleton.mp mem
    exact .done opens (begins takes) classified complete

private theorem handleCalls_gathers {opened : List String} (holds : repl.Holds opened)
    (opens : Opens repl.config.limits opened) (calls : List Call)
    (source : ∀ before call after, calls = before ++ call :: after → (repl.behind before).command? call = none) :
    ∃ statements left, repl.Gathers (repl.behind calls) (opened ++ calls.map (·.line))
      (evaluated (repl.handleCalls calls).1)
      statements left := by
  induction calls generalizing repl opened with
  | nil =>
    refine ⟨[], opened, rfl, rfl, rfl, by simp, opens, holds, by simp⟩
  | cons call rest ih =>
    obtain ⟨handled, sources⟩ := handleLine_source_cons source
    have accepts := repl.acceptLine_accepts call.line
    generalize repl.acceptLine call.line = accepted at handled accepts sources
    obtain ⟨event, after⟩ := accepted
    obtain ⟨statements, left, gathers⟩ := accepts.gathers holds opens
    obtain ⟨later, left', gathers'⟩ := ih gathers.holds (gathers.config ▸ gathers.opens) sources
    refine ⟨statements ++ later, left', ?_, ?_, ?_, ?_, ?_, ?_, ?_⟩
    · rw [behind_cons, handled]
      exact gathers'.config.trans gathers.config
    · rw [behind_cons, handled, gathers'.history, gathers.history, List.map_append]
      simp only [History.recordAll, List.foldl_append]
    · rw [List.map_append, ← gathers.evaluations, ← gathers'.evaluations]
      simp only [handleCalls, handled, evaluated, List.flatMap_cons]
    · intro written mem
      rcases List.mem_append.mp mem with mem | mem
      · exact gathers.closes written mem
      · exact gathers.config ▸ gathers'.closes written mem
    · exact gathers.config ▸ gathers'.opens
    · rw [behind_cons, handled]
      exact gathers'.holds
    · intro line mem
      have before : ∀ line, (line ∈ left ∨ ∃ written ∈ statements, line ∈ written.lines) →
          line ∈ opened ++ (call :: rest).map (·.line) := by
        intro line mem
        rcases List.mem_append.mp (gathers.given line mem) with old | new
        · exact List.mem_append_left _ old
        · rw [List.mem_singleton.mp new]
          simp
      have behind : ∀ line, (line ∈ left' ∨ ∃ written ∈ later, line ∈ written.lines) →
          line ∈ opened ++ (call :: rest).map (·.line) := by
        intro line mem
        rcases List.mem_append.mp (gathers'.given line mem) with open' | new
        · exact before line (.inl open')
        · exact List.mem_append_right _ (List.mem_cons_of_mem _ new)
      rcases mem with mem | ⟨written, mem, inside⟩
      · exact behind line (.inl mem)
      · rcases List.mem_append.mp mem with mem | mem
        · exact before line (.inr ⟨written, mem, inside⟩)
        · exact behind line (.inr ⟨written, mem, inside⟩)

private theorem behind_logs (repl : Repl σ) (log : Evaluations) (calls : List Call)
    (source : ∀ before call after, calls = before ++ call :: after → (repl.behind before).command? call = none) :
    (repl.withLog log).behind calls = (repl.behind calls).withLog (log ++ evaluated (repl.handleCalls calls).1) := by
  induction calls generalizing repl log with
  | nil => exact congrArg repl.withLog (List.append_nil log).symm
  | cons call rest ih =>
    have noCommand : (repl.withLog log).command? call = none := source [] call rest rfl
    obtain ⟨handled, sources⟩ := handleLine_source_cons source
    have later := ih (repl.acceptLine call.line).2
      (log ++ (repl.acceptLine call.line).1.toList.filterMap (·.evaluation?)) sources
    rw [behind_cons, behind_cons, handled, handleLine_source noCommand, (repl.acceptLine_logs log call.line).1, later,
      List.append_assoc]
    simp only [handleCalls, handled, evaluated, List.flatMap_cons]

private theorem recordAll_lines {history : History} (unlimited : history.limit = none) {statements : List Written}
    (closes : ∀ written ∈ statements, written.Closes limits)
    (isLines : ∀ written ∈ statements, ∀ line ∈ written.lines, IsTypedLine line) :
    (history.recordAll (statements.map (·.evaluation))).entries = history.entries ++ statements.flatMap (·.lines) := by
  have start : history.entries = latest history.limit history.entries := by rw [unlimited, latest]
  have recorded : ∀ written ∈ statements, History.recordedLines written.evaluation.1 =
      written.lines := fun written mem =>
    History.recordedLines_joined (closes written mem).nonempty (isLines written mem) fun _ => (closes written mem).ends
  rw [History.recordAll_entries start, unlimited, latest, List.flatMap_map, List.flatMap_def, List.flatMap_def,
    List.map_congr_left recorded]

private theorem feedText_evaluates {statements : List Written} (closes : ∀ written ∈ statements, written.Closes limits)
    (isLines : ∀ written ∈ statements, ∀ line ∈ written.lines, IsTypedLine line)
    (isLimits : repl.config.limits = limits) (fresh : repl.buffer = "") : ∃ events after,
      repl.feedText (joined (statements.flatMap (·.lines))).toList = (events, after) ∧
      repl.Evaluates after events statements := by
  obtain ⟨events, after, accepted, evaluates⟩ := acceptLines_evaluates closes isLimits fresh
  have again : (Text.lines (joined (statements.flatMap (·.lines))).toList).map String.ofList =
      statements.flatMap (·.lines) := by
    rw [Text.lines_joined]
    · simp
    · intro line mem
      obtain ⟨written, mem, inside⟩ := List.mem_flatMap.mp mem
      exact isLines written mem line inside
    · intro line last
      rw [List.getLast?_flatMap] at last
      obtain ⟨written, mem, isLast⟩ := List.exists_of_findSome?_eq_some last
      rintro rfl
      exact (closes written (List.mem_reverse.mp mem)).ends isLast rfl
  refine ⟨events, after, ?_, evaluates⟩
  rw [feedText, again, accepted]
  exact if_neg (Bool.eq_false_iff.mp (after.isContinuing_eq_false.mpr evaluates.fresh))

end Repl

private theorem HistoryRange.resolve_all {length : Nat} (positive : 0 < length) :
    (span (some 1) (some length)).resolve length = .ok (1, length) := by
  unfold resolve span
  dsimp only [Option.getD_some]
  rw [if_neg (by omega), if_neg (by omega), if_neg (by omega)]

private theorem History.replay_all {history : History} (filled : history.entries ≠ []) :
    history.replay (.span (some 1) (some history.length)) = .ok (joined history.entries) := by
  have selected : (history.entries.take history.length).drop (1 - 1) = history.entries := List.take_length
  have positive : 0 < history.length := List.length_pos_iff.mpr filled
  unfold replay
  rw [HistoryRange.resolve_all positive]
  exact congrArg (fun lines => Except.ok (joined lines)) selected

namespace Repl

variable {σ : Type} {repl : Repl σ}

private theorem handleLine_replayAll (fresh : repl.buffer = "") (filled : repl.history.entries ≠ [])
    (counts : repl.history.length ≤ Text.maxCount) (environment : Environment) :
    repl.handleLine environment (":1-" ++ toString repl.history.length) =
      (.ok (.message ("replay history " ++ Text.threeDigits 1 ++ " - " ++
        Text.threeDigits repl.history.length ++ ":") ::
        (repl.feedText (joined repl.history.entries).toList).1),
        (repl.feedText (joined repl.history.entries).toList).2) := by
  have positive : 0 < repl.history.length := List.length_pos_iff.mpr filled
  have isCommand : repl.command? ⟨environment, ":1-" ++ toString repl.history.length⟩ =
      some (.ok (.replay (.span (some 1) (some repl.history.length)))) := by
    have text : ":1-" ++ toString repl.history.length = ":" ++ toString 1 ++ "-" ++ toString repl.history.length :=
      congrArg (· ++ toString repl.history.length) (by decide)
    rw [command?, repl.isContinuing_eq_false.mpr fresh, if_neg Bool.false_ne_true, text]
    exact Command.parse?_replay environment.home (Nat.le_trans positive counts) counts
  have resolved := HistoryRange.resolve_all positive
  have source := History.replay_all filled
  have handled := handleLine_command isCommand
  rwa [runCommand, replay, resolved, source] at handled

/-- Replaying the whole history evaluates the statements again that have been evaluated before, in the same order, with
nothing lost in between; and the history then holds all of its lines twice. The evaluator has been called with just
these statements, and the replay calls it with each of them again. -/
theorem replay_history (config : ReplConfig) (evaluator : Evaluator σ) (state : σ) (calls : List Call)
    (unlimited : config.historyLimit = none) (lines : ∀ call ∈ calls, IsTypedLine call.line)
    (source : ∀ before call after, calls = before ++ call :: after →
      ((start config evaluator state).behind before).command? call = none)
    (closed : ((start config evaluator state).behind calls).buffer = "")
    (nonempty : evaluated ((start config evaluator state).handleCalls calls).1 ≠ [])
    (counts : ((start config evaluator state).behind calls).history.length ≤ Text.maxCount) (environment : Environment) :
    let session := (start config evaluator state).behind calls
    ∃ banner events after, session.handleLine environment (":1-" ++ toString session.history.length) =
        (.ok (.message banner :: events), after) ∧
      (∀ event ∈ events, event.isLoss = false) ∧
      events.filterMap (·.evaluation?) = evaluated ((start config evaluator state).handleCalls calls).1 ∧
      after.history.entries = session.history.entries ++ session.history.entries ∧
      let evaluations := evaluated ((start config evaluator state).handleCalls calls).1
      (start config evaluator.logged (state, [])).behind calls = session.withLog evaluations ∧
        (session.withLog evaluations).handleLine environment (":1-" ++ toString session.history.length) =
          (.ok (.message banner :: events), after.withLog (evaluations ++ evaluations)) := by
  intro session
  have holds : (start config evaluator state).Holds [] := holds_nil rfl
  obtain ⟨statements, left, gathers⟩ := handleCalls_gathers holds .fresh calls source
  have isLines : ∀ written ∈ statements, ∀ line ∈ written.lines, IsTypedLine line := by
    intro written mem line inside
    obtain ⟨call, isCall, rfl⟩ := List.mem_map.mp (gathers.given line (.inr ⟨written, mem, inside⟩))
    exact lines call isCall
  have begun : statements ≠ [] := by
    rintro rfl
    exact nonempty gathers.evaluations
  -- The history holds the lines of the statements.
  have entries : session.history.entries = statements.flatMap (·.lines) := by
    have recorded := recordAll_lines (show (start config evaluator state).history.limit = none from unlimited)
      gathers.closes isLines
    rwa [← gathers.history] at recorded
  obtain ⟨events, after, fed, evaluates⟩ :=
    feedText_evaluates gathers.closes isLines (congrArg ReplConfig.limits gathers.config)
    closed
  have filled : session.history.entries ≠ [] := by
    obtain ⟨written, isFirst⟩ := List.exists_mem_of_ne_nil statements begun
    obtain ⟨line, inside⟩ := List.exists_mem_of_ne_nil written.lines (gathers.closes written isFirst).nonempty
    rw [entries]
    exact List.ne_nil_of_mem (List.mem_flatMap.mpr ⟨written, isFirst, inside⟩)
  have handled := handleLine_replayAll closed filled counts environment
  rw [entries, fed] at handled
  refine ⟨_, events, after, handled, evaluates.harmless, evaluates.evaluations.trans gathers.evaluations.symm, ?_,
    behind_logs _ [] calls source, ?_⟩
  · have recorded := recordAll_lines (show session.history.limit = none by
      rw [show session.history = _ from gathers.history, History.recordAll_limit]; exact unlimited)
        gathers.closes isLines
    rw [← evaluates.history] at recorded
    rw [recorded, entries]
  · -- The session with the list of the calls has the same history and the same buffer.
    have logged := @handleLine_replayAll _
      (session.withLog (evaluated ((start config evaluator state).handleCalls calls).1))
      closed filled counts environment
    rw [show (session.withLog _).history = session.history from rfl, entries,
      (session.feedText_logs _ _).1, fed] at logged
    rw [evaluates.evaluations, ← gathers.evaluations] at logged
    exact logged

/-- A call that is written over several lines, with a blank one among them, a comment and a definition. -/
theorem replay_history_call :
    let config : ReplConfig := { historyLimit := none }
    let calls := ["f(", "", "`a", ":b`)", "// c", "y := 1"].map Call.ofLine
    let session := (start config Evaluator.echo ()).behind calls
    ∃ banner events after, session.handleLine (Call.ofLine "").environment (":1-" ++ toString session.history.length) =
        (.ok (.message banner :: events), after) ∧
      (∀ event ∈ events, event.isLoss = false) ∧
      events.filterMap (·.evaluation?) = evaluated ((start config Evaluator.echo ()).handleCalls calls).1 ∧
      after.history.entries = session.history.entries ++ session.history.entries ∧
      let evaluations := evaluated ((start config Evaluator.echo ()).handleCalls calls).1
      (start config Evaluator.echo.logged ((), [])).behind calls = session.withLog evaluations ∧
        (session.withLog evaluations).handleLine (Call.ofLine "").environment
          (":1-" ++ toString session.history.length) =
          (.ok (.message banner :: events), after.withLog (evaluations ++ evaluations)) := by
  intro config calls
  have source : ∀ before call after, calls = before ++ call :: after →
      ((start config Evaluator.echo ()).behind before).command? call = none := by
    have none : (List.range calls.length).all (fun number => calls[number]?.all fun call =>
        (((start config Evaluator.echo ()).behind (calls.take number)).command? call).isNone) =
        true := by decide +kernel
    intro before call after splits
    have here := List.all_eq_true.mp none before.length (by simp [splits])
    rw [splits] at here
    simpa using here
  have lines : ∀ call ∈ calls, '\n' ∉ call.line.toList ∧ call.line.toList.getLast? ≠ some '\r' := by decide +kernel
  refine replay_history config Evaluator.echo () calls rfl
    (fun call mem => ⟨(lines call mem).1, (lines call mem).2⟩) source
    ?_ ?_ ?_ (Call.ofLine "").environment
  · decide +kernel
  · decide +kernel
  · decide +kernel

end Repl

end GoPrompt
