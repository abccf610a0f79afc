import GoPrompt.Proofs.Session.Evaluations

/-! What holds of a session however it has been used: no statement is open for nothing, the evaluator is given
complete statements only, and the history holds their last lines, as many as there is room for. -/

namespace GoPrompt

/-- The last entries, as many as the limit allows. -/
def latest (limit : Option Nat) (entries : List String) : List String :=
  match limit with
  | some most => entries.drop (entries.length - most)
  | none => entries

theorem latest_length_le {limit : Option Nat} {most : Nat} (bounded : limit = some most) (entries : List String) :
    (latest limit entries).length ≤ most := by
  subst bounded
  simp only [latest, List.length_drop]
  omega

private theorem latest_append (limit : Option Nat) (entries more : List String) :
    latest limit (latest limit entries ++ more) = latest limit (entries ++ more) := by
  cases limit with
  | none => rfl
  | some most =>
    simp only [latest]
    have dropped : (entries ++ more).drop (entries.length - most) = entries.drop (entries.length - most) ++ more :=
      List.drop_append_of_le_length (Nat.sub_le _ _)
    rw [← dropped, List.drop_drop]
    congr 1
    simp only [List.length_drop, List.length_append]
    omega

namespace History

theorem record_entries (history : History) (source : String) :
    (history.record source).entries = latest history.limit (history.entries ++ recordedLines source) := by
  unfold record trim
  cases history.limit <;> rfl

@[simp] theorem record_limit (history : History) (source : String) : (history.record source).limit = history.limit := by
  unfold record trim
  cases history.limit <;> rfl

def recordAll (history : History) (evaluations : Evaluations) : History :=
  evaluations.foldl (fun history evaluation => history.record evaluation.1) history

@[simp] theorem recordAll_limit (history : History) (evaluations : Evaluations) :
    (history.recordAll evaluations).limit = history.limit := by
  induction evaluations generalizing history with
  | nil => rfl
  | cons evaluation rest ih => exact (ih _).trans (history.record_limit _)

theorem recordAll_entries {history : History} {entries : List String}
    (start : history.entries = latest history.limit entries) (evaluations : Evaluations) :
    (history.recordAll evaluations).entries =
      latest history.limit (entries ++ evaluations.flatMap fun evaluation => recordedLines evaluation.1) := by
  induction evaluations generalizing history entries with
  | nil => simpa [recordAll] using start
  | cons evaluation rest ih =>
    have recorded : (history.record evaluation.1).entries =
        latest (history.record evaluation.1).limit (entries ++ recordedLines evaluation.1) := by
      rw [record_entries, record_limit, start, latest_append]
    have later := ih recorded
    rw [record_limit, List.append_assoc] at later
    exact later

private theorem recordAll_length_le {history : History} {most : Nat} (limited : history.limit = some most)
    (bounded : history.length ≤ most) (evaluations : Evaluations) : (history.recordAll evaluations).length ≤ most := by
  have start : history.entries = latest history.limit history.entries := by
    rw [limited, latest, show history.entries.length - most = 0 from Nat.sub_eq_zero_of_le bounded, List.drop_zero]
  rw [length, recordAll_entries start]
  exact latest_length_le limited _

end History

private theorem HistoryRange.resolve_ordered (range : HistoryRange) {length : Nat} {bounds : Nat × Nat}
    (resolved : range.resolve length = .ok bounds) : bounds.1 ≤ bounds.2 := by
  unfold resolve at resolved
  dsimp only at resolved
  split at resolved
  next => cases resolved
  next =>
    split at resolved
    next => cases resolved
    next =>
      split at resolved
      next => cases resolved
      next ordered =>
        obtain rfl := Except.ok.inj resolved
        exact Nat.le_of_not_lt ordered

namespace Repl

variable {σ : Type}

/-- Whether a line takes entries out of the history where it arrives. -/
def Forgets (repl : Repl σ) (call : Call) : Prop :=
  (∃ range, repl.command? call = some (.ok (.remove range))) ∨ repl.command? call = some (.ok .reset)

/-- What a session with the given budgets and history limit never loses. -/
structure Sound (limits : Limits) (limit : Option Nat) (repl : Repl σ) : Prop where
  limits : repl.config.limits = limits
  limited : repl.history.limit = limit
  bounded : ∀ most, limit = some most → repl.history.length ≤ most
  isOpen : repl.IsOpen

/-- What a line does to a session, and to the list of the calls to the evaluator. -/
structure Handles (limits : Limits) (limit : Option Nat) (repl : Repl σ) (call : Call)
    (log evaluations : Evaluations) : Prop where
  logs : ((repl.withLog log).handleLine call.environment call.line).2 =
    (repl.handleLine call.environment call.line).2.withLog (log ++ evaluations)
  statements : ∀ evaluation ∈ evaluations, IsStatement limits evaluation.1 evaluation.2
  sound : (repl.handleLine call.environment call.line).2.Sound limits limit
  history : ¬ repl.Forgets call → (repl.handleLine call.environment call.line).2.history =
    repl.history.recordAll evaluations

section

variable {limits : Limits} {limit : Option Nat} {repl after : Repl σ} {call : Call} {command : Command}

theorem Feeds.sound {evaluations : Evaluations} (feeds : repl.Feeds after evaluations) (sound : repl.Sound limits limit) :
    after.Sound limits limit where
  limits := by rw [feeds.config, sound.limits]
  limited := by rw [show after.history = repl.history.recordAll evaluations from feeds.history,
    History.recordAll_limit, sound.limited]
  bounded most isLimit := by
    rw [show after.history = repl.history.recordAll evaluations from feeds.history]
    exact History.recordAll_length_le (sound.limited.trans isLimit) (sound.bounded most isLimit) evaluations
  isOpen := feeds.isOpen sound.isOpen

private theorem Logs.handles (sound : repl.Sound limits limit) (log : Evaluations)
    (logs : ∃ evaluations, repl.Logs log evaluations ((repl.withLog log).handleLine call.environment call.line)
      (repl.handleLine call.environment call.line)) :
    ∃ evaluations, repl.Handles limits limit call log evaluations := by
  obtain ⟨evaluations, same, feeds⟩ := logs
  refine ⟨evaluations, congrArg Prod.snd same, ?_, feeds.sound sound, fun _ => feeds.history⟩
  rw [← sound.limits]
  exact feeds.statements

private theorem handles_of_idle (isCommand : repl.command? call = some (.ok command)) (log : Evaluations)
    (same : ((repl.withLog log).runCommand call.environment command).2 =
      (repl.runCommand call.environment command).2.withLog log)
    (sound : (repl.runCommand call.environment command).2.Sound limits limit)
    (history : ¬ repl.Forgets call → (repl.runCommand call.environment command).2.history = repl.history) :
    repl.Handles limits limit call log [] := by
  have isCommand' : (repl.withLog log).command? call = some (.ok command) := isCommand
  refine ⟨?_, nofun, ?_, ?_⟩
  · rw [handleLine_command isCommand, handleLine_command isCommand', List.append_nil]
    exact same
  · rw [handleLine_command isCommand]
    exact sound
  · rw [handleLine_command isCommand]
    exact history

private theorem remove_sound {range : HistoryRange} (fresh : repl.buffer = "") (sound : repl.Sound limits limit) :
    (repl.remove range).2.Sound limits limit := by
  unfold remove History.remove
  cases resolved : range.resolve repl.history.length with
  | error => exact sound
  | ok bounds =>
    refine ⟨sound.limits, sound.limited, fun most isLimit => ?_, .inl fresh⟩
    have bounded := sound.bounded most isLimit
    have ordered := range.resolve_ordered resolved
    simp only [pure, Except.pure, bind, Except.bind, History.length, List.length_append, List.length_take,
      List.length_drop] at bounded ⊢
    omega

private theorem handleLine_handles (sound : repl.Sound limits limit) (call : Call) (log : Evaluations) :
    ∃ evaluations, repl.Handles limits limit call log evaluations := by
  cases isCommand : repl.command? call with
  | none =>
    have isCommand' : (repl.withLog log).command? call = none := isCommand
    refine Logs.handles sound log ?_
    obtain ⟨same, feeds⟩ := repl.acceptLine_logs log call.line
    rw [handleLine_source isCommand, handleLine_source isCommand', same]
    exact ⟨_, rfl, feeds⟩
  | some result =>
    cases result with
    | error misspelt =>
      have isCommand' : (repl.withLog log).command? call = some (.error misspelt) := isCommand
      refine Logs.handles sound log ?_
      rw [handleLine_misspelt isCommand, handleLine_misspelt isCommand']
      exact ⟨[], .idle rfl (.refl repl)⟩
    | ok command =>
      have isCommand' : (repl.withLog log).command? call = some (.ok command) := isCommand
      have fresh := fresh_of_command? isCommand
      cases command with
      | help | showHistory | exit => exact ⟨[], handles_of_idle isCommand log rfl sound fun _ => rfl⟩
      | setVerbosity level =>
        refine ⟨[], handles_of_idle isCommand log rfl ?_ fun _ => rfl⟩
        exact ⟨sound.limits, sound.limited, sound.bounded, .inl fresh⟩
      | reset =>
        refine ⟨[], handles_of_idle isCommand log rfl ?_ fun keeps => absurd (.inr isCommand) keeps⟩
        exact ⟨sound.limits, sound.limited, fun most _ => Nat.zero_le most, .inl fresh⟩
      | remove range =>
        refine ⟨[], handles_of_idle isCommand log ?_ (remove_sound fresh sound) fun keeps =>
          absurd (.inl ⟨range, isCommand⟩) keeps⟩
        simp only [runCommand, remove]
        rw [show (repl.withLog log).history = repl.history from rfl]
        cases repl.history.remove range <;> rfl
      | replay range =>
        refine Logs.handles sound log ?_
        rw [handleLine_command isCommand, handleLine_command isCommand']
        exact repl.replay_logs log range
      | source paths =>
        refine Logs.handles sound log ?_
        rw [handleLine_command isCommand, handleLine_command isCommand']
        exact sourceFiles_logs call.environment repl log paths

private theorem sourceFiles_fresh (environment : Environment) {repl : Repl σ} (fresh : repl.buffer = "")
    (paths : List String) :
    (repl.sourceFiles environment paths).2.buffer = "" := by
  induction paths generalizing repl with
  | nil => exact fresh
  | cons path rest ih =>
    unfold sourceFiles
    split
    next => exact fresh
    next text _ =>
      have later := ih (repl.feedText_fresh (stripPackageClause text))
      dsimp only
      exact later

private theorem command_fresh (isCommand : repl.command? call ≠ none) :
    (repl.handleLine call.environment call.line).2.buffer = "" := by
  cases result : repl.command? call with
  | none => exact absurd result isCommand
  | some result' =>
    have fresh := fresh_of_command? result
    cases result' with
    | error misspelt =>
      rw [handleLine_misspelt result]
      exact fresh
    | ok command =>
      rw [handleLine_command result]
      cases command with
      | help | showHistory | exit | setVerbosity | reset => exact fresh
      | remove range =>
        simp only [runCommand, remove]
        split <;> exact fresh
      | replay range =>
        simp only [runCommand, replay]
        split
        next => exact feedText_fresh _ _
        next => exact fresh
        next => exact fresh
      | source paths =>
        simp only [runCommand]
        exact sourceFiles_fresh call.environment fresh paths

end

private theorem behind_handles {limits : Limits} {limit : Option Nat} {repl : Repl σ} (sound : repl.Sound limits limit)
    (calls : List Call) (log : Evaluations) : ∃ evaluations,
      (repl.withLog log).behind calls = (repl.behind calls).withLog (log ++ evaluations) ∧
      (∀ evaluation ∈ evaluations, IsStatement limits evaluation.1 evaluation.2) ∧
      (repl.behind calls).Sound limits limit ∧
      ((∀ before call after, calls = before ++ call :: after → ¬ (repl.behind before).Forgets call) →
        (repl.behind calls).history = repl.history.recordAll evaluations) := by
  induction calls generalizing repl log with
  | nil => exact ⟨[], by rw [List.append_nil]; rfl, nofun, sound, fun _ => rfl⟩
  | cons call rest ih =>
    obtain ⟨evaluations, handles⟩ := handleLine_handles sound call log
    obtain ⟨later, same, statements, sound', history⟩ := ih handles.sound (log ++ evaluations)
    refine ⟨evaluations ++ later, ?_, ?_, sound', fun keeps => ?_⟩
    · rw [behind_cons, behind_cons, handles.logs, same, List.append_assoc]
    · intro evaluation mem
      exact (List.mem_append.mp mem).elim (handles.statements evaluation) (statements evaluation)
    · rw [behind_cons, history fun before next after splits => ?_, handles.history (keeps [] call rest rfl)]
      · simp only [History.recordAll, List.foldl_append]
      · rw [← behind_cons]
        exact keeps (call :: before) next after (by rw [splits]; rfl)

/-- However a session is used, its buffer is empty or a text that is open for a reason, and empty behind every
command; the history keeps to its limit; the evaluator has only been given complete statements with their
kinds; and as long as nothing is removed from the history, it holds the last lines of those statements. -/
theorem session_invariant (config : ReplConfig) (evaluator : Evaluator σ) (state : σ) (calls : List Call) :
    let session := (start config evaluator state).behind calls
    (session.buffer = "" ∨ ∃ classification reason, classify config.limits session.buffer = .ok classification ∧
      classification.answer = .needMoreInput ∧ classification.pending = some reason ∧ reason ≠ .emptyInput) ∧
    (∀ call, session.command? call ≠ none → (session.handleLine call.environment call.line).2.buffer = "") ∧
    (∀ most, config.historyLimit = some most → session.history.length ≤ most) ∧
    ∃ evaluations, (start config evaluator.logged (state, [])).behind calls = session.withLog evaluations ∧
      (∀ evaluation ∈ evaluations, ∃ classification, classify config.limits evaluation.1 = .ok classification ∧
        classification.answer = .complete ∧ classification.statement = some evaluation.2) ∧
      ((∀ before call after, calls = before ++ call :: after →
          ¬ ((start config evaluator state).behind before).Forgets call) →
        session.history.entries =
          latest config.historyLimit (evaluations.flatMap fun evaluation => History.recordedLines evaluation.1)) := by
  have sound : (start config evaluator state).Sound config.limits config.historyLimit :=
    ⟨rfl, rfl, fun most _ => Nat.zero_le most, .inl rfl⟩
  obtain ⟨evaluations, same, statements, sound', history⟩ := behind_handles sound calls []
  refine ⟨?_, fun _ => command_fresh, sound'.bounded, evaluations, same, statements, fun keeps => ?_⟩
  · rw [← sound'.limits]
    exact sound'.isOpen
  · have start : (start config evaluator state).history.entries = latest config.historyLimit [] := by
      cases limit : config.historyLimit <;> simp [Repl.start, latest]
    rw [history keeps, History.recordAll_entries start, List.nil_append]
    rfl

/-- Of a statement of three lines the history holds two, of which only the first one can be replayed. -/
example :
    let lines := ["x := 1", "if x > 0 \x7b", "x--", "\x7d", ":1-2"]
    let session := (start { historyLimit := some 2 } Evaluator.echo ()).behind
      (lines.map fun line => ⟨⟨none, (⟨[]⟩ : FileTree).read⟩, line⟩)
    session.buffer = "" ∧ session.history.entries = ["\x7d", "x--"] := by
  decide +kernel

end Repl

end GoPrompt
