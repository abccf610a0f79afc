import GoPrompt.Proofs.Session.Lines

/-! The calls that a session makes to its evaluator. Any evaluator can keep a list of its calls, which changes
nothing about the session; what is fed to the session then shows in that list, and in its events. -/

namespace GoPrompt

/-- The statements that an evaluator has been given, with their kinds, the first one first. -/
abbrev Evaluations := List (String × StatementKind)

/-- The statement that an event reports as evaluated. -/
def ReplEvent.evaluation? : ReplEvent → Option (String × StatementKind)
  | .evaluated source kind _ => some (source, kind)
  | _ => none

variable {σ : Type}

/-- An evaluator that also keeps a list of its calls. -/
def Evaluator.logged (evaluator : Evaluator σ) : Evaluator (σ × Evaluations) where
  evaluate source kind state :=
    ((evaluator.evaluate source kind state.1).1,
      ((evaluator.evaluate source kind state.1).2, state.2 ++ [(source, kind)]))

namespace Repl

/-- The session with an evaluator that has kept a list so far. -/
def withLog (repl : Repl σ) (log : Evaluations) : Repl (σ × Evaluations) where
  config := repl.config
  evaluator := repl.evaluator.logged
  evaluatorState := (repl.evaluatorState, log)
  history := repl.history
  buffer := repl.buffer

/-- The buffer is empty, or a text that is open for a reason. -/
def IsOpen (repl : Repl σ) : Prop := repl.buffer = "" ∨ ∃ classification reason,
  classify repl.config.limits repl.buffer = .ok classification ∧ classification.answer = .needMoreInput ∧
    classification.pending = some reason ∧ reason ≠ .emptyInput

/-- Whether a text is a complete statement of the given kind. -/
def IsStatement (limits : Limits) (source : String) (kind : StatementKind) : Prop := ∃ classification,
  classify limits source = .ok classification ∧ classification.answer = .complete ∧ classification.statement = some kind

/-- What source text does to a session: complete statements are evaluated and recorded, in order. -/
structure Feeds (repl after : Repl σ) (evaluations : Evaluations) : Prop where
  config : after.config = repl.config
  statements : ∀ evaluation ∈ evaluations, IsStatement repl.config.limits evaluation.1 evaluation.2
  history : after.history = evaluations.foldl (fun history evaluation => history.record evaluation.1) repl.history
  isOpen : repl.IsOpen → after.IsOpen

theorem Feeds.refl (repl : Repl σ) : repl.Feeds repl [] := ⟨rfl, nofun, rfl, id⟩

theorem Feeds.trans {first second third : Repl σ} {evaluations later : Evaluations}
    (before : first.Feeds second evaluations) (after : second.Feeds third later) :
    first.Feeds third (evaluations ++ later) where
  config := after.config.trans before.config
  statements evaluation mem := by
    rcases List.mem_append.mp mem with mem | mem
    · exact before.statements evaluation mem
    · rw [← before.config]
      exact after.statements evaluation mem
  history := by rw [List.foldl_append, ← before.history, after.history]
  isOpen := after.isOpen ∘ before.isOpen

private theorem feeds_setBuffer (repl : Repl σ) : repl.Feeds (repl.setBuffer "") [] :=
  ⟨rfl, nofun, rfl, fun _ => .inl rfl⟩

/-- What is fed to a session that keeps a list is evaluated like in any other session, and shows in the list. -/
def Logs {α : Type} (repl : Repl σ) (log evaluations : Evaluations) (logged : α × Repl (σ × Evaluations))
    (answer : α × Repl σ) : Prop :=
  logged = (answer.1, answer.2.withLog (log ++ evaluations)) ∧ repl.Feeds answer.2 evaluations

theorem Logs.idle {α : Type} {repl after : Repl σ} {log : Evaluations} {logged : α × Repl (σ × Evaluations)}
    {answer : α} (same : logged = (answer, after.withLog log)) (feeds : repl.Feeds after []) :
    repl.Logs log [] logged (answer, after) :=
  ⟨by rw [List.append_nil, same], feeds⟩

/-- The events of a line show what the evaluator is given. -/
theorem acceptLine_logs (repl : Repl σ) (log : Evaluations) (line : String) :
    repl.Logs log ((repl.acceptLine line).1.toList.filterMap (·.evaluation?)) ((repl.withLog log).acceptLine line)
      (repl.acceptLine line) := by
  have accepts := repl.acceptLine_accepts line
  rcases accepted : repl.acceptLine line with ⟨event, after⟩
  rw [accepted] at accepts
  cases accepts with
  | skipped blank =>
    exact .idle (Accepts.skipped blank : (after.withLog log).Accepts line none _).acceptLine_eq (.refl after)
  | dropped takes classified wanting empty =>
    exact .idle (Accepts.dropped takes classified wanting empty : (repl.withLog log).Accepts line none _).acceptLine_eq
      repl.feeds_setBuffer
  | waiting takes classified wanting begun =>
    refine .idle (Accepts.waiting takes classified wanting begun : (repl.withLog log).Accepts line _ _).acceptLine_eq
      ⟨rfl, nofun, rfl, fun _ => .inr ?_⟩
    obtain ⟨reason, pending⟩ := pending_of_needMoreInput classified wanting
    refine ⟨_, reason, classified, wanting, pending, ?_⟩
    rintro rfl
    exact begun pending
  | rejected takes classified wrong =>
    exact .idle (Accepts.rejected takes classified wrong : (repl.withLog log).Accepts line _ _).acceptLine_eq
      repl.feeds_setBuffer
  | unclassified takes failed =>
    exact .idle (Accepts.unclassified takes failed : (repl.withLog log).Accepts line _ _).acceptLine_eq
      repl.feeds_setBuffer
  | @evaluated classification takes classified complete =>
    obtain ⟨kind, isKind⟩ := statement_of_complete classified complete
    refine ⟨(Accepts.evaluated takes classified complete : (repl.withLog log).Accepts line _ _).acceptLine_eq,
      rfl, ?_, rfl, fun _ => .inl rfl⟩
    intro evaluation mem
    obtain rfl := List.mem_singleton.mp mem
    exact ⟨classification, classified, complete, by rw [isKind, Option.getD_some]⟩

private theorem acceptLines_logs (repl : Repl σ) (log : Evaluations) (lines : List String) :
    repl.Logs log ((repl.acceptLines lines).1.filterMap (·.evaluation?)) ((repl.withLog log).acceptLines lines)
      (repl.acceptLines lines) := by
  induction lines generalizing repl log with
  | nil => exact .idle rfl (.refl repl)
  | cons line rest ih =>
    obtain ⟨same, feeds⟩ := repl.acceptLine_logs log line
    obtain ⟨same', feeds'⟩ :=
      ih (repl.acceptLine line).2 (log ++ (repl.acceptLine line).1.toList.filterMap (·.evaluation?))
    simp only [Logs, acceptLines, same, same', List.filterMap_append, List.append_assoc]
    exact ⟨trivial, feeds.trans feeds'⟩

theorem feedText_fresh (repl : Repl σ) (text : List Char) : (repl.feedText text).2.buffer = "" := by
  unfold feedText
  dsimp only
  split
  next => rfl
  next fresh => exact (isContinuing_eq_false _).mp (Bool.eq_false_iff.mpr fresh)

theorem feedText_logs (repl : Repl σ) (log : Evaluations) (text : List Char) :
    repl.Logs log ((repl.feedText text).1.filterMap (·.evaluation?)) ((repl.withLog log).feedText text)
      (repl.feedText text) := by
  obtain ⟨same, feeds⟩ := repl.acceptLines_logs log ((Text.lines text).map String.ofList)
  unfold feedText
  rw [same]
  generalize repl.acceptLines ((Text.lines text).map String.ofList) = answer at feeds ⊢
  rcases answer with ⟨events, after⟩
  dsimp only
  by_cases continuing : after.isContinuing = true
  · rw [if_pos continuing, if_pos (show (after.withLog _).isContinuing = true from continuing)]
    have closed := feeds.trans (feeds_setBuffer after)
    rw [List.append_nil] at closed
    rw [List.filterMap_append, show [ReplEvent.unfinished after.buffer].filterMap (·.evaluation?) =
      [] from rfl, List.append_nil]
    exact ⟨rfl, closed⟩
  · rw [if_neg continuing, if_neg (show ¬ (after.withLog _).isContinuing = true from continuing)]
    exact ⟨rfl, feeds⟩

theorem replay_logs (repl : Repl σ) (log : Evaluations) (range : HistoryRange) :
    ∃ evaluations, repl.Logs log evaluations ((repl.withLog log).replay range) (repl.replay range) := by
  have history : (repl.withLog log).history = repl.history := rfl
  unfold replay
  rw [history]
  split
  next start stop source _ _ =>
    obtain ⟨same, feeds⟩ := repl.feedText_logs log source.toList
    exact ⟨_, by simp only [same], feeds⟩
  next => exact ⟨[], .idle rfl (.refl repl)⟩
  next => exact ⟨[], .idle rfl (.refl repl)⟩

theorem sourceFiles_logs (environment : Environment) (repl : Repl σ) (log : Evaluations) (paths : List String) :
    ∃ evaluations, repl.Logs log evaluations ((repl.withLog log).sourceFiles environment paths)
      (repl.sourceFiles environment paths) := by
  induction paths generalizing repl log with
  | nil => exact ⟨[], .idle rfl (.refl repl)⟩
  | cons path rest ih =>
    unfold sourceFiles
    split
    next => exact ⟨[], .idle rfl (.refl repl)⟩
    next text _ =>
      obtain ⟨same, feeds⟩ := repl.feedText_logs log (stripPackageClause text)
      obtain ⟨later, same', feeds'⟩ := ih (repl.feedText (stripPackageClause text)).2
        (log ++ (repl.feedText (stripPackageClause text)).1.filterMap (·.evaluation?))
      refine ⟨_, ?_, feeds.trans feeds'⟩
      simp only [same, same', List.append_assoc]

end Repl

end GoPrompt
