import GoPrompt.Proofs.Classification.Answers
import GoPrompt.Repl.Session

/-! One line of source text in a session: everything that it can come to, and what every one of these leaves
as it is. -/

namespace GoPrompt

/-- One line of input, with what the session finds around it at that moment. -/
structure Call where
  environment : Environment
  line : String

namespace Repl

variable {σ : Type}

def extended (repl : Repl σ) (line : String) : String :=
  if repl.isContinuing then repl.buffer ++ "\n" ++ line else line

/-- Whether a line belongs to a statement: it is not a blank one in front of it. -/
def Takes (repl : Repl σ) (line : String) : Prop :=
  repl.isContinuing = true ∨ (Text.trim line.toList).isEmpty = false

/-- What a line of source text comes to. -/
inductive Accepts (repl : Repl σ) (line : String) : Option ReplEvent → Repl σ → Prop
  | skipped (blank : ¬ repl.Takes line) : Accepts repl line none repl
  | dropped {classification : Classification} (takes : repl.Takes line)
      (classified : classify repl.config.limits (repl.extended line) = .ok classification)
      (wanting : classification.answer = .needMoreInput) (empty : classification.pending = some .emptyInput) :
      Accepts repl line none (repl.setBuffer "")
  | waiting {classification : Classification} (takes : repl.Takes line)
      (classified : classify repl.config.limits (repl.extended line) = .ok classification)
      (wanting : classification.answer = .needMoreInput) (begun : classification.pending ≠ some .emptyInput) :
      Accepts repl line (some (.needMoreInput classification.pending)) (repl.setBuffer (repl.extended line))
  | rejected {classification : Classification} (takes : repl.Takes line)
      (classified : classify repl.config.limits (repl.extended line) = .ok classification)
      (wrong : classification.answer = .syntaxError) :
      Accepts repl line (some (.syntaxError (repl.extended line) (repl.syntaxErrorText classification.diagnostics)))
        (repl.setBuffer "")
  | unclassified {error : ClassifyError} (takes : repl.Takes line)
      (failed : classify repl.config.limits (repl.extended line) = .error error) :
      Accepts repl line (some (.fault (repl.extended line) error)) (repl.setBuffer "")
  | evaluated {classification : Classification} (takes : repl.Takes line)
      (classified : classify repl.config.limits (repl.extended line) = .ok classification)
      (complete : classification.answer = .complete) :
      Accepts repl line (some ((repl.setBuffer "").evaluate (repl.extended line) classification).1)
        ((repl.setBuffer "").evaluate (repl.extended line) classification).2

/-- What a line comes to when it is classified, behind the buffer. -/
def judge (repl : Repl σ) (line : String) : Option ReplEvent × Repl σ :=
  match classify repl.config.limits (repl.extended line) with
  | .error error => (some (.fault (repl.extended line) error), repl.setBuffer "")
  | .ok classification =>
    match classification.answer with
    | .needMoreInput =>
      if classification.pending = some .emptyInput then (none, repl.setBuffer "")
      else (some (.needMoreInput classification.pending), repl.setBuffer (repl.extended line))
    | .syntaxError =>
      (some (.syntaxError (repl.extended line) (repl.syntaxErrorText classification.diagnostics)), repl.setBuffer "")
    | .complete =>
      (some ((repl.setBuffer "").evaluate (repl.extended line) classification).1,
        ((repl.setBuffer "").evaluate (repl.extended line) classification).2)

private theorem acceptLine_takes {repl : Repl σ} {line : String} (takes : repl.Takes line) :
    repl.acceptLine line = repl.judge line := by
  have written : ¬ (!repl.isContinuing && (Text.trim line.toList).isEmpty) = true := by
    rcases takes with continuing | nonblank <;> simp_all
  unfold acceptLine
  rw [if_neg written]
  rfl

theorem acceptLine_blank {repl : Repl σ} {line : String} (blank : ¬ repl.Takes line) :
    repl.acceptLine line = (none, repl) := by
  have empty : (!repl.isContinuing && (Text.trim line.toList).isEmpty) = true := by
    simpa [Takes] using blank
  unfold acceptLine
  rw [if_pos empty]

theorem acceptLine_accepts (repl : Repl σ) (line : String) :
    repl.Accepts line (repl.acceptLine line).1 (repl.acceptLine line).2 := by
  by_cases takes : repl.Takes line
  · rw [acceptLine_takes takes, judge]
    cases classified : classify repl.config.limits (repl.extended line) with
    | error error => exact .unclassified takes classified
    | ok classification =>
      dsimp only
      cases answer : classification.answer with
      | needMoreInput =>
        dsimp only
        by_cases empty : classification.pending = some .emptyInput
        · rw [if_pos empty]
          exact .dropped takes classified answer empty
        · rw [if_neg empty]
          exact .waiting takes classified answer empty
      | syntaxError => exact .rejected takes classified answer
      | complete => exact .evaluated takes classified answer
  · rw [acceptLine_blank takes]
    exact .skipped takes

theorem Accepts.acceptLine_eq {repl after : Repl σ} {line : String} {event : Option ReplEvent}
    (accepts : repl.Accepts line event after) : repl.acceptLine line = (event, after) := by
  cases accepts with
  | skipped blank => exact acceptLine_blank blank
  | dropped takes classified wanting empty =>
      simp only [acceptLine_takes takes, judge, classified, wanting, empty, ↓reduceIte]
  | waiting takes classified wanting begun =>
      simp only [acceptLine_takes takes, judge, classified, wanting, begun, ↓reduceIte]
  | rejected takes classified wrong => simp only [acceptLine_takes takes, judge, classified, wrong]
  | unclassified takes failed => simp only [acceptLine_takes takes, judge, failed]
  | evaluated takes classified complete => simp only [acceptLine_takes takes, judge, classified, complete]

theorem isContinuing_iff (repl : Repl σ) : repl.isContinuing = true ↔ repl.buffer ≠ "" := by
  simp [isContinuing]

theorem isContinuing_eq_false (repl : Repl σ) : repl.isContinuing = false ↔ repl.buffer = "" := by
  simp [isContinuing]

/-- The buffer of an open statement is never taken for a fresh prompt. -/
theorem Takes.extended_ne_empty {repl : Repl σ} {line : String} (takes : repl.Takes line) :
    repl.extended line ≠ "" := by
  unfold extended
  split
  next continuing =>
    intro empty
    have := congrArg String.toList empty
    simp at this
  next fresh =>
    rintro rfl
    simp [Takes, fresh, Text.trim, Text.trimStart, Text.trimEnd] at takes

/-- Handles lines one after the other, and answers what each of them comes to. -/
def handleCalls (repl : Repl σ) : List Call → List (Except ReplError (List ReplEvent)) × Repl σ
  | [] => ([], repl)
  | call :: rest =>
    let (answer, after) := repl.handleLine call.environment call.line
    let (later, last) := after.handleCalls rest
    (answer :: later, last)

def behind (repl : Repl σ) (calls : List Call) : Repl σ := (repl.handleCalls calls).2

@[simp] theorem behind_cons (repl : Repl σ) (call : Call) (calls : List Call) :
    repl.behind (call :: calls) = (repl.handleLine call.environment call.line).2.behind calls := rfl

/-- The command that a line is where it arrives, if it is one. -/
def command? (repl : Repl σ) (call : Call) : Option (Except CommandError Command) :=
  if repl.isContinuing then none else Command.parse? call.environment.home call.line

theorem handleLine_source {repl : Repl σ} {call : Call} (noCommand : repl.command? call = none) :
    repl.handleLine call.environment call.line =
      (.ok (repl.acceptLine call.line).1.toList, (repl.acceptLine call.line).2) := by
  unfold handleLine
  rw [show (if repl.isContinuing = true then none
    else Command.parse? call.environment.home call.line) = none from noCommand]

theorem handleLine_command {repl : Repl σ} {call : Call} {command : Command}
    (isCommand : repl.command? call = some (.ok command)) :
    repl.handleLine call.environment call.line = repl.runCommand call.environment command := by
  unfold handleLine
  rw [show (if repl.isContinuing = true then none
    else Command.parse? call.environment.home call.line) = some (.ok command)
    from isCommand]

theorem handleLine_misspelt {repl : Repl σ} {call : Call} {error : CommandError}
    (misspelt : repl.command? call = some (.error error)) :
    repl.handleLine call.environment call.line = (.error (.command error), repl) := by
  unfold handleLine
  rw [show (if repl.isContinuing = true then none
    else Command.parse? call.environment.home call.line) = some (.error error)
    from misspelt]

theorem fresh_of_command? {repl : Repl σ} {call : Call} {result : Except CommandError Command}
    (isCommand : repl.command? call = some result) : repl.buffer = "" := by
  unfold command? at isCommand
  split at isCommand
  next => cases isCommand
  next fresh => exact repl.isContinuing_eq_false.mp (Bool.eq_false_iff.mpr fresh)

end Repl

end GoPrompt
