import GoPrompt.Proofs.Session.Lines

/-! What a failed line leaves behind. Every command looks for what can go wrong before it does anything, except
that a list of files is read one file after the other: the files in front of the first one that cannot be
read are evaluated by then. -/

namespace GoPrompt.Repl

variable {σ : Type}

private theorem replay_failed {repl after : Repl σ} {range : HistoryRange} {error : ReplError}
    (failed : repl.replay range = (.error error, after)) : after = repl := by
  unfold replay at failed
  split at failed
  next => cases failed
  next => exact (Prod.mk.inj failed).2.symm
  next => exact (Prod.mk.inj failed).2.symm

private theorem remove_failed {repl after : Repl σ} {range : HistoryRange} {error : ReplError}
    (failed : repl.remove range = (.error error, after)) : after = repl := by
  unfold remove at failed
  split at failed
  next => exact (Prod.mk.inj failed).2.symm
  next => cases failed

/-- The files up to one that cannot be read are fed to the session as if they had been listed alone. -/
private theorem sourceFiles_failed {environment : Environment} {repl after : Repl σ} {paths : List String}
    {error : ReplError} (failed : repl.sourceFiles environment paths = (.error error, after)) :
    ∃ read path rest reason events, paths = read ++ path :: rest ∧ error = .source path reason ∧
      environment.files.readText path = .error reason ∧ repl.sourceFiles environment read = (.ok events, after) := by
  induction paths generalizing repl with
  | nil => cases failed
  | cons path rest ih =>
    unfold sourceFiles at failed
    split at failed
    next reason unreadable =>
      obtain ⟨isError, rfl⟩ := Prod.mk.inj failed
      exact ⟨[], path, rest, reason, [], rfl, (Except.error.inj isError).symm, unreadable, rfl⟩
    next text readable =>
      generalize fed : repl.feedText (stripPackageClause text) = answer at failed
      obtain ⟨events, fed'⟩ := answer
      dsimp only at failed
      generalize sourced : fed'.sourceFiles environment rest = answer at failed
      obtain ⟨later, last⟩ := answer
      dsimp only at failed
      obtain ⟨isError, rfl⟩ := Prod.mk.inj failed
      cases later with
      | ok later => cases isError
      | error reason =>
        obtain rfl := Except.error.inj isError
        obtain ⟨read, failing, others, reason, events', rfl, same, unreadable, before⟩ := ih sourced
        refine ⟨path :: read, failing, others, reason, .message ("sourcing " ++ path) :: events ++ events',
          rfl, same, unreadable, ?_⟩
        unfold sourceFiles
        simp only [readable, fed, before]
        rfl

/-- A line that fails leaves the session as it was, unless it lists files and only a later one of them cannot be
read. Then the session is where the files before that one, listed alone, would have left it. -/
theorem handleLine_failed {repl after : Repl σ} {call : Call} {error : ReplError}
    (failed : repl.handleLine call.environment call.line = (.error error, after)) :
    after = repl ∨ ∃ read path rest reason events, read ≠ [] ∧
      repl.command? call = some (.ok (.source (read ++ path :: rest))) ∧ error = .source path reason ∧
      call.environment.files.readText path = .error reason ∧
      repl.sourceFiles call.environment read = (.ok events, after) := by
  cases isCommand : repl.command? call with
  | none =>
    rw [handleLine_source isCommand] at failed
    cases failed
  | some result =>
    cases result with
    | error misspelt =>
      rw [handleLine_misspelt isCommand] at failed
      exact .inl (Prod.mk.inj failed).2.symm
    | ok command =>
      rw [handleLine_command isCommand] at failed
      cases command with
      | replay range => exact .inl (replay_failed failed)
      | remove range => exact .inl (remove_failed failed)
      | help | showHistory | reset | setVerbosity | exit => cases failed
      | source paths =>
        obtain ⟨read, path, rest, reason, events, rfl, same, unreadable, before⟩ := sourceFiles_failed failed
        by_cases first : read = []
        · subst first
          exact .inl (Prod.mk.inj before).2.symm
        · exact .inr ⟨read, path, rest, reason, events, first, rfl, same, unreadable, before⟩

/-- The lines of two files, of which only the first one is there. -/
def onlyFirst : Call where
  environment := { home := none, files := (⟨[(["a.go"], [120, 32, 58, 61, 32, 49, 10])]⟩ : FileTree).read }
  line := ":source a.go, b.go"

/-- The second of two files is missing. -/
theorem handleLine_failed_second : ∃ error after,
    (start {} Evaluator.echo ()).handleLine onlyFirst.environment onlyFirst.line = (.error error, after) ∧
      (after = start {} Evaluator.echo () ∨ ∃ read path rest reason events, read ≠ [] ∧
        (start {} Evaluator.echo ()).command? onlyFirst = some (.ok (.source (read ++ path :: rest))) ∧
        error = .source path reason ∧ onlyFirst.environment.files.readText path = .error reason ∧
        (start {} Evaluator.echo ()).sourceFiles onlyFirst.environment read = (.ok events, after)) := by
  have fails : ((start {} Evaluator.echo ()).handleLine onlyFirst.environment onlyFirst.line).1.toOption = none := by
    decide +kernel
  cases handled : (start {} Evaluator.echo ()).handleLine onlyFirst.environment onlyFirst.line with
  | mk answer after =>
    cases answer with
    | error error => exact ⟨error, after, rfl, handleLine_failed handled⟩
    | ok events =>
      rw [handled] at fails
      cases fails

/-- The second file is missing, so the line fails, but the statement of the first one is in the history. -/
theorem sourceFiles_failed_keeps :
    ((start {} Evaluator.echo ()).handleLine onlyFirst.environment onlyFirst.line).1.toOption = none ∧
    (start {} Evaluator.echo ()).history.entries = [] ∧
    ((start {} Evaluator.echo ()).handleLine onlyFirst.environment onlyFirst.line).2.history.entries = ["x := 1"] := by
  decide +kernel

end GoPrompt.Repl
