import GoPrompt.Proofs.Classification.Answers

/-! The budget of diagnostics decides how many of them are listed, and nothing else. A parser with a smaller
budget does what one with a larger budget does until its own is used up, and what the other one reports from then
on comes behind. -/

namespace GoPrompt

namespace Parser

def withRoom (room : Nat) (parser : Parser) : Parser :=
  { parser with
    limits := { parser.limits with maxDiagnostics := room }
    collector := { parser.collector with limit := some room } }

/-- A parser that has kept all of its diagnostics, within its budget. -/
structure Keeps (parser : Parser) : Prop where
  limit : parser.collector.limit = some parser.limits.maxDiagnostics
  kept : parser.reported = parser.collector.diagnostics.length
  within : parser.collector.diagnostics.length ≤ parser.limits.maxDiagnostics

/-- A parser that has one more diagnostic at most, and the same budgets. -/
structure Turned (before after : Parser) : Prop where
  keeps : after.Keeps
  limits : after.limits = before.limits
  length : after.collector.diagnostics.length ≤ before.collector.diagnostics.length + 1

section

variable {room : Nat} {parser : Parser}

theorem Keeps.isDone (keeps : parser.Keeps) :
    parser.isDone = decide (parser.limits.maxDiagnostics ≤ parser.collector.diagnostics.length) := by
  rw [Parser.isDone, keeps.kept, Collector.isSaturated, keeps.limit, Option.any_some, Bool.or_self]

private theorem Keeps.withRoom (keeps : parser.Keeps) (within : parser.collector.diagnostics.length ≤ room) :
    (parser.withRoom room).Keeps := ⟨rfl, keeps.kept, within⟩

theorem Keeps.withState (keeps : parser.Keeps) (state : ParseState) : (parser.withState state).Keeps :=
  ⟨keeps.limit, keeps.kept, keeps.within⟩

theorem Keeps.turned (keeps : parser.Keeps) (state : ParseState) : parser.Turned (parser.withState state) :=
  ⟨keeps.withState state, rfl, Nat.le_succ _⟩

private theorem Keeps.unsaturated (keeps : parser.Keeps)
    (free : parser.collector.diagnostics.length < parser.limits.maxDiagnostics) :
    parser.collector.isSaturated = false := by
  rw [Collector.isSaturated, keeps.limit, Option.any_some, decide_eq_false (Nat.not_le_of_lt free)]

theorem Keeps.emit_eq (keeps : parser.Keeps) (free : parser.collector.diagnostics.length < parser.limits.maxDiagnostics)
    (diagnostic : Diagnostic) : parser.emit diagnostic =
      { parser with
        collector := { parser.collector with diagnostics := parser.collector.diagnostics ++ [diagnostic] }
        reported := parser.reported + 1 } := by
  simp only [Parser.emit, Collector.report, keeps.unsaturated free, Bool.false_eq_true, ↓reduceIte]

theorem Keeps.emit (keeps : parser.Keeps) (free : parser.collector.diagnostics.length < parser.limits.maxDiagnostics)
    (diagnostic : Diagnostic) : parser.Turned (parser.emit diagnostic) := by
  rw [keeps.emit_eq free]
  have longer : (parser.collector.diagnostics ++ [diagnostic]).length = parser.collector.diagnostics.length + 1 :=
    List.length_append
  exact ⟨⟨keeps.limit, (congrArg (· + 1) keeps.kept).trans longer.symm, Nat.le_trans (Nat.le_of_eq longer) free⟩,
    rfl, Nat.le_of_eq longer⟩

private theorem Keeps.emit_withRoom (keeps : parser.Keeps) (less : parser.collector.diagnostics.length < room)
    (smaller : room ≤ parser.limits.maxDiagnostics) (diagnostic : Diagnostic) :
    (parser.withRoom room).emit diagnostic = (parser.emit diagnostic).withRoom room := by
  rw [(keeps.withRoom (Nat.le_of_lt less)).emit_eq less, keeps.emit_eq (Nat.lt_of_lt_of_le less smaller)]
  rfl

theorem Keeps.report (keeps : parser.Keeps) (free : parser.collector.diagnostics.length < parser.limits.maxDiagnostics)
    (error : ParseError) : parser.Turned (parser.report error) := by
  rw [report_eq]
  exact keeps.emit free _

theorem Keeps.mem_report (keeps : parser.Keeps)
    (free : parser.collector.diagnostics.length < parser.limits.maxDiagnostics) (error : ParseError) :
    parser.diagnosis error ∈ (parser.report error).collector.diagnostics := by
  rw [report_eq, keeps.emit_eq free]
  exact List.mem_append_right _ (List.mem_singleton_self _)

private theorem Keeps.report_withRoom (keeps : parser.Keeps) (less : parser.collector.diagnostics.length < room)
    (smaller : room ≤ parser.limits.maxDiagnostics) (error : ParseError) :
    (parser.withRoom room).report error = (parser.report error).withRoom room := by
  rw [report_eq, report_eq]
  exact keeps.emit_withRoom less smaller _

/-- A turn of the recovery is the same with less room, if there is any. -/
private theorem Keeps.recoverOnce_withRoom (keeps : parser.Keeps) (less : parser.collector.diagnostics.length < room)
    (smaller : room ≤ parser.limits.maxDiagnostics) :
    (parser.withRoom room).recoverOnce = (parser.recoverOnce.1, parser.recoverOnce.2.withRoom room) ∧
      parser.Turned parser.recoverOnce.2 := by
  have free := Nat.lt_of_lt_of_le less smaller
  have reports : ∀ state error, ((parser.withRoom room).withState state).report error =
      ((parser.withState state).report error).withRoom room :=
    fun state error => (keeps.withState state).report_withRoom less smaller error
  have turned : ∀ state error, parser.Turned ((parser.withState state).report error) := fun state error =>
    have reported := (keeps.withState state).report free error
    ⟨reported.keeps, reported.limits, reported.length⟩
  unfold recoverOnce
  rw [show (parser.withRoom room).state = parser.state from rfl,
    show (parser.withRoom room).limits.maxNesting = parser.limits.maxNesting from rfl]
  split
  next => exact ⟨rfl, keeps.turned _⟩
  next => exact ⟨rfl, keeps.turned _⟩
  next => exact ⟨rfl, keeps.turned _⟩
  next =>
    split
    next => exact ⟨rfl, keeps.turned _⟩
    next => exact ⟨rfl, keeps.turned _⟩
    next => exact ⟨rfl, keeps.turned _⟩
    next =>
      split
      next => exact ⟨rfl, keeps.turned _⟩
      next =>
        rw [reports]
        exact ⟨rfl, turned _ _⟩
      next error state _ =>
        split
        next => exact ⟨rfl, keeps.turned _⟩
        next =>
          rw [reports]
          have reported := turned state error
          exact ⟨rfl, reported.keeps.withState _, reported.limits, reported.length⟩

/-- With less room the recovery lists the first of the diagnostics. -/
private theorem Keeps.recoverLoop_withRoom {parser : Parser} (keeps : parser.Keeps)
    (within : parser.collector.diagnostics.length ≤ room) (smaller : room ≤ parser.limits.maxDiagnostics) :
    (parser.withRoom room).recoverLoop.2.collector.diagnostics =
    parser.recoverLoop.2.collector.diagnostics.take room := by
  rcases Nat.lt_or_eq_of_le within with less | full
  · obtain ⟨same, turned⟩ := keeps.recoverOnce_withRoom less smaller
    have open' : (parser.withRoom room).isDone = false := by
      rw [(keeps.withRoom within).isDone]
      exact decide_eq_false (Nat.not_le_of_lt less)
    have wide : parser.isDone = false := by
      rw [keeps.isDone]
      exact decide_eq_false (Nat.not_le_of_lt (Nat.lt_of_lt_of_le less smaller))
    have fits : parser.recoverOnce.2.collector.diagnostics.length ≤ room := Nat.le_trans turned.length less
    have ends : (parser.recoverOnce.2.withRoom room).collector.diagnostics =
        parser.recoverOnce.2.collector.diagnostics.take room :=
      (List.take_of_length_le fits).symm
    rw [recoverLoop, open', recoverLoop, wide, if_neg Bool.false_ne_true, if_neg Bool.false_ne_true, same]
    rcases ran : parser.recoverOnce with ⟨result, after⟩
    rw [ran] at turned fits ends
    cases result with
    | error error => exact ends
    | ok more =>
      cases more with
      | false => exact ends
      | true =>
        dsimp only
        rw [show (after.withRoom room).state = after.state from rfl,
          show (parser.withRoom room).state = parser.state from rfl]
        split
        next => exact turned.keeps.recoverLoop_withRoom fits (turned.limits ▸ smaller)
        next => exact ends
  · obtain ⟨more, extended⟩ := parser.recoverLoop_extends
    have done : (parser.withRoom room).isDone = true := by
      rw [(keeps.withRoom within).isDone]
      exact decide_eq_true (Nat.le_of_eq full.symm)
    rw [recoverLoop_done done, extended, ← full, List.take_left]
    rfl
termination_by parser.state.remaining

/-- A text is parsed in the same way with less room, if there is any. -/
private theorem Keeps.parse_withRoom (keeps : parser.Keeps) (less : parser.collector.diagnostics.length < room)
    (smaller : room ≤ parser.limits.maxDiagnostics) :
    (parser.withRoom room).parse = (parser.parse.1, parser.parse.2.withRoom room) ∧ parser.Turned parser.parse.2 := by
  have free := Nat.lt_of_lt_of_le less smaller
  have reports : ∀ state error, ((parser.withRoom room).withState state).report error =
      ((parser.withState state).report error).withRoom room :=
    fun state error => (keeps.withState state).report_withRoom less smaller error
  have turned : ∀ state error, parser.Turned ((parser.withState state).report error) := fun state error =>
    have reported := (keeps.withState state).report free error
    ⟨reported.keeps, reported.limits, reported.length⟩
  have cuts : ∀ state cutoff, ((parser.withRoom room).withState state).reportCutoff cutoff =
      ((parser.withState state).reportCutoff cutoff).withRoom room :=
    fun state cutoff => (keeps.withState state).emit_withRoom less smaller _
  have cut : ∀ state cutoff, parser.Turned ((parser.withState state).reportCutoff cutoff) := fun state cutoff =>
    have reported := (keeps.withState state).emit free _
    ⟨reported.keeps, reported.limits, reported.length⟩
  unfold parse
  rw [show (parser.withRoom room).state = parser.state from rfl,
    show (parser.withRoom room).limits.maxNesting = parser.limits.maxNesting from rfl]
  split
  next =>
    dsimp only
    split
    next =>
      rw [cuts]
      exact ⟨rfl, cut _ _⟩
    next => exact ⟨rfl, keeps.turned _⟩
  next =>
    dsimp only
    split
    next =>
      rw [cuts]
      exact ⟨rfl, cut _ _⟩
    next =>
      rw [reports]
      exact ⟨rfl, turned _ _⟩
  next =>
    dsimp only
    split
    next => exact ⟨rfl, keeps.turned _⟩
    next =>
      rw [reports]
      exact ⟨rfl, turned _ _⟩

private theorem Keeps.explain_withRoom (keeps : parser.Keeps) (within : parser.collector.diagnostics.length ≤ room)
    (smaller : room ≤ parser.limits.maxDiagnostics) (verdict : Verdict) :
    (parser.withRoom room).explain verdict = (parser.explain verdict).take room := by
  cases verdict with
  | complete | needMoreInput => exact (List.take_of_length_le within).symm
  | syntaxError =>
    have resets : parser.resetDepth.Keeps := keeps.withState _
    exact resets.recoverLoop_withRoom within smaller

end

end Parser

/-- A smaller budget of diagnostics changes the list of a classification only, of which it leaves the first ones. -/
theorem classifySource_withRoom {limits : Limits} {fewer : Nat} (smaller : fewer ≤ limits.maxDiagnostics)
    (source : List Char) :
    classifySource { limits with maxDiagnostics := fewer } source =
    (classifySource limits source).map fun classification =>
      { classification with diagnostics := classification.diagnostics.take (max 1 fewer) } := by
  have keeps : (classifyingParser limits source).Keeps := ⟨rfl, rfl, Nat.zero_le _⟩
  have less : 0 < max 1 fewer := Nat.lt_of_lt_of_le Nat.zero_lt_one (Nat.le_max_left 1 fewer)
  have within : max 1 fewer ≤ (classifyingParser limits source).limits.maxDiagnostics := by
    show max 1 fewer ≤ max limits.maxDiagnostics 1
    omega
  obtain ⟨same, turned⟩ := keeps.parse_withRoom less within
  have parser : classifyingParser { limits with maxDiagnostics := fewer } source =
      (classifyingParser limits source).withRoom (max 1 fewer) := by
    rw [Nat.max_comm]
    rfl
  rw [← parser] at same
  unfold classifyingParser at same turned within
  unfold classifySource
  dsimp only
  rw [same]
  rcases parsed : (Parser.ofText limits.forClassification source { limit := some limits.forClassification.maxDiagnostics }).parse with
    ⟨result, after⟩
  rw [parsed] at turned
  cases result with
  | error error => rfl
  | ok report =>
    have room : after.collector.diagnostics.length ≤ max 1 fewer := Nat.le_trans turned.length less
    have wide : max 1 fewer ≤ after.limits.maxDiagnostics := turned.limits ▸ within
    dsimp only
    rw [turned.keeps.explain_withRoom room wide]
    cases (Signals.ofReport report).answer <;> rfl

end GoPrompt
