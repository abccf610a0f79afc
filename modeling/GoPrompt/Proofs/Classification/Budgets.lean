import GoPrompt.Proofs.Classification.Rejection
import GoPrompt.Proofs.Runs.Budgets

/-! Budgets decide whether a text is classified, and never how. The number of tokens that a classification has scanned
is the least token budget for it. -/

namespace GoPrompt

open Parse

/-- Classifications that differ at most in the diagnostics behind the first one. -/
structure Classification.Repeats (later first : Classification) : Prop where
  answer : later.answer = first.answer
  statement : later.statement = first.statement
  pending : later.pending = first.pending
  tokensScanned : later.tokensScanned = first.tokensScanned
  explained : later.diagnostics.head? = first.diagnostics.head?

private theorem Parser.report_first (parser : Parser) (empty : parser.collector.diagnostics = [])
    (room : parser.collector.isSaturated = false) (error : ParseError) :
    ∃ diagnostic, (parser.report error).collector.diagnostics.head? = some diagnostic := by
  unfold Parser.report Parser.emit Collector.report
  simp only [room, Bool.false_eq_true, ↓reduceIte, empty, List.nil_append, List.head?_cons]
  exact ⟨_, rfl⟩

private theorem Parser.report_collector (parser other : Parser) (collector : other.collector = parser.collector)
    (text : other.state.stream.text = parser.state.stream.text) (error : ParseError) :
    (other.report error).collector = (parser.report error).collector := by
  unfold Parser.report Parser.emit Parser.sourceAt Parser.text TokenStream.endSpan
  simp only [collector, text]

private theorem Parser.reportCutoff_collector (parser other : Parser) (collector : other.collector = parser.collector)
    (text : other.state.stream.text = parser.state.stream.text) (cutoff : Cutoff) :
    (other.reportCutoff cutoff).collector = (parser.reportCutoff cutoff).collector := by
  unfold Parser.reportCutoff Parser.emit Parser.text
  simp only [collector, text]

section

variable {limits : Limits} {source : List Char} {classification : Classification}

theorem classifySource_run (answered : classifySource limits source = .ok classification) :
    Conclusive (Grammar.wholeText limits.forClassification.maxNesting (.ofText limits.forClassification source)) ∧
      classification.tokensScanned =
        (ended (Grammar.wholeText limits.forClassification.maxNesting
          (.ofText limits.forClassification source))).stream.scanned := by
  obtain ⟨report, parser, parsed, tells⟩ := classifySource_report answered
  rw [tells.1]
  have parses := classifyingParser_parses limits source
  rw [parsed] at parses
  generalize Grammar.wholeText limits.forClassification.maxNesting (.ofText limits.forClassification source) =
    outcome at parses ⊢
  cases parses with
  | complete | cutOff | wanted | wantedCutOff => exact ⟨trivial, rfl⟩
  | rejected noFault => exact ⟨noFault, rfl⟩

/-- Reports that differ at most in the places of the statement. -/
inductive Report.Matches : Report → Report → Prop
  | same (report : Report) : Report.Matches report report
  | complete {statement other : Statement} (same : other.kind = statement.kind) (observedEnd : Bool)
      (tokensScanned : Nat) :
      Report.Matches ⟨.complete statement, observedEnd, tokensScanned⟩ ⟨.complete other, observedEnd, tokensScanned⟩

/-- Runs that end alike are reported alike, with the same diagnostics. -/
private theorem Parser.parse_alike {other : Limits} {tokens : Nat} {report : Report} {parser : Parser}
    (diagnostics : other.maxDiagnostics = limits.maxDiagnostics)
    (alike : EndsAlike tokens
      (Grammar.wholeText limits.forClassification.maxNesting (.ofText limits.forClassification source))
      (Grammar.wholeText other.forClassification.maxNesting (.ofText other.forClassification source)))
    (parsed : (classifyingParser limits source).parse = (.ok report, parser)) :
    ∃ report' parser', (classifyingParser other source).parse = (.ok report', parser') ∧ report.Matches report' ∧
      parser'.collector = parser.collector ∧
      ∀ error, report.verdict = .syntaxError error →
      ∃ diagnostic, parser.collector.diagnostics.head? = some diagnostic := by
  have collector : (classifyingParser other source).collector = (classifyingParser limits source).collector := by
    simp only [classifyingParser, Parser.ofText, Parser.ofStream, Limits.forClassification, diagnostics]
  have empty : (classifyingParser limits source).collector.diagnostics = [] := rfl
  have room : (classifyingParser limits source).collector.isSaturated = false :=
    decide_eq_false (Nat.not_le_of_lt (Nat.le_max_right limits.maxDiagnostics 1))
  have parses := classifyingParser_parses limits source
  have parses' := classifyingParser_parses other source
  rw [parsed] at parses
  generalize classifyingParser limits source = start at parses collector empty room
  generalize classifyingParser other source = start' at parses' collector ⊢
  generalize start'.parse = answer' at parses' ⊢
  generalize Grammar.wholeText limits.forClassification.maxNesting (.ofText limits.forClassification source) =
    result at alike parses
  generalize Grammar.wholeText other.forClassification.maxNesting (.ofText other.forClassification source) =
    result' at alike parses'
  cases alike with
  | @ok statement statement' after same =>
    have cutOff := Parser.reportCutoff_collector (start.withState after)
      (start'.withState (after.withBudget tokens)) collector rfl
    cases parses with
    | complete whole =>
      cases parses' with
      | complete =>
        exact ⟨_, _, rfl, .complete same after.stream.observedEnd after.stream.scanned, collector,
          fun _ isError => by cases isError⟩
      | cutOff isCut => cases whole.symm.trans isCut
    | cutOff isCut =>
      cases parses' with
      | complete whole => cases whole.symm.trans isCut
      | cutOff isCut' =>
        obtain rfl := Option.some.inj (isCut.symm.trans isCut')
        exact ⟨_, _, rfl, .same _, cutOff _, fun _ isError => by cases isError⟩
  | @error failure after =>
    have cutOff := Parser.reportCutoff_collector (start.withState after)
      (start'.withState (after.withBudget tokens)) collector rfl
    have reported := Parser.report_collector (start.withState after)
      (start'.withState (after.withBudget tokens)) collector rfl
    cases parses with
    | wanted whole =>
      cases parses' with
      | wanted => exact ⟨_, _, rfl, .same _, reported _, fun _ isError => by cases isError⟩
      | wantedCutOff isCut => cases whole.symm.trans isCut
    | wantedCutOff isCut =>
      cases parses' with
      | wanted whole => cases whole.symm.trans isCut
      | wantedCutOff isCut' =>
        obtain rfl := Option.some.inj (isCut.symm.trans isCut')
        exact ⟨_, _, rfl, .same _, cutOff _, fun _ isError => by cases isError⟩
    | @rejected error _ noFault =>
      cases parses' with
      | fault isFault => cases noFault.symm.trans isFault
      | rejected =>
        have first := Parser.report_first (start.withState after) empty room error
        exact ⟨_, _, rfl, .same _, reported error, fun _ _ => first⟩

/-- Runs that end alike are classified alike. -/
private theorem classifySource_alike {other : Limits} {tokens : Nat} (answered : classifySource limits source = .ok classification)
    (diagnostics : other.maxDiagnostics = limits.maxDiagnostics)
    (alike : EndsAlike tokens
      (Grammar.wholeText limits.forClassification.maxNesting (.ofText limits.forClassification source))
      (Grammar.wholeText other.forClassification.maxNesting (.ofText other.forClassification source))) :
    ∃ later, classifySource other source = .ok later ∧ later.Repeats classification := by
  obtain ⟨report, parser, parsed, -⟩ := classifySource_report answered
  obtain ⟨report', parser', parsed', matched, collector, first⟩ := Parser.parse_alike diagnostics alike parsed
  unfold classifyingParser at parsed parsed'
  unfold classifySource at answered ⊢
  simp only [parsed, parsed'] at answered ⊢
  cases matched with
  | complete same observedEnd tokensScanned =>
    cases observedEnd with
    | false => cases answered
    | true =>
      cases answered
      exact ⟨_, rfl, rfl, congrArg some same, rfl, rfl, congrArg (·.diagnostics.head?) collector⟩
  | same =>
    split at answered
    next => cases answered
    next answer said =>
      cases answered
      refine ⟨_, rfl, rfl, rfl, rfl, rfl, ?_⟩
      cases verdict : report.verdict with
      | complete | needMoreInput => exact congrArg (·.diagnostics.head?) collector
      | syntaxError error =>
        obtain ⟨diagnostic, isFirst⟩ := first error verdict
        rw [Parser.explain_head isFirst, Parser.explain_head (collector ▸ isFirst)]

end

/-- A classification scans no more tokens than it may. It stays the same with any budgets that suffice for it, and
there is none with a smaller token budget. Nesting levels beyond the ceiling make no difference. Of a text that
reaches beyond the last offset this speaks with `LexFault.stalled` in place of a scan that never returns
(`scan_progress` has the texts that are free of it): a search for further problems that comes there ends with what it
has found, see `Parser.explain`. -/
theorem classify_budgets (limits : Limits) (text : String) :
    (∀ classification, classify limits text = .ok classification →
      classification.tokensScanned ≤ limits.maxTokens ∧
      (∀ tokens nesting, classification.tokensScanned ≤ tokens → limits.maxNesting ≤ nesting →
        ∃ later, classify { limits with maxTokens := tokens, maxNesting := nesting } text = .ok later ∧
          later.Repeats classification) ∧
      ∀ tokens, tokens < classification.tokensScanned → ∃ error,
        classify { limits with maxTokens := tokens } text = .error (.internal (.parser error)) ∧
          error.kind = .tokenLimitExceeded) ∧
      ∀ nesting, 1024 ≤ nesting →
        classify { limits with maxNesting := nesting } text = classify { limits with maxNesting := 1024 } text := by
  refine ⟨fun classification answered => ?_, fun nesting beyond => ?_⟩
  · have sourced := classify_source answered
    obtain ⟨conclusive, count⟩ := classifySource_run sourced
    refine ⟨?_, fun tokens nesting enough deeper => ?_, fun tokens short => ?_⟩
    · rw [count]
      exact wholeText_within limits.forClassification text.toList _
    · rw [classify_eq_source answered]
      rw [count] at enough
      have deeper' : min limits.maxNesting maxNestingCeiling ≤ min nesting maxNestingCeiling := by omega
      exact classifySource_alike sourced rfl (wholeText_enough deeper' conclusive enough)
    · rw [classify_eq_source answered]
      rw [count] at short
      obtain ⟨error, after, ran, spent⟩ := wholeText_short short
      exact ⟨error, classifySource_budget (.inl spent) ran, spent⟩
  · have same : { limits with maxNesting := nesting }.forClassification =
        { limits with maxNesting := 1024 }.forClassification := by
      simp only [Limits.forClassification, maxNestingCeiling, Nat.min_eq_right beyond, Nat.min_self]
    unfold classify Fragment.classify classifySource
    rw [same]

/-- The inserted semicolon is the fourth token, so a budget of three is too small for this text. -/
theorem classify_budgets_definition : ∃ classification, classify {} "x := 1" = .ok classification ∧
    classification.tokensScanned = 4 ∧
    (∃ later, classify { maxTokens := 4, maxNesting := 2000 } "x := 1" = .ok later ∧ later.Repeats classification) ∧
    (∃ error, classify { maxTokens := 3 } "x := 1" = .error (.internal (.parser error)) ∧
      error.kind = .tokenLimitExceeded) ∧
    classify { maxNesting := 2000 } "x := 1" = classify { maxNesting := 1024 } "x := 1" := by
  obtain ⟨classification, answered, four⟩ := answered_of_decide
    (show (classify {} "x := 1").toOption.any (·.tokensScanned == 4) = true by decide +kernel)
  have four := beq_iff_eq.mp four
  obtain ⟨answers, beyond⟩ := classify_budgets {} "x := 1"
  obtain ⟨_, enough, short⟩ := answers classification answered
  exact ⟨classification, answered, four, enough 4 2000 (by omega) (by decide),
    short 3 (by omega), beyond 2000 (by decide)⟩

end GoPrompt
