import GoPrompt.Classification.Basic
import GoPrompt.Proofs.Stream.Parsing

/-! What an answer says of the report behind it, for texts of any size. The first diagnostic that a parser reports stays
the first one: what it reports when it goes on behind a rejected token comes later. -/

namespace GoPrompt

/-- A classification that tells what a report says. -/
def Classification.Tells (classification : Classification) (report : Report) : Prop :=
  classification.tokensScanned = report.tokensScanned ∧ match report.verdict with
    | .complete statement =>
      classification.answer = .complete ∧ classification.statement = some statement.kind ∧ classification.pending = none
    | .needMoreInput reason =>
      classification.answer = .needMoreInput ∧ classification.statement = none ∧ classification.pending = some reason
    | .syntaxError _ =>
      classification.answer = .syntaxError ∧ classification.statement = none ∧ classification.pending = none

/-- The parser with which a text is classified. -/
def classifyingParser (limits : Limits) (source : List Char) : Parser :=
  .ofText limits.forClassification source { limit := some limits.forClassification.maxDiagnostics }

private theorem Signals.answer_ofReport {report : Report} {answer : Answer}
    (answered : (Signals.ofReport report).answer = .ok answer) :
    answer = match report.verdict with
      | .complete _ => .complete
      | .needMoreInput _ => .needMoreInput
      | .syntaxError _ => .syntaxError := by
  unfold Signals.ofReport at answered
  cases verdict : report.verdict with
  | complete =>
    rw [verdict] at answered
    cases observed : report.observedEnd <;> simp only [observed] at answered <;> cases answered
    rfl
  | needMoreInput =>
    rw [verdict] at answered
    cases observed : report.observedEnd <;> simp only [observed] at answered <;> cases answered
    rfl
  | syntaxError error =>
    rw [verdict] at answered
    cases ended : decide (error.kind = .unexpectedEndOfInput) <;> simp only [ended] at answered <;> cases answered
    rfl

/-- Behind every classification there is a parse, whose report it tells and whose diagnostics it lists. -/
theorem classifySource_parsed {limits : Limits} {source : List Char} {classification : Classification}
    (answered : classifySource limits source = .ok classification) :
    ∃ report parser, (classifyingParser limits source).parse = (.ok report, parser) ∧ classification.Tells report ∧
      classification.diagnostics = parser.explain report.verdict := by
  unfold classifySource at answered
  dsimp only at answered
  split at answered
  next => cases answered
  next report parser parsed =>
    split at answered
    next => cases answered
    next answer said =>
      have same := Signals.answer_ofReport said
      refine ⟨report, parser, parsed, ?_⟩
      obtain rfl := Except.ok.inj answered
      unfold Classification.Tells
      cases verdict : report.verdict <;> rw [verdict] at same <;> exact ⟨⟨rfl, same, rfl, rfl⟩, rfl⟩

theorem classifySource_report {limits : Limits} {source : List Char} {classification : Classification}
    (answered : classifySource limits source = .ok classification) :
    ∃ report parser, (classifyingParser limits source).parse = (.ok report, parser) ∧ classification.Tells report := by
  obtain ⟨report, parser, parsed, tells, -⟩ := classifySource_parsed answered
  exact ⟨report, parser, parsed, tells⟩

theorem classify_eq_source {limits : Limits} {text : String} {classification : Classification}
    (answered : classify limits text = .ok classification) (other : Limits) :
    classify other text = classifySource other text.toList := by
  have whole : ({ text := text.toList } : Fragment).source = text.toList := rfl
  rw [classify, Fragment.classify, whole] at answered ⊢
  split at answered
  next => cases answered
  next => rfl

theorem classify_source {limits : Limits} {text : String} {classification : Classification}
    (answered : classify limits text = .ok classification) : classifySource limits text.toList = .ok classification :=
  (classify_eq_source answered limits).symm.trans answered

section

variable {limits : Limits} {text : String} {classification : Classification}
  (answered : classify limits text = .ok classification)
include answered

theorem statement_of_complete (complete : classification.answer = .complete) :
    ∃ kind, classification.statement = some kind := by
  obtain ⟨report, _, _, _, tells⟩ := classifySource_report (classify_source answered)
  cases verdict : report.verdict <;> simp only [verdict, complete] at tells
  · exact ⟨_, tells.2.1⟩
  · cases tells.1
  · cases tells.1

/-- A text that needs more input does so for a reason. -/
theorem pending_of_needMoreInput (wanting : classification.answer = .needMoreInput) :
    ∃ reason, classification.pending = some reason := by
  obtain ⟨report, _, _, _, tells⟩ := classifySource_report (classify_source answered)
  cases verdict : report.verdict <;> simp only [verdict, wanting] at tells
  · cases tells.1
  · exact ⟨_, tells.2.2⟩
  · cases tells.1

end

namespace Collector

private theorem report_append (collector : Collector) (diagnostic : Diagnostic) :
    ∃ more, (collector.report diagnostic).diagnostics = collector.diagnostics ++ more := by
  unfold report
  split
  next => exact ⟨[], (List.append_nil _).symm⟩
  next => exact ⟨[diagnostic], rfl⟩

end Collector

namespace Parser

/-- Whether a parser has the diagnostics of another one, and perhaps more behind them. -/
def Extends (before after : Parser) : Prop := ∃ more, after.collector.diagnostics = before.collector.diagnostics ++ more

theorem Extends.refl (parser : Parser) : parser.Extends parser := ⟨[], (List.append_nil _).symm⟩

theorem Extends.trans {first second third : Parser} (before : first.Extends second) (after : second.Extends third) :
    first.Extends third := by
  obtain ⟨more, extended⟩ := before
  obtain ⟨later, extended'⟩ := after
  exact ⟨more ++ later, by rw [extended', extended, List.append_assoc]⟩

def diagnosis (parser : Parser) (error : ParseError) : Diagnostic where
  kind := if error.kind = .invalidToken then .lexer else .parser
  message := error.message
  span := error.span.getD parser.state.stream.endSpan
  position := .ofOffset parser.text (error.span.getD parser.state.stream.endSpan).start
  offending := match error.kind with
    | .invalidToken => .token (error.found.getD "")
    | .unexpectedEndOfInput => .endOfInput
    | _ => .token (parser.sourceAt (error.span.getD parser.state.stream.endSpan))

theorem report_eq (parser : Parser) (error : ParseError) :
    parser.report error = parser.emit (parser.diagnosis error) := by
  unfold report diagnosis
  cases error.kind <;> rfl

private theorem report_extends (parser : Parser) (error : ParseError) : parser.Extends (parser.report error) := by
  rw [report_eq]
  exact parser.collector.report_append _

private theorem recoverOnce_extends (parser : Parser) : parser.Extends parser.recoverOnce.2 := by
  have unchanged : ∀ state, parser.Extends (parser.withState state) := fun _ => .refl parser
  unfold recoverOnce
  split
  next => exact unchanged _
  next => exact unchanged _
  next => exact unchanged _
  next =>
    split
    next => exact unchanged _
    next => exact unchanged _
    next => exact unchanged _
    next =>
      split
      next => exact unchanged _
      next => exact (unchanged _).trans (report_extends _ _)
      next =>
        split
        next => exact unchanged _
        next => exact (unchanged _).trans (report_extends _ _)

theorem recoverLoop_done {parser : Parser} (done : parser.isDone = true) : parser.recoverLoop = (.ok (), parser) := by
  rw [recoverLoop, if_pos done]

theorem recoverLoop_fault {parser after : Parser} {error : ParseError} (ready : parser.isDone = false)
    (turned : parser.recoverOnce = (.error error, after)) : parser.recoverLoop = (.error error, after) := by
  rw [recoverLoop, ready, if_neg Bool.false_ne_true, turned]

theorem recoverLoop_extends (parser : Parser) : parser.Extends parser.recoverLoop.2 := by
  have once := parser.recoverOnce_extends
  unfold recoverLoop
  split
  next => exact .refl parser
  next =>
    split
    next ran =>
      rw [ran] at once
      exact once
    next ran =>
      rw [ran] at once
      exact once
    next ran =>
      rw [ran] at once
      split
      next => exact once.trans (recoverLoop_extends _)
      next => exact once
termination_by parser.state.remaining

theorem explain_head {parser : Parser} {diagnostic : Diagnostic}
    (first : parser.collector.diagnostics.head? = some diagnostic) (verdict : Verdict) :
    (parser.explain verdict).head? = some diagnostic := by
  cases verdict with
  | complete | needMoreInput => exact first
  | syntaxError =>
    obtain ⟨more, extended⟩ := recoverLoop_extends parser.resetDepth
    show (recoverLoop parser.resetDepth).2.collector.diagnostics.head? = _
    rw [extended, List.head?_append, show parser.resetDepth.collector = parser.collector from rfl, first]
    rfl

theorem report_head {parser : Parser} (empty : parser.collector.diagnostics = [])
    (room : parser.collector.isSaturated = false) {error : ParseError} {token : Token} (blames : error.Blames token) :
    ∃ diagnostic source, (parser.report error).collector.diagnostics.head? = some diagnostic ∧
    diagnostic.span = token.span ∧
      diagnostic.offending = .token source ∧
      (source = parser.sourceAt token.span ∨ (token.kind = .illegal ∧ source = token.lexeme)) := by
  rw [report_eq]
  unfold emit Collector.report
  simp only [room, Bool.false_eq_true, ↓reduceIte, empty, List.nil_append, List.head?_cons]
  obtain ⟨span, kind | ⟨kind, illegal, found⟩⟩ := blames
  · refine ⟨_, parser.sourceAt token.span, rfl, ?_, ?_, .inl rfl⟩
    · simp only [diagnosis, span, Option.getD_some]
    · simp [diagnosis, kind, span]
  · refine ⟨_, token.lexeme, rfl, ?_, ?_, .inr ⟨illegal, rfl⟩⟩
    · simp only [diagnosis, span, Option.getD_some]
    · simp [diagnosis, kind, found]

end Parser

end GoPrompt
