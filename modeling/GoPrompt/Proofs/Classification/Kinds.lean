import GoPrompt.Proofs.Classification.Answers
import GoPrompt.Proofs.Runs.Twins

/-! The verdict on a text depends on the kinds of its tokens only. Over two texts whose lexers are in step the parser
comes to the same verdict, for the same reason, and the recovery reports as many diagnostics. -/

namespace GoPrompt

open Parse

/-- A verdict without places and texts. -/
inductive VerdictOutline where
  | complete (kind : StatementKind)
  | needMoreInput (reason : PendingReason)
  | syntaxError (kind : ParseErrorKind) (expected : List String)
  deriving DecidableEq, Repr

def Verdict.outline : Verdict → VerdictOutline
  | .complete statement => .complete statement.kind
  | .needMoreInput reason => .needMoreInput reason
  | .syntaxError error => .syntaxError error.kind error.expected

/-- A report without places and texts. -/
structure ReportOutline where
  verdict : VerdictOutline
  observedEnd : Bool
  tokensScanned : Nat
  deriving DecidableEq, Repr

def Report.outline (report : Report) : ReportOutline where
  verdict := report.verdict.outline
  observedEnd := report.observedEnd
  tokensScanned := report.tokensScanned

namespace Parser

/-- An answer without places and texts. -/
def answerOutline {α β : Type} (outline : α → β) : Except ParseError α → Except (ParseErrorKind × List String) β
  | .ok value => .ok (outline value)
  | .error error => .error error.outline

/-- Parsers that have reported as much and have room for as much. -/
structure ReportsAlike (first second : Parser) : Prop where
  limits : first.limits = second.limits
  reported : first.reported = second.reported
  room : first.collector.limit = second.collector.limit
  kept : first.collector.diagnostics.length = second.collector.diagnostics.length

/-- Such parsers in twin states. -/
structure Twin (beyond : Prop) (first second : Parser) : Prop extends first.ReportsAlike second where
  state : ∃ own number, first.state.Twin beyond own number second.state

/-- What two such parsers answer, and how they go on. -/
inductive Meets (beyond : Prop) {α β : Type} (outline : α → β) :
    Except ParseError α × Parser → Except ParseError α × Parser → Prop
  | ok {value value' : α} {after after' : Parser} (same : outline value = outline value')
      (twin : after.Twin beyond after') :
      Meets beyond outline (.ok value, after) (.ok value', after')
  | error {error error' : ParseError} {after after' : Parser} (same : error.outline = error'.outline)
      (alike : after.ReportsAlike after') (twin : (error.StopsScan → beyond) → after.Twin beyond after') :
      Meets beyond outline (.error error, after) (.error error', after')

section

variable {beyond : Prop} {own number : Nat} {first second : Parser} {state state' : ParseState}
  {error error' : ParseError}

theorem ReportsAlike.isSaturated (alike : first.ReportsAlike second) :
    first.collector.isSaturated = second.collector.isSaturated := by
  rw [Collector.isSaturated, Collector.isSaturated, alike.room, alike.kept]

theorem ReportsAlike.emit (alike : first.ReportsAlike second) (diagnostic diagnostic' : Diagnostic) :
    (first.emit diagnostic).ReportsAlike (second.emit diagnostic') := by
  refine ⟨alike.limits, congrArg (· + 1) alike.reported, ?_, ?_⟩
  · simp only [Parser.emit, Collector.report, alike.isSaturated]
    split <;> exact alike.room
  · simp only [Parser.emit, Collector.report, alike.isSaturated]
    split
    next => exact alike.kept
    next => simp only [List.length_append, alike.kept, List.length_singleton]

private theorem Twin.of_state (alike : first.ReportsAlike second) (twin : state.Twin beyond own number state') :
    (first.withState state).Twin beyond (second.withState state') := ⟨{ alike with }, own, number, twin⟩

theorem Twin.emit (twin : first.Twin beyond second) (diagnostic diagnostic' : Diagnostic) :
    (first.emit diagnostic).Twin beyond (second.emit diagnostic') := ⟨twin.toReportsAlike.emit _ _, twin.state⟩

theorem Twin.report (twin : first.Twin beyond second) (error error' : ParseError) :
    (first.report error).Twin beyond (second.report error') := by
  rw [report_eq, report_eq]
  exact twin.emit _ _

theorem Twin.isDone (twin : first.Twin beyond second) : first.isDone = second.isDone := by
  rw [Parser.isDone, Parser.isDone, twin.limits, twin.reported, twin.isSaturated]

theorem Twin.remaining (twin : first.Twin beyond second) : first.state.remaining = second.state.remaining := by
  obtain ⟨own, number, same⟩ := twin.state
  exact same.stream.remaining.1.trans same.stream.remaining.2.symm

theorem Twin.resetDepth (twin : first.Twin beyond second) : first.resetDepth.Twin beyond second.resetDepth := by
  obtain ⟨own, number, same⟩ := twin.state
  exact .of_state twin.toReportsAlike ⟨same.stream, rfl⟩

theorem Twin.answer (twin : first.Twin beyond second) {verdict verdict' : Verdict}
    (same : verdict.outline = verdict'.outline) :
    Meets beyond Report.outline (first.answer verdict) (second.answer verdict') := by
  obtain ⟨own, number, states⟩ := twin.state
  refine .ok ?_ twin
  rw [Report.outline, Report.outline, same, states.stream.observedEnd, states.stream.scanned]

/-- Where two runs have failed for the same reason, both parsers may answer with it. -/
theorem ReportsAlike.fault {α β : Type} {outline : α → β} (alike : first.ReportsAlike second)
    (same : error.outline = error'.outline)
    (twin : (error.StopsScan → beyond) → ∃ number, state.Twin beyond own number state') :
    Meets beyond outline (.error error, first.withState state) (.error error', second.withState state') :=
  .error same { alike with } fun goesOn => (twin goesOn).elim fun _ twin => .of_state alike twin

/-- The parsers answer alike where the runs of the grammar have ended alike. -/
private theorem parse_meets (alike : first.ReportsAlike second) (start : first.state.Twin beyond own 0 second.state)
    (shallow : first.state.depth = 0) : Meets beyond Report.outline first.parse second.parse := by
  have shallow' := start.depth.symm.trans shallow
  have matched := Coupling.twins_matches
    (Grammar.wholeText_outcome (Coupling.twins_lawful beyond own) first.limits.maxNesting
    start shallow shallow')
  unfold parse
  rw [← alike.limits]
  generalize Grammar.wholeText first.limits.maxNesting first.state = outcome at matched ⊢
  generalize Grammar.wholeText first.limits.maxNesting second.state = outcome' at matched ⊢
  cases outcome with
  | ok statement after =>
    cases outcome' with
    | error => exact matched.elim
    | ok statement' after' =>
      obtain ⟨kind, place, -, twin, -⟩ := matched
      have stopped := Twin.of_state alike twin
      dsimp only
      rcases twin.stream.tails with ⟨whole, whole'⟩ | ⟨cutoff, cutoff', cut, cut', construct⟩
      · rw [whole, whole']
        exact stopped.answer (congrArg VerdictOutline.complete kind)
      · rw [cut, cut']
        exact (stopped.emit _ _).answer (congrArg (VerdictOutline.needMoreInput <| .cutOff ·) construct)
  | error failure after =>
    cases outcome' with
    | ok => exact matched.elim
    | error failure' after' =>
      cases matched with
      | wanted same twin =>
        have stopped := Twin.of_state alike twin
        have reason := congrArg VerdictOutline.needMoreInput twin.stream.pendingReason
        dsimp only
        rcases twin.stream.tails with ⟨whole, whole'⟩ | ⟨cutoff, cutoff', cut, cut', -⟩
        · rw [whole, whole']
          exact (stopped.report _ _).answer reason
        · rw [cut, cut']
          exact (stopped.emit _ _).answer reason
      | @rejected error error' _ _ same twin =>
        dsimp only
        rw [← ParseError.isFault_of_outline same]
        split
        next => exact alike.fault same twin
        next noFault =>
          obtain ⟨number, twin⟩ := twin fun stops => absurd stops.1 noFault
          exact ((Twin.of_state alike twin).report _ _).answer
            (congrArg
              (fun outline : ParseErrorKind × List String => VerdictOutline.syntaxError outline.1 outline.2) same)

private theorem resumed_meets (alike : first.ReportsAlike second) {outcome outcome' : EStateM.Result Failure ParseState Statement}
    (matched : (Coupling.twins beyond own).Matches (fun _ _ => (Coupling.twins beyond own).after number) outcome outcome') :
    Meets beyond id (first.resumed outcome) (second.resumed outcome') := by
  cases outcome with
  | ok =>
    cases outcome' with
    | error => exact matched.elim
    | ok =>
      obtain ⟨-, place, -, twin⟩ := matched
      exact .ok rfl (.of_state alike twin)
  | error =>
    cases outcome' with
    | ok => exact matched.elim
    | error =>
      cases matched with
      | wanted same twin => exact .ok rfl ((Twin.of_state alike twin).report _ _)
      | rejected same twin =>
        dsimp only [resumed]
        rw [← ParseError.isFault_of_outline same]
        split
        next => exact alike.fault same twin
        next noFault =>
          obtain ⟨number, twin⟩ := twin fun stops => absurd stops.1 noFault
          exact .ok rfl ((Twin.of_state alike twin).report _ _).resetDepth

/-- A turn of the recovery comes to the same over both texts. -/
private theorem recoverOnce_meets (twin : first.Twin beyond second) :
    Meets beyond id first.recoverOnce second.recoverOnce := by
  have alike := twin.toReportsAlike
  obtain ⟨own, number, start⟩ := twin.state
  have skipped := Coupling.twins_matches ((Grammar.synchronize_twins number).outcome _ _ ⟨number, Nat.le_refl _, start⟩)
  unfold recoverOnce
  rw [← alike.limits]
  generalize Grammar.synchronize first.state = outcome at skipped ⊢
  generalize Grammar.synchronize second.state = outcome' at skipped ⊢
  cases outcome <;> cases outcome'
  case ok.error | error.ok => exact skipped.elim
  case error.error =>
    cases skipped with
    | wanted same twin => exact alike.fault same fun _ => ⟨_, twin⟩
    | rejected same twin => exact alike.fault same twin
  case ok.ok stop state stop' state' =>
    obtain ⟨same, place, -, behind⟩ := skipped
    cases same
    -- Behind a separator both read a statement at the same depth, if there is a token to start it.
    cases stop with
    | endOfInput => exact .ok rfl (.of_state alike behind)
    | separator =>
      have looked := Coupling.twins_matches ((Coupling.twins_look place).outcome _ _ behind)
      dsimp only
      generalize Parse.peek 0 state = outcome at looked ⊢
      generalize Parse.peek 0 state' = outcome' at looked ⊢
      cases outcome <;> cases outcome'
      case ok.error | error.ok => exact looked.elim
      case error.error =>
        cases looked with
        | wanted same twin => exact alike.fault same fun _ => ⟨_, twin⟩
        | rejected same twin => exact alike.fault same twin
      case ok.ok found middle found' middle' =>
        obtain ⟨same, ahead, -⟩ := looked
        cases found <;> cases found'
        case none.some | some.none => exact same.elim
        case none.none => exact .ok rfl (.of_state alike ahead)
        case some.some =>
          have read := (Grammar.levels_deep (Coupling.twins_lawful beyond own) first.limits.maxNesting
            (first.limits.maxNesting - middle.depth)).statement .topLevel place
          have met := resumed_meets alike (Coupling.twins_matches (read.outcome _ _ ⟨place, Nat.le_refl _, ahead⟩))
          show Meets beyond id (first.resumed (Grammar.topLevelStatement _ middle))
            (second.resumed (Grammar.topLevelStatement _ middle'))
          unfold Grammar.topLevelStatement
          rwa [← ahead.depth]

private theorem recoverLoop_meets {first second : Parser} (twin : first.Twin beyond second) :
    Meets beyond id first.recoverLoop second.recoverLoop := by
  have once := recoverOnce_meets twin
  rw [recoverLoop, recoverLoop, ← twin.isDone]
  split
  next => exact .ok rfl twin
  next =>
    rcases ran : first.recoverOnce with ⟨answer, after⟩
    rcases ran' : second.recoverOnce with ⟨answer', after'⟩
    rw [ran, ran'] at once
    cases once with
    | error same alike goesOn => exact .error same alike goesOn
    | @ok more _ _ _ same later =>
      cases same
      cases more with
      | false => exact .ok rfl later
      | true =>
        -- As much is left of both texts, so both recoveries have moved on or neither has.
        dsimp only
        rw [← twin.remaining, ← later.remaining]
        split
        next progress => exact recoverLoop_meets later
        next => exact .error rfl later.toReportsAlike fun _ => later
termination_by first.state.remaining

private theorem recover_meets (twin : first.Twin beyond second) : Meets beyond id first.recover second.recover := by
  have met := recoverLoop_meets twin.resetDepth
  unfold recover
  generalize first.resetDepth.recoverLoop = outcome at met ⊢
  generalize second.resetDepth.recoverLoop = outcome' at met ⊢
  cases met with
  | error same alike goesOn => exact .error same alike goesOn
  | ok _ later => exact .ok (by rw [later.reported, twin.reported]) later

end

/-- Over two texts whose lexers are in step the parser comes to the same verdict, for the same reason, or to the same
fault, and has scanned as many tokens by then. The recovery behind it answers with the same number of diagnostics. If
the lexers are in step up to the first fault only, this is said of a recovery that does not start behind that fault. -/
theorem parse_of_kinds {beyond : Prop} {text text' : List Char} (limits : Limits) (collector : Collector)
    (inStep : (Lexer.ofText 0 text).InStep beyond (Lexer.ofText 0 text')) {answer answer' : Except ParseError Report}
    {parser parser' : Parser} (parsed : (ofText limits text collector).parse = (answer, parser))
    (parsed' : (ofText limits text' collector).parse = (answer', parser')) :
    answerOutline Report.outline answer = answerOutline Report.outline answer' ∧
      ((∀ error, answer = .error error → error.StopsScan → beyond) →
        answerOutline id parser.recover.1 = answerOutline id parser'.recover.1 ∧
          parser.recover.2.reported = parser'.recover.2.reported) := by
  have alike : (ofText limits text collector).ReportsAlike (ofText limits text' collector) := ⟨rfl, rfl, rfl, rfl⟩
  have start : (ofText limits text collector).state.Twin beyond limits.maxTokens 0
      (ofText limits text' collector).state :=
    ⟨⟨⟨rfl, rfl⟩, ⟨rfl, rfl, Nat.zero_le _⟩, rfl, rfl, rfl, rfl, rfl, rfl, nofun, nofun, inStep⟩, rfl⟩
  have met := parse_meets alike start rfl
  rw [parsed, parsed'] at met
  have recovers : ∀ {first second : Parser}, first.Twin beyond second →
      answerOutline id first.recover.1 = answerOutline id second.recover.1 ∧
        first.recover.2.reported = second.recover.2.reported := by
    intro first second twin
    have met := recover_meets twin
    generalize first.recover = outcome at met ⊢
    generalize second.recover = outcome' at met ⊢
    cases met with
    | ok same later => exact ⟨congrArg Except.ok same, later.reported⟩
    | error same alike => exact ⟨congrArg Except.error same, alike.reported⟩
  cases met with
  | ok same twin => exact ⟨congrArg Except.ok same, fun _ => recovers twin⟩
  | error same _ twin => exact ⟨congrArg Except.error same, fun goesOn => recovers (twin (goesOn _ rfl))⟩

/-- The first text has two problems, at `x` and at `09`, and so has the second one, with other names, numbers and
comments. -/
theorem parse_of_kinds_renamed :
    (Lexer.ofText 0 "f(a, 0x1f) // go\nx ; 09 ".toList).InStep True
      (Lexer.ofText 0 "call(b,7)\nlonger/* * */;08//".toList) ∧
      ∃ answer answer' parser parser', (ofText {} "f(a, 0x1f) // go\nx ; 09 ".toList {}).parse = (answer, parser) ∧
        (ofText {} "call(b,7)\nlonger/* * */;08//".toList {}).parse = (answer', parser') ∧
        answerOutline Report.outline answer = answerOutline Report.outline answer' ∧
        answerOutline id parser.recover.1 = answerOutline id parser'.recover.1 ∧
        parser.recover.2.reported = parser'.recover.2.reported := by
  have inStep : (Lexer.ofText 0 "f(a, 0x1f) // go\nx ; 09 ".toList).InStep True
      (Lexer.ofText 0 "call(b,7)\nlonger/* * */;08//".toList) := by
    refine @Lexer.inStep_of_outlines _ _ _ [.token .identifier, .token (.operator .leftParen), .token .identifier,
      .token (.operator .comma), .token (.literal .int), .token (.operator .rightParen), .token (.semicolon .newline),
      .token .identifier, .token (.semicolon .explicit), .invalid .illegal] ?_ ?_ <;> decide +kernel
  have alike := parse_of_kinds {} {} inStep rfl rfl
  exact ⟨inStep, _, _, _, _, rfl, rfl, alike.1, alike.2 fun _ _ _ => trivial⟩

end Parser

end GoPrompt
