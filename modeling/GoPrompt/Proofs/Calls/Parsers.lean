import GoPrompt.Parse.Parser
import GoPrompt.Proofs.Calls.MarkedTexts
import GoPrompt.Proofs.Calls.Statements

/-! Without its marks the marked grammar is the grammar. Most of its functions are those of the grammar by definition;
the operators of an expression, which recur, are so by induction, and with them whatever reads on behind an operand.

So it is known how deep the calls of the whole grammar go: so many on every level of nesting, and those of a text behind
them. With them it is known for a parser, in a parse and in a recovery, and that neither of them stalls. -/

namespace GoPrompt

open Parse

/-- The readers of a level, as the marked grammar takes them. -/
def Grammar.Deeper.readers (deeper : Grammar.Deeper) : Marked.Readers Parse where
  expression := deeper.expression
  unary := deeper.unary
  type := deeper.type
  literalValue := deeper.literalValue
  statement := deeper.statement
  ifStatement := deeper.ifStatement

namespace Marked

open Grammar

variable (deeper : Deeper)

private theorem binaryTail_erased (place : Place) (tightness : Nat) (left : Expression) :
    binaryTail deeper.readers place tightness left = Grammar.binaryTail deeper place tightness left := by
  unfold binaryTail Grammar.binaryTail
  refine congrArg (fun turn => Parse.iterate turn left) (funext fun left => bind_congr fun found => ?_)
  cases found with
  | none => rfl
  | some operator =>
    dsimp only
    by_cases binds : operator.precedence = 0 ∨ operator.precedence < tightness
    · rw [dif_pos binds, dif_pos binds]
    · rw [dif_neg binds, dif_neg binds]
      refine bind_congr fun _ => ?_
      show ((deeper.unary place >>= fun operand =>
        binaryTail deeper.readers place (operator.precedence + 1) operand) >>= _) = _
      rw [bind_assoc]
      refine bind_congr fun operand => ?_
      rw [binaryTail_erased place (operator.precedence + 1) operand]
termination_by 6 - tightness
decreasing_by
  have := operator.precedence_le
  omega

private theorem binary_erased (place : Place) (tightness : Nat) :
    binary deeper.readers place tightness = Grammar.binary deeper place tightness :=
  bind_congr fun operand => binaryTail_erased deeper place tightness operand

private theorem expressionFrom_erased (place : Place) (operand : Expression) :
    expressionFrom deeper.readers place operand = Grammar.expressionFrom deeper place operand :=
  bind_congr fun operand => binaryTail_erased deeper place 1 operand

private theorem functionStatement_erased (start : Span) :
    functionStatement deeper.readers start = Grammar.functionStatement deeper start := by
  unfold functionStatement functionFrom
  simp only [expressionFrom_erased]
  rfl

private theorem statementBody_erased (context : Context) :
    statementBody deeper.readers context = Grammar.statementBody deeper context := by
  unfold statementBody statementKind
  simp only [functionStatement_erased]
  rfl

theorem levels_erased (limit : Nat) (left : Nat) : levels limit left = (Grammar.levels limit left).readers := by
  induction left with
  | zero => rfl
  | succ left ih =>
    unfold levels
    simp only [ih, binary_erased, statementBody_erased]
    rfl

private theorem topLevelStatement_erased (limit : Nat) : topLevelStatement limit = Grammar.topLevelStatement limit := by
  unfold topLevelStatement
  simp only [levels_erased]
  rfl

private theorem wholeText_erased (limit : Nat) : wholeText limit = Grammar.wholeText limit := by
  unfold wholeText
  rw [topLevelStatement_erased]
  rfl

private theorem synchronize_erased : synchronize = Grammar.synchronize := rfl

end Marked

namespace Metered

open Marked
open Grammar (Context SyncStop)

/-- A level nests sixteen calls at most, from a statement down to the readers of the level below. -/
theorem levels_measure (limit left : Nat) :
    (levels limit left : Readers Metered).Measure (16 * left + 1) (levels limit left) := by
  induction left with
  | zero =>
    unfold levels
    exact
      { expression := fun _ => .call (.step (advances_beyondLimit limit))
        unary := fun _ => .call (.step (advances_beyondLimit limit))
        type := .call (.step (advances_beyondLimit limit))
        literalValue := .call (.step (advances_beyondLimit limit))
        statement := fun _ => .call (.step (advances_beyondLimit limit))
        ifStatement := .call (.step (advances_beyondLimit limit)) }
  | succ left ih =>
    unfold levels
    exact
      { expression := fun place => (binary_consumes ih place).call.mono (by omega)
        unary := fun place => (unaryBody_consumes ih place).call.mono (by omega)
        type := (typeBody_consumes ih).call.mono (by omega)
        literalValue := (literalValue_consumes ih).proceeds.call.mono (by omega)
        statement := fun context => (statementBody_proceeds ih context).call.mono (by omega)
        ifStatement := (ifBody_proceeds ih).call.mono (by omega) }

private theorem topLevelStatement_proceeds (limit : Nat) :
    Proceeds (16 * limit + 1) (topLevelStatement limit) (Grammar.topLevelStatement limit) := by
  rw [← topLevelStatement_erased]
  exact .look proceeds_get fun state =>
    ((levels_measure limit (limit - state.depth)).statement .topLevel).mono (by omega)

private theorem textEnd_proceeds {bound : Nat} (statement : Statement) :
    Proceeds bound (textEnd statement) (textEnd statement) := by
  refine .look (proceeds_peek 0) fun found => ?_
  cases found with
  | none => exact .idle
  | some token => exact .step (advances_unexpected _ _)

private theorem wholeText_proceeds (limit : Nat) :
    Proceeds (16 * limit + 2) (wholeText limit) (Grammar.wholeText limit) := by
  have statement : Proceeds (16 * limit + 1) (topLevelStatement limit) (topLevelStatement limit) := by
    rw [topLevelStatement_erased]
    exact topLevelStatement_proceeds limit
  rw [← wholeText_erased]
  refine .call (.look (proceeds_peek 0) fun found => ?_)
  cases found with
  | none => exact .step (advances_endOfInput _)
  | some first =>
    dsimp only
    split
    next => exact .step (advances_unexpected _ _)
    next =>
      refine .bind statement fun statement => .look proceeds_atSemicolon fun closed => ?_
      split
      next => exact .take consumes_bump fun _ => textEnd_proceeds statement
      next => exact textEnd_proceeds statement

private theorem synchronize_measures : Measures 1 (· = SyncStop.separator) synchronize Grammar.synchronize := by
  rw [← synchronize_erased]
  refine .call (.iterate (fun depth => .sequence (.step advances_next) fun found => ?_) 0)
  cases found with
  | none => exact .pure fun both => by cases both.1
  | some token =>
    dsimp only
    split
    next => exact .pure fun both => both.2 rfl
    next => exact .pure fun both => both.2 rfl
    next => exact .pure fun both => both.2 rfl

end Metered

namespace Parser

open Grammar (SyncStop)

def parseMetered (parser : Parser) : (Except ParseError Report × Parser) × Meter :=
  match (Marked.wholeText parser.limits.maxNesting : Metered Statement) parser.state with
  | (.ok statement state, meter) =>
    let parser := parser.withState state
    match state.stream.tail with
    | some cutoff => ((parser.reportCutoff cutoff).answer (.needMoreInput (.cutOff cutoff.construct)), meter)
    | none => (parser.answer (.complete statement), meter)
  | (.error (.needMoreInput error) state, meter) =>
    let parser := parser.withState state
    let reason := state.stream.pendingReason
    match state.stream.tail with
    | some cutoff => ((parser.reportCutoff cutoff).answer (.needMoreInput reason), meter)
    | none => ((parser.report error).answer (.needMoreInput reason), meter)
  | (.error (.rejected error) state, meter) =>
    let parser := parser.withState state
    if error.isFault then ((.error error, parser), meter)
    else ((parser.report error).answer (.syntaxError error), meter)

def recoverOnceMetered (parser : Parser) : (Except ParseError Bool × Parser) × Meter :=
  match (Marked.synchronize : Metered SyncStop) parser.state with
  | (.error (.needMoreInput error) state, meter) | (.error (.rejected error) state, meter) =>
    ((.error error, parser.withState state), meter)
  | (.ok .endOfInput state, meter) => ((.ok false, parser.withState state), meter)
  | (.ok .separator state, meter) =>
    match Parse.peek 0 state with
    | .error (.needMoreInput error) state | .error (.rejected error) state =>
        ((.error error, parser.withState state), meter)
    | .ok none state => ((.ok false, parser.withState state), meter)
    | .ok (some _) state =>
      let (result, later) := (Marked.topLevelStatement parser.limits.maxNesting : Metered Statement) state
      match result with
      | .ok _ state => ((.ok true, parser.withState state), meter.also later)
      | .error (.needMoreInput error) state => ((.ok false, (parser.withState state).report error), meter.also later)
      | .error (.rejected error) state =>
        if error.isFault then ((.error error, parser.withState state), meter.also later)
        else ((.ok true, ((parser.withState state).report error).resetDepth), meter.also later)

def recoverLoopMetered (parser : Parser) : (Except ParseError Unit × Parser) × Meter :=
  if parser.isDone then ((.ok (), parser), {})
  else
    match parser.recoverOnceMetered with
    | ((.error error, after), meter) => ((.error error, after), meter)
    | ((.ok false, after), meter) => ((.ok (), after), meter)
    | ((.ok true, after), meter) =>
      if after.state.remaining < parser.state.remaining then
        let (answer, later) := after.recoverLoopMetered
        (answer, meter.also later)
      else ((.error (.internalInvariant "recovery without progress" none), after), { meter with stalled := true })
termination_by parser.state.remaining

def recoverMetered (parser : Parser) : (Except ParseError Nat × Parser) × Meter :=
  let ((result, after), meter) := parser.resetDepth.recoverLoopMetered
  ((result.map fun () => after.reported - parser.reported, after), meter)

inductive Request where
  | parse | recover
  deriving DecidableEq, Repr

def serve (parser : Parser) : Request → Parser
  | .parse => parser.parse.2
  | .recover => parser.recover.2

/-- A parser behind some of its work has the same limits and has counted its tokens, and it may have consumed one
for sure. -/
structure Behind (before : Parser) (moved : Prop) (after : Parser) : Prop where
  limits : after.limits = before.limits
  progress : Progress before.state moved after.state

variable {parser : Parser}

/-- A turn of the recovery that may have left something to report has consumed the separator in front of it. -/
private theorem recoverOnce_measured (counts : parser.state.stream.Counts) :
    Measured (16 * parser.limits.maxNesting + 2) parser.recoverOnceMetered parser.recoverOnce ∧
      parser.Behind (parser.recoverOnce.1 = .ok true) parser.recoverOnce.2 := by
  have skipped := Metered.synchronize_measures.mono (show 1 ≤ 16 * parser.limits.maxNesting + 2 by omega)
  have measured := skipped.measured parser.state counts
  have reached := skipped.advances parser.state counts
  unfold recoverOnceMetered recoverOnce
  rcases ran : (Marked.synchronize : Metered SyncStop) parser.state with ⟨result, meter⟩
  rw [ran] at measured
  obtain ⟨rfl, within⟩ := measured
  cases ran' : Grammar.synchronize parser.state with
  | error failure state =>
    rw [ran'] at reached
    cases failure <;> exact ⟨⟨rfl, within⟩, rfl, reached.weaken fun never => by cases never⟩
  | ok stop state =>
    rw [ran'] at reached
    cases stop with
    | endOfInput => exact ⟨⟨rfl, within⟩, rfl, reached.weaken fun never => by cases never⟩
    | separator =>
      have looked := proceeds_peek 0 state reached.counts
      dsimp only
      cases found : Parse.peek 0 state with
      | error failure ready =>
        rw [found] at looked
        cases failure <;> exact ⟨⟨rfl, within⟩, rfl, reached.trans looked fun never => by cases never⟩
      | ok next ready =>
        rw [found] at looked
        have behind : Progress parser.state True ready := reached.trans looked fun _ => .inl rfl
        cases next with
        | none => exact ⟨⟨rfl, within⟩, rfl, behind.weaken fun _ => trivial⟩
        | some token =>
          have read := (Metered.topLevelStatement_proceeds parser.limits.maxNesting).mono (Nat.le_succ _)
          have measured := read.measured ready behind.counts
          have later := read.advances ready behind.counts
          dsimp only
          rcases ran : (Marked.topLevelStatement parser.limits.maxNesting : Metered Statement) ready with
            ⟨result, meter'⟩
          rw [ran] at measured
          obtain ⟨rfl, within'⟩ := measured
          have both := within.also within'
          cases ran' : Grammar.topLevelStatement parser.limits.maxNesting ready with
          | ok statement state =>
            rw [ran'] at later
            exact ⟨⟨rfl, both⟩, rfl, behind.trans later fun _ => .inl trivial⟩
          | error failure state =>
            rw [ran'] at later
            have progress : Progress parser.state True state := behind.trans later fun _ => .inl trivial
            cases failure with
            | needMoreInput error => exact ⟨⟨rfl, both⟩, rfl, progress.weaken fun _ => trivial⟩
            | rejected error =>
              dsimp only
              split
              next => exact ⟨⟨rfl, both⟩, rfl, progress.weaken fun _ => trivial⟩
              next => exact ⟨⟨rfl, both⟩, rfl, progress.counts, progress.remaining, fun _ => progress.moved trivial⟩

private theorem recoverLoop_measured (parser : Parser) (counts : parser.state.stream.Counts) :
    Measured (16 * parser.limits.maxNesting + 2) parser.recoverLoopMetered parser.recoverLoop ∧
      parser.Behind False parser.recoverLoop.2 := by
  unfold recoverLoopMetered recoverLoop
  split
  next => exact ⟨⟨rfl, Meter.within_none⟩, rfl, counts, Nat.le_refl _, False.elim⟩
  next =>
    obtain ⟨⟨same, within⟩, behind⟩ := parser.recoverOnce_measured counts
    rcases ran : parser.recoverOnceMetered with ⟨answer, meter⟩
    rw [ran] at same within
    subst same
    generalize parser.recoverOnce = answer at behind ⊢
    rcases answer with ⟨result, after⟩
    cases result with
    | error error => exact ⟨⟨rfl, within⟩, behind.limits, behind.progress.weaken False.elim⟩
    | ok more =>
      cases more with
      | false => exact ⟨⟨rfl, within⟩, behind.limits, behind.progress.weaken False.elim⟩
      | true =>
        have fewer : after.state.remaining < parser.state.remaining := behind.progress.moved rfl
        obtain ⟨later, further⟩ := recoverLoop_measured after behind.progress.counts
        rw [behind.limits] at later
        dsimp only
        rw [if_pos fewer, if_pos fewer]
        exact ⟨⟨later.result, within.also later.within⟩, further.limits.trans behind.limits,
          behind.progress.trans further.progress False.elim⟩
termination_by parser.state.remaining

private theorem recover_measured (counts : parser.state.stream.Counts) :
    Measured (16 * parser.limits.maxNesting + 2) parser.recoverMetered parser.recover ∧
    parser.Behind False parser.recover.2 := by
  obtain ⟨⟨same, within⟩, behind⟩ := parser.resetDepth.recoverLoop_measured counts
  unfold recoverMetered recover
  generalize parser.resetDepth.recoverLoopMetered = measured at same within ⊢
  rcases measured with ⟨answer, meter⟩
  subst same
  exact ⟨⟨rfl, within⟩, behind.limits, behind.progress.counts, behind.progress.remaining, False.elim⟩

private theorem parse_measured (counts : parser.state.stream.Counts) :
    Measured (16 * parser.limits.maxNesting + 2) parser.parseMetered parser.parse ∧
    parser.Behind False parser.parse.2 := by
  have whole := Metered.wholeText_proceeds parser.limits.maxNesting
  have measured := whole.measured parser.state counts
  have reached := whole.advances parser.state counts
  unfold parseMetered parse
  rcases ran : (Marked.wholeText parser.limits.maxNesting : Metered Statement) parser.state with ⟨result, meter⟩
  rw [ran] at measured
  obtain ⟨rfl, within⟩ := measured
  cases ran' : Grammar.wholeText parser.limits.maxNesting parser.state with
  | ok statement state =>
    rw [ran'] at reached
    dsimp only
    cases state.stream.tail <;> exact ⟨⟨rfl, within⟩, rfl, reached⟩
  | error failure state =>
    rw [ran'] at reached
    cases failure with
    | needMoreInput error =>
      dsimp only
      cases state.stream.tail <;> exact ⟨⟨rfl, within⟩, rfl, reached⟩
    | rejected error =>
      dsimp only
      split <;> exact ⟨⟨rfl, within⟩, rfl, reached⟩

private theorem serve_behind (request : Request) (counts : parser.state.stream.Counts) :
    parser.Behind False (parser.serve request) := by
  cases request with
  | parse => exact (parse_measured counts).2
  | recover => exact (recover_measured counts).2

private theorem serves_behind (requests : List Request) (counts : parser.state.stream.Counts) :
    parser.Behind False (requests.foldl serve parser) := by
  induction requests generalizing parser with
  | nil => exact ⟨rfl, counts, Nat.le_refl _, False.elim⟩
  | cons request later ih =>
    have once := serve_behind request counts
    have behind := ih once.progress.counts
    exact ⟨behind.limits.trans once.limits, once.progress.trans behind.progress False.elim⟩

/-- However a parser has been used, a parse and a recovery call the functions of the grammar only so deep, sixteen on
every level of nesting and for two levels more, and every repetition in them consumes a token or ends. -/
theorem calls_bounded (limits : Limits) (text : List Char) (collector : Collector) (earlier : List Request) :
    let parser := earlier.foldl serve (.ofText limits text collector)
    Measured (16 * (limits.maxNesting + 2)) parser.parseMetered parser.parse ∧
      Measured (16 * (limits.maxNesting + 2)) parser.recoverMetered parser.recover := by
  intro parser
  have behind : (Parser.ofText limits text collector).Behind False parser :=
    serves_behind earlier (TokenStream.ofText_counts text limits.maxTokens)
  have enough : 16 * parser.limits.maxNesting + 2 ≤ 16 * (limits.maxNesting + 2) := by
    rw [behind.limits]
    show 16 * limits.maxNesting + 2 ≤ _
    omega
  have parsed := (parse_measured behind.progress.counts).1
  have recovered := (recover_measured behind.progress.counts).1
  exact ⟨⟨parsed.result, parsed.within.mono enough⟩, recovered.result, recovered.within.mono enough⟩

/-- A name in parentheses enters five levels. -/
example : (Parser.ofText { maxNesting := 8 } ['(', 'x', ')'] {}).parseMetered.2 = { deepest := 20 } := by decide +kernel

end Parser

end GoPrompt
