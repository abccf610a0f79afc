import GoPrompt.Proofs.Classification.Boundary
import GoPrompt.Proofs.Classification.Budgets
import GoPrompt.Proofs.Runs.Parallel

/-! A carriage return in front of every newline does not change how a text is classified: the answer is the same, or the
classification fails for the same reason. -/

namespace GoPrompt

open Parse

/-- Classifications that say the same, but for places in the text, or fail with errors of the same kind. -/
inductive SameOutcome : Except ClassifyError Classification → Except ClassifyError Classification → Prop
  | answered {first second : Classification} (answer : first.answer = second.answer)
      (statement : first.statement = second.statement) (pending : first.pending = second.pending)
      (tokensScanned : first.tokensScanned = second.tokensScanned) :
      SameOutcome (.ok first) (.ok second)
  | malformed {diagnostic diagnostic' : LexDiagnostic} (code : diagnostic.code = diagnostic'.code) :
      SameOutcome (.error (.malformed diagnostic)) (.error (.malformed diagnostic'))
  | internal {error error' : ParseError} (kind : error.kind = error'.kind) :
      SameOutcome (.error (.internal (.parser error))) (.error (.internal (.parser error')))

/-- Checks of the encoding that accept their texts, or refuse them because of the same character. -/
inductive SameCheck : Except LexFault Unit → Except LexFault Unit → Prop
  | accepted : SameCheck (.ok ()) (.ok ())
  | refused (cause : LexCause) (span span' : Span) :
      SameCheck (.error (.malformed (cause.diagnostic [] span))) (.error (.malformed (cause.diagnostic [] span')))

private theorem checkEncodingFrom_skip {c : Char} (notNul : c ≠ '\x00') (notMark : c ≠ byteOrderMark)
    (source offset : Nat) (rest : List Char) :
    checkEncodingFrom source offset (c :: rest) = checkEncodingFrom source (offset + c.utf8Size) rest := by
  rw [checkEncodingFrom, if_neg notNul, if_neg fun mark => notMark mark.1]

private theorem checkEncodingFrom_parallel (source : Nat) {offset offset' : Nat} (begun : 0 < offset ↔ 0 < offset')
    (text : List Char) :
    SameCheck (checkEncodingFrom source offset text) (checkEncodingFrom source offset' (withReturns text)) := by
  induction text generalizing offset offset' with
  | nil => exact .accepted
  | cons c rest ih =>
    have positive := c.utf8Size_pos
    by_cases newline : c = '\n'
    · subst newline
      rw [withReturns_newline, checkEncodingFrom_skip (by decide) (by decide),
        checkEncodingFrom_skip (by decide) (by decide), checkEncodingFrom_skip (by decide) (by decide)]
      exact ih ⟨fun _ => by omega, fun _ => by omega⟩
    · rw [withReturns_cons newline, checkEncodingFrom, checkEncodingFrom]
      simp only [begun]
      split
      next => exact .refused _ _ _
      next =>
        split
        next => exact .refused _ _ _
        next => exact ih ⟨fun _ => by omega, fun _ => by omega⟩

/-- The answer that a run of the grammar over a whole text leads to, with the kind of the statement and the reason to
need more input. -/
def outcomeOf : EStateM.Result Failure ParseState Statement → Answer × Option StatementKind × Option PendingReason
  | .ok statement after => match after.stream.tail with
    | some cutoff => (.needMoreInput, none, some (.cutOff cutoff.construct))
    | none => (.complete, some statement.kind, none)
  | .error (.needMoreInput _) after => (.needMoreInput, none, some after.stream.pendingReason)
  | .error (.rejected _) _ => (.syntaxError, none, none)

section

variable {limits : Limits} {text text' : List Char} {steps steps' : List LexStep}

variable (limits) in
private theorem Scans.told (scans : Scans text steps)
    (spared : ∀ error after, Grammar.wholeText limits.forClassification.maxNesting (.ofText limits.forClassification text) =
      .error (.rejected error) after → ¬ error.IsBudget) :
    ∃ classification, classifySource limits text = .ok classification ∧
      (classification.answer, classification.statement, classification.pending) =
        outcomeOf (Grammar.wholeText limits.forClassification.maxNesting (.ofText limits.forClassification text)) ∧
      classification.tokensScanned =
        (ended (Grammar.wholeText limits.forClassification.maxNesting (.ofText limits.forClassification text))).stream.scanned := by
  obtain ⟨report, parser, classification, parsed, answered, tells⟩ := scans.answers spared
  refine ⟨classification, answered, ?_, (classifySource_run answered).2⟩
  have concludes := Parser.parse_concludes parsed
  obtain ⟨-, tells⟩ := tells
  cases ran : Grammar.wholeText limits.forClassification.maxNesting (.ofText limits.forClassification text) with
  | ok statement after =>
    rw [ran] at concludes
    obtain ⟨-, verdict⟩ := concludes
    rw [verdict] at tells
    unfold outcomeOf
    cases tail : after.stream.tail <;> simp only [tail] at tells ⊢ <;> simp only [tells]
  | error failure after =>
    rw [ran] at concludes
    cases failure with
    | needMoreInput error =>
      rw [show report.verdict = _ from concludes] at tells
      simp only [outcomeOf, tells]
    | rejected error =>
      rw [concludes.2] at tells
      simp only [outcomeOf, tells]

/-- Texts with the same tokens are classified alike. -/
private theorem Scans.sameOutcome (scans : Scans text steps) (scans' : Scans text' steps')
    (parallel : InParallel steps steps') :
    SameOutcome (classifySource limits text) (classifySource limits text') := by
  have start : (Coupling.parallel steps steps' limits.maxTokens).settled 0 (.ofText limits.forClassification text)
      (.ofText limits.forClassification text') :=
    ⟨scans.settled limits.forClassification, scans'.settled limits.forClassification, ⟨rfl, rfl⟩, rfl⟩
  have outcome := Grammar.wholeText_outcome (Coupling.parallel_lawful parallel scans.lexes scans'.lexes)
    limits.forClassification.maxNesting start rfl rfl
  have matched := outcome.resolve_left fun ⟨lost, _⟩ => by
    revert lost
    cases Grammar.wholeText limits.forClassification.maxNesting (.ofText limits.forClassification text) <;> exact id
  -- Where no budget is used up, it is enough that both runs conclude the same.
  have answered : ∀ {run run' : EStateM.Result Failure ParseState Statement},
      Grammar.wholeText limits.forClassification.maxNesting (.ofText limits.forClassification text) = run →
      Grammar.wholeText limits.forClassification.maxNesting (.ofText limits.forClassification text') = run' →
      Conclusive run → Conclusive run' → outcomeOf run = outcomeOf run' →
      (ended run).stream.scanned = (ended run').stream.scanned →
      SameOutcome (classifySource limits text) (classifySource limits text') := by
    rintro _ _ rfl rfl conclusive conclusive' same scanned
    obtain ⟨first, isFirst, concludes, count⟩ := scans.told limits fun error after ran budget => by
      rw [ran] at conclusive
      cases conclusive.symm.trans budget.isFault
    obtain ⟨second, isSecond, concludes', count'⟩ := scans'.told limits fun error after ran budget => by
      rw [ran] at conclusive'
      cases conclusive'.symm.trans budget.isFault
    rw [← concludes, ← concludes', Prod.mk.injEq, Prod.mk.injEq] at same
    rw [isFirst, isSecond]
    exact .answered same.1 same.2.1 same.2.2 (count.trans (scanned.trans count'.symm))
  cases ran : Grammar.wholeText limits.forClassification.maxNesting (.ofText limits.forClassification text) with
  | ok statement after =>
    cases ran' : Grammar.wholeText limits.forClassification.maxNesting (.ofText limits.forClassification text') with
    | error => simp only [ran, ran', Coupling.Matches] at matched
    | ok statement' after' =>
      simp only [ran, ran', Coupling.Matches] at matched
      obtain ⟨kind, number, -, seen, seen', paired⟩ := matched
      have kind : statement.kind = statement'.kind := kind
      have tails := seen.construct_eq scans.lexes scans'.lexes parallel seen'
      refine answered ran ran' trivial trivial ?_ paired.scanned
      cases tail : after.stream.tail <;> cases tail' : after'.stream.tail <;> simp_all [outcomeOf]
  | error failure after =>
    cases ran' : Grammar.wholeText limits.forClassification.maxNesting (.ofText limits.forClassification text') with
    | ok => simp only [ran, ran', Coupling.Matches] at matched
    | error failure' after' =>
      simp only [ran, ran', Coupling.Matches] at matched
      cases matched with
      | budget _ _ spent kind =>
        have spent' := spent
        rw [ParseError.IsBudget, kind] at spent'
        rw [classifySource_budget spent ran, classifySource_budget spent' ran']
        exact .internal kind
      | rejected noFault noFault' scanned => exact answered ran ran' noFault noFault' rfl scanned
      | wanted scanned pending =>
        exact answered ran ran' trivial trivial (by rw [outcomeOf, outcomeOf, pending]) scanned

end

/-- Line ends with a carriage return say the same as line ends without. With one in front of every newline a text has
the same answer, the same kind of statement, the same reason to need more input and as many tokens, or fails for the
same reason. -/
theorem classify_withReturns (limits : Limits) (text : String) (fits : byteSize text.toList < 0x80000000) :
    SameOutcome (classify limits text) (classify limits (String.ofList (withReturns text.toList))) := by
  have doubled := byteSize_withReturns_le text.toList
  have within : byteSize text.toList ≤ maxOffset := by
    unfold maxOffset
    omega
  have within' : byteSize (withReturns text.toList) ≤ maxOffset := by
    unfold maxOffset
    omega
  have checks : SameCheck (checkEncoding 0 text.toList) (checkEncoding 0 (withReturns text.toList)) :=
    checkEncodingFrom_parallel 0 Iff.rfl text.toList
  have source : ∀ chars : List Char, ({ text := chars } : Fragment).source = chars := fun _ => rfl
  rw [classify, classify, Fragment.classify, Fragment.classify, String.toList_ofList, source, source]
  rcases checkEncoding_first within with ⟨checked, encoded⟩ | ⟨_, _, diagnostic, -, checked, -⟩
  · rcases checkEncoding_first within' with ⟨checked', encoded'⟩ | ⟨_, _, diagnostic', -, checked', -⟩
    · rw [checked, checked']
      obtain ⟨steps, scans⟩ := encoded.scans within
      obtain ⟨steps', lexes', parallel⟩ :=
        scans.lexes.parallel (Lexer.ofText_parallel 0 text.toList) (Lexer.ofText_sound encoded' within')
      exact scans.sameOutcome ⟨encoded', within', lexes'⟩ parallel
    · rw [checked, checked'] at checks
      cases checks
  · generalize checkEncoding 0 (withReturns text.toList) = check at checks
    rw [checked] at checks ⊢
    cases checks with
    | refused cause span span' => exact .malformed rfl

/-- A block over three lines is complete with either kind of line ends. -/
theorem classify_withReturns_block : byteSize "if x \x7b\n\tf()\n\x7d\n".toList < 0x80000000 ∧
    SameOutcome (classify {} "if x \x7b\n\tf()\n\x7d\n") (classify {} "if x \x7b\r\n\tf()\r\n\x7d\r\n") :=
  ⟨by decide, classify_withReturns {} "if x \x7b\n\tf()\n\x7d\n" (by decide)⟩

end GoPrompt
