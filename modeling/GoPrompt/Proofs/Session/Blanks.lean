import GoPrompt.Proofs.Classification.Emptiness
import GoPrompt.Proofs.Classification.Rejection
import GoPrompt.Proofs.Lexical.LineEnds
import GoPrompt.Proofs.Session.Blocks

/-! A blank line at a fresh prompt. The prompt skips it for the blanks that a text is trimmed of, the lexer for its
own, which are fewer: the two agree on the lines of spaces, tabs, carriage returns and newlines, and on no others. -/

namespace GoPrompt

open Parse

private theorem encoded_of_blanks {text : List Char} (blank : ∀ c ∈ text, Unicode.isBlank c = true) : Encoded text :=
  encoded_iff.mpr ⟨fun nul => ne_of_blank (blank _ nul) (by decide) rfl,
    fun mark => ne_of_blank (blank _ (List.mem_of_mem_tail mark)) (by decide) rfl⟩

private theorem Lexer.next_blanks {text : List Char} (blank : ∀ c ∈ text, isBlank c = true)
    (fits : byteSize text ≤ maxOffset) :
    ∃ after, (Lexer.ofText 0 text).next = (.ok .endOfInput, after) := by
  have skipped := gap_skips_blanks blank 0 []
  rw [List.append_nil] at skipped
  have blank' : ∀ c ∈ text, Unicode.isBlank c = true := fun c mem => unicode_isBlank (blank c mem)
  have reads : Lexer.Reads ⟨0, text, 0, false⟩ .endOfInput _ := .ended skipped rfl
  rw [← ofText_blanks blank' 0] at reads
  exact ⟨_, reads.next (ofText_sound (encoded_of_blanks blank') fits)⟩

private theorem Lexer.reads_unknown_blank {before : List Char} {c : Char} (blank : ∀ d ∈ before, isBlank d = true)
    (blank' : Unicode.isBlank c = true) (unknown : isBlank c = false) (source : Nat) (after : List Char) :
    ∃ token diagnostic lexer, Lexer.Reads ⟨source, before ++ c :: after, 0, false⟩ (.invalid token diagnostic) lexer ∧
      token.kind = .illegal ∧ token.span = Span.ofLength source (byteSize before) c.utf8Size := by
  have skipped : gap false 0 0 (before ++ c :: after) = (before.length, .token c) := by
    rw [gap_skips_blanks blank, gap_unknown_blank blank' unknown, Nat.zero_add]
  have here : (before ++ c :: after).drop before.length = c :: after := List.drop_left
  obtain ⟨flaw, scanned⟩ := scanToken_blank blank' after
  refine ⟨_, _, _, .invalid skipped here scanned, rfl, ?_⟩
  simp [Lexer.token, Lexer.span, Lexer.skip]

/-- A text without a token needs more input because it is empty, whatever the budgets are. -/
private theorem classifySource_empty (limits : Limits) {text : List Char} (encoded : Encoded text)
    (fits : byteSize text ≤ maxOffset) {lexer : Lexer} (read : (Lexer.ofText 0 text).next = (.ok .endOfInput, lexer)) :
    ∃ classification, classifySource limits text = .ok classification ∧
      classification.answer = .needMoreInput ∧ classification.pending = some .emptyInput := by
  obtain ⟨stream, peeked, whole, reason⟩ := TokenStream.peek_ended limits.forClassification.maxTokens read rfl
  let reached : ParseState := { ParseState.ofText limits.forClassification text with stream := stream }
  have looked : peek 0 (.ofText limits.forClassification text) = .ok none reached := onStream_ok peeked
  have ran : ∃ error, Grammar.wholeText limits.forClassification.maxNesting (.ofText limits.forClassification text) =
      .error (.needMoreInput error) reached :=
        ⟨_, by rw [Grammar.wholeText, bind_ok looked]; exact endOfInput_run reached ["statement"]⟩
  obtain ⟨error, ran⟩ := ran
  rcases Parser.parse_consistent { limit := some limits.forClassification.maxDiagnostics } encoded fits with
    ⟨_, _, failed, _⟩ | ⟨report, parser, parsed, consistent⟩
  · obtain ⟨_, ran'⟩ := Parser.parse_fault failed
    cases ran.symm.trans ran'
  · have concludes := Parser.parse_concludes parsed
    rw [ran] at concludes
    have verdict : report.verdict = .needMoreInput .emptyInput :=
      concludes.trans (congrArg Verdict.needMoreInput (reason whole))
    obtain ⟨classification, answered, -, tells⟩ := classifySource_of_parse parsed consistent
    rw [verdict] at tells
    exact ⟨classification, answered, tells.1, tells.2.2⟩

namespace Grammar

variable {steps : List LexStep} {maxTokens number : Nat} {start state : ParseState} {token : Token}

/-- A statement cannot begin with an illegal token. Three levels are enough to find that out: those of the statement, of
the expression, and of its operand. -/
private theorem wholeText_illegal (left : Nat) (first : peek 0 start = .ok (some token) state)
    (seen : state.stream.Seen steps maxTokens number (some token)) (illegal : token.kind = .illegal)
    (shallow : start.depth = 0) :
    ∃ error, wholeText (left + 3) start = .error (.rejected error) state ∧ error.Blames token := by
  have written : ¬ token.IsInserted := fun inserted => by cases illegal.symm.trans inserted
  obtain ⟨-, error, rejected, blames⟩ :=
    (unexpected_seen (α := Shape) seen ["expression"]).resolve_left fun wanted => written wanted.1
  have looked : peek 0 state = .ok (some token) state := onStream_ok (TokenStream.peek_front (by rw [seen.front]; rfl))
  have notOperator : token.operator? = none := by rw [Token.operator?, illegal]; rfl
  have operand : ∀ deeper, Grammar.operand deeper state = .error (.rejected error) state := by
    intro deeper
    rw [Grammar.operand, bind_ok looked]
    refine bind_error ?_
    simp only [operandShape, illegal, rejected]
  have unary : ∀ deeper, unaryBody deeper .free state = .error (.rejected error) state := by
    intro deeper
    rw [unaryBody, bind_ok looked]
    simp only [notOperator, Option.any_none, Bool.false_eq_true, ↓reduceIte, reduceCtorEq]
    exact bind_error (operand deeper)
  have expression : binary (levels (left + 3) (left + 1)) .free 1 state = .error (.rejected error) state :=
    bind_error (unary (levels (left + 3) left))
  have simple : simpleStatement (levels (left + 3) (left + 2)) .free .statement state =
      .error (.rejected error) state := by
    simp only [simpleStatement, reduceCtorEq, ↓reduceIte, pure_bind, Bool.false_eq_true]
    exact bind_error (bind_error expression)
  have statement : topLevelStatement (left + 3) state = .error (.rejected error) state := by
    rw [topLevelStatement, peek_depth first, shallow]
    show statementBody (levels (left + 3) (left + 2)) .topLevel state = _
    rw [statementBody, bind_ok looked]
    refine bind_error ?_
    simp only [statementKind, illegal]
    exact bind_error simple
  refine ⟨error, ?_, blames⟩
  rw [wholeText, bind_ok first]
  simp only [isSemicolon, illegal, Bool.false_eq_true, ↓reduceIte]
  exact bind_error statement

end Grammar

/-- A text that begins with an illegal token is rejected there, if the budgets have room for a token and its levels. -/
private theorem Scans.rejects_first {text : List Char} {steps : List LexStep} (scans : Scans text steps)
    (limits : Limits) {token : Token} (there : tokenAt steps 0 = some token) (illegal : token.kind = .illegal)
    (room : 0 < limits.maxTokens) (levels : 3 ≤ limits.maxNesting) : Rejects limits text steps 0 token := by
  rcases peek_settled (scans.settled limits) with ⟨full, _⟩ | ⟨reached, first, seen⟩
  · exact absurd full (Nat.not_le_of_lt room)
  · rw [there] at first seen
    obtain ⟨left, enough⟩ := Nat.exists_eq_add_of_le' levels
    obtain ⟨error, ran, blames⟩ := Grammar.wholeText_illegal left first seen illegal rfl
    rw [← enough] at ran
    have written : ¬ token.IsInserted := fun inserted => by cases illegal.symm.trans inserted
    exact ⟨written, error, reached, blames, ran, seen⟩

section

variable (limits : Limits) {line : String} (blank : ∀ c ∈ line.toList, Unicode.isBlank c = true)
  (fits : byteSize line.toList ≤ maxOffset)
include blank fits

private theorem classify_blankLine : classify limits line = classifySource limits line.toList := by
  rcases classify_cases limits line fits with ⟨_, same⟩ | ⟨_, _, _, offence, _, _⟩
  · exact same
  · exact absurd (encoded_of_blanks blank) offence.not_encoded

private theorem classify_known_blanks (known : ∀ c ∈ line.toList, isBlank c = true) :
    ∃ classification, classify limits line = .ok classification ∧ classification.answer = .needMoreInput ∧
      classification.pending = some .emptyInput := by
  obtain ⟨after, read⟩ := Lexer.next_blanks known fits
  rw [classify_blankLine limits blank fits]
  exact classifySource_empty limits (encoded_of_blanks blank) fits read

/-- A line with another blank is rejected at the first one of these, or a budget has no room for it. -/
private theorem classify_unknown_blank {before after : List Char} {c : Char} (splits : line.toList = before ++ c :: after)
    (known : ∀ d ∈ before, isBlank d = true) (unknown : isBlank c = false) :
    (∃ error, classify limits line = .error (.internal (.parser error)) ∧ error.IsBudget ∧
        (limits.maxTokens = 0 ∨ limits.maxNesting < 3)) ∨
      ∃ classification diagnostic, classify limits line = .ok classification ∧ classification.answer = .syntaxError ∧
        classification.diagnostics.head? = some diagnostic ∧ diagnostic.span = Span.ofLength 0 (byteSize before) c.utf8Size := by
  rw [classify_blankLine limits blank fits]
  have encoded := encoded_of_blanks blank
  have start := Lexer.ofText_blanks blank 0
  have blank' : Unicode.isBlank c = true := blank c (by rw [splits]; simp)
  obtain ⟨token, diagnostic, reached, reads, illegal, span⟩ := Lexer.reads_unknown_blank known blank' unknown 0 after
  rw [← splits, ← start] at reads
  have sound : (Lexer.ofText 0 line.toList).Sound := Lexer.ofText_sound encoded fits
  obtain ⟨later, lexes⟩ := (reads.sound sound).lexes
  have scans : Scans line.toList (.invalid token diagnostic :: later) := ⟨encoded, fits, .more reads rfl lexes⟩
  have there : tokenAt (.invalid token diagnostic :: later) 0 = some token := rfl
  by_cases room : 0 < limits.maxTokens ∧ 3 ≤ limits.maxNesting
  · have levels : 3 ≤ limits.forClassification.maxNesting := Nat.le_min.mpr ⟨room.2, by decide⟩
    obtain ⟨classification, diagnostic, _, answered, wrong, first, place, -⟩ :=
      (scans.rejects_first limits.forClassification there illegal room.1 levels).answer
    exact .inr ⟨classification, diagnostic, answered, wrong, first, place.trans span⟩
  · rcases @Scans.stops_at_illegal limits.forClassification _ _ scans _ _ there illegal with
      ⟨error, after, ran, spent⟩ | ⟨earlier, found, within, rejects⟩
    · exact .inl ⟨error, classifySource_budget spent.isBudget ran, spent.isBudget, by omega⟩
    · obtain rfl := Nat.le_zero.mp within
      obtain rfl := Option.some.inj (there.symm.trans rejects.isNext)
      obtain ⟨classification, diagnostic, _, answered, wrong, first, place, -⟩ := rejects.answer
      exact .inr ⟨classification, diagnostic, answered, wrong, first, place.trans span⟩

end

namespace Repl

variable {σ : Type}

private theorem extended_fresh {repl : Repl σ} (fresh : repl.buffer = "") (line : String) :
    repl.extended line = line := by
  rw [extended, repl.isContinuing_eq_false.mpr fresh, if_neg Bool.false_ne_true]

private theorem setBuffer_fresh {repl : Repl σ} (fresh : repl.buffer = "") : repl.setBuffer "" = repl := by
  rw [← fresh]
  rfl

private theorem judge_dropped_iff {repl : Repl σ} (fresh : repl.buffer = "") (line : String) :
    repl.judge line = (none, repl) ↔
    ∃ classification, classify repl.config.limits line = .ok classification ∧ classification.answer = .needMoreInput ∧
      classification.pending = some .emptyInput := by
  unfold judge
  rw [extended_fresh fresh, setBuffer_fresh fresh]
  cases classified : classify repl.config.limits line with
  | error => simp
  | ok classification =>
    cases answer : classification.answer with
    | needMoreInput => by_cases empty : classification.pending = some .emptyInput <;> simp [answer, empty]
    | syntaxError | complete => simp [answer]

/-- A blank line is skipped at a fresh prompt. Its classification agrees with that exactly if the line holds nothing but
spaces, tabs, carriage returns and newlines: then it is empty, and the prompt drops it as well. Any other blank, such as
a form feed or a no-break space, is rejected where it stands, unless a budget has no room to get there. -/
theorem blankLine_judged (limits : Limits) (line : String) (blank : ({ text := line.toList } : Fragment).isBlank = true)
    (fits : byteSize line.toList ≤ maxOffset) :
    ((∃ classification, classify limits line = .ok classification ∧ classification.answer = .needMoreInput ∧
        classification.pending = some .emptyInput) ↔ ∀ c ∈ line.toList, c = ' ' ∨ c = '\t' ∨ c = '\r' ∨ c = '\n') ∧
      (∀ before c after, line.toList = before ++ c :: after → (∀ d ∈ before, GoPrompt.isBlank d = true) →
        GoPrompt.isBlank c = false →
        (∃ error, classify limits line = .error (.internal (.parser error)) ∧ error.IsBudget ∧
            (limits.maxTokens = 0 ∨ limits.maxNesting < 3)) ∨
          ∃ classification diagnostic, classify limits line = .ok classification ∧
          classification.answer = .syntaxError ∧
            classification.diagnostics.head? = some diagnostic ∧
              diagnostic.span = Span.ofLength 0 (byteSize before) c.utf8Size) ∧
      ∀ {σ : Type} (repl : Repl σ), repl.buffer = "" → repl.config.limits = limits →
      repl.acceptLine line = (none, repl) ∧
        (repl.judge line = (none, repl) ↔ ∀ c ∈ line.toList, c = ' ' ∨ c = '\t' ∨ c = '\r' ∨ c = '\n') := by
  have blanks : ∀ c ∈ line.toList, Unicode.isBlank c = true := isBlankLine_iff.mp blank
  have agrees : (∃ classification, classify limits line = .ok classification ∧ classification.answer = .needMoreInput ∧
      classification.pending = some .emptyInput) ↔ ∀ c ∈ line.toList, c = ' ' ∨ c = '\t' ∨ c = '\r' ∨ c = '\n' := by
    simp only [← isBlank_iff]
    refine ⟨fun ⟨classification, answered, wanting, _⟩ => ?_, classify_known_blanks limits blanks fits⟩
    refine Decidable.byContradiction fun mixed => ?_
    obtain ⟨before, c, after, splits, known, unknown⟩ := exists_first_of_not mixed
    rcases classify_unknown_blank limits blanks fits splits known unknown with
      ⟨_, failed, _⟩ | ⟨_, _, answered', wrong, _⟩
    · cases answered.symm.trans failed
    · cases answered.symm.trans answered'
      cases wanting.symm.trans wrong
  refine ⟨agrees, fun _ _ _ => classify_unknown_blank limits blanks fits, fun repl fresh same => ⟨?_, ?_⟩⟩
  · have trimmed : Text.trim line.toList = [] := List.isEmpty_iff.mp blank
    exact acceptLine_blank (by simp [Takes, fresh, isContinuing, trimmed])
  · rw [judge_dropped_iff fresh, same]
    exact agrees

/-- A line of a space and a tab is empty, within any budgets. -/
theorem blankLine_judged_tab :
    ({ text := " \t".toList } : Fragment).isBlank = true ∧ byteSize " \t".toList ≤ maxOffset ∧
    ∃ classification, classify { maxNesting := 0, maxTokens := 0 } " \t" = .ok classification ∧
      classification.answer = .needMoreInput ∧ classification.pending = some .emptyInput := by
  have blank : ({ text := " \t".toList } : Fragment).isBlank = true := by decide
  have fits : byteSize " \t".toList ≤ maxOffset := by decide
  exact ⟨blank, fits, (blankLine_judged { maxNesting := 0, maxTokens := 0 } " \t" blank fits).1.mpr (by simp)⟩

/-- A form feed is blank, and skipped, but it is classified as a syntax error, and a session that judges it
tells that. -/
theorem blankLine_formFeed : ({ text := "\x0c".toList } : Fragment).isBlank = true ∧
    (∃ classification, classify {} "\x0c" = .ok classification ∧ classification.answer = .syntaxError) ∧
    ((start {} Evaluator.echo ()).acceptLine "\x0c").1 = none ∧
    ((start {} Evaluator.echo ()).judge "\x0c").1 ≠ none := by
  obtain ⟨classification, answered, wrong⟩ := answered_of_decide
    (show (classify {} "\x0c").toOption.any (·.answer == .syntaxError) = true by decide +kernel)
  have wrong := beq_iff_eq.mp wrong
  refine ⟨by decide, ⟨classification, answered, wrong⟩, by decide, ?_⟩
  have judged : classify (start {} Evaluator.echo ()).config.limits ((start {} Evaluator.echo ()).extended "\x0c") =
      .ok classification :=
    answered
  simp [judge, judged, wrong]

end Repl

end GoPrompt
