import GoPrompt.Proofs.Completion.Texts
import GoPrompt.Proofs.Runs.Budgets
import GoPrompt.Proofs.Syntax.Behind

/-! A text that needs more input can be finished. More tokens make a statement of it, unless a clause of a control
statement in it has become something other than an expression, which the parser finds out behind the clause only. -/

namespace GoPrompt

open Parse Grammar

namespace Parser

/-- With budgets that suffice, the text is a statement. -/
def Completes (text : List Char) : Prop :=
  ∃ enough, ∀ (limits : Limits) (collector : Collector), enough ≤ limits.maxNesting → enough ≤ limits.maxTokens →
    ∃ statement report parser, (ofText limits text collector).parse = (.ok report, parser) ∧
      report.verdict = .complete statement

/-- With budgets that suffice, a clause of the text is rejected, whatever words follow. -/
def FailsClause (text : List Char) : Prop :=
  ∃ enough, ∀ (limits : Limits) (collector : Collector) (words : List Word),
    byteSize (text ++ Word.behind words) ≤ maxOffset →
    enough ≤ limits.maxNesting → enough + words.length ≤ limits.maxTokens →
    ∃ error report parser, (ofText limits (text ++ Word.behind words) collector).parse = (.ok report, parser) ∧
      report.verdict = .syntaxError error ∧ error.IsClauseCheck

end Parser

theorem ParseError.IsClauseCheck.not_isFault {error : ParseError} (isCheck : error.IsClauseCheck) :
    error.isFault = false := by
  simp [ParseError.isFault, isCheck.1, ParseErrorKind.isFault]

namespace Word

private theorem exists_finishing {kind : TokenKind} (finishes : kind ∈ finishing) :
    ∃ word : Word, word.kind = kind ∧ byteSize word.lexeme ≤ 4 := by
  simp only [finishing, List.mem_cons, List.not_mem_nil, or_false] at finishes
  rcases finishes with rfl | rfl | rfl | rfl | rfl | rfl | rfl | rfl | rfl | rfl | rfl | rfl
  · exact ⟨⟨.identifier, ['x'], by decide +kernel, by decide⟩, rfl, by decide⟩
  · exact ⟨⟨.literal .string, ['"', '"'], by decide +kernel, by decide⟩, rfl, by decide⟩
  · exact ⟨keyword .chan, rfl, by decide⟩
  · exact ⟨semicolon, rfl, by decide⟩
  all_goals exact ⟨operator _, rfl, by decide⟩

private theorem behind_append (words later : List Word) : behind (words ++ later) = behind words ++ behind later := by
  induction words with
  | nil => rfl
  | cons word words ih => simp only [List.cons_append, behind, ih, List.append_assoc]

theorem exists_words {kinds : List TokenKind} (plain : kinds ⊆ finishing) :
    ∃ words : List Word, words.map (·.kind) = kinds ∧ byteSize (behind words) ≤ 5 * kinds.length := by
  induction kinds with
  | nil => exact ⟨[], rfl, Nat.zero_le _⟩
  | cons kind kinds ih =>
    obtain ⟨finishes, plain⟩ := List.cons_subset.mp plain
    obtain ⟨word, isKind, short⟩ := exists_finishing finishes
    obtain ⟨words, areKinds, within⟩ := ih plain
    refine ⟨word :: words, by rw [List.map_cons, isKind, areKinds], ?_⟩
    rw [behind, byteSize_cons, byteSize_append, List.length_cons]
    have space : ' '.utf8Size = 1 := rfl
    omega

end Word

section

variable {limits : Limits} {text : List Char} {collector : Collector} {kinds ending : List TokenKind}

private theorem Parser.parse_wanting {error : ParseError} {after : ParseState} (collector : Collector)
    (ran : wholeText limits.maxNesting (.ofText limits text) = .error (.needMoreInput error) after)
    (whole : after.stream.tail = none) :
    ∃ report parser reason, (ofText limits text collector).parse = (.ok report, parser) ∧
    report.verdict = .needMoreInput reason ∧
      parser.state.stream.tail = none := by
  obtain ⟨report, parser, reason, parsed, -, verdict⟩ := parse_wanted collector ran
  have isState := parse_ended parsed
  rw [ran] at isState
  exact ⟨report, parser, reason, parsed, verdict, isState ▸ whole⟩

private theorem Parser.parse_whole {statement : Statement} {after : ParseState} (collector : Collector)
    (ran : wholeText limits.maxNesting (.ofText limits text) = .ok statement after) (whole : after.stream.tail = none) :
    ∃ report parser, (ofText limits text collector).parse = (.ok report, parser) ∧
    report.verdict = .complete statement := by
  obtain ⟨report, parser, parsed, -⟩ := parse_reduced collector ran
  have concludes := parse_concludes parsed
  rw [ran, Report.Concludes, whole] at concludes
  exact ⟨report, parser, parsed, concludes.2⟩

theorem EndsBetween.supplied (ends : EndsBetween text kinds ending) (limits : Limits)
    (room : kinds.length + 1 ≤ limits.maxTokens) :
    ∃ supply : Supply, supply.nesting = limits.maxNesting ∧ supply.Ahead (kinds ++ ending) (.ofText limits text) := by
  obtain ⟨tokens, scans, areKinds⟩ := ends.reads
  have count := congrArg List.length areKinds
  have short : ending.length ≤ 1 := by rcases ends.isEnding with rfl | ⟨rfl, -⟩ <;> simp
  rw [List.length_map, List.length_append] at count
  obtain ⟨supply, nesting, ahead⟩ := scans.supplied limits (by omega)
  exact ⟨supply, nesting, areKinds ▸ ahead⟩

theorem TakesWords.supplied (takes : TakesWords text kinds) (limits : Limits) {words : List Word}
    (fits : byteSize (text ++ Word.behind words) ≤ maxOffset)
    (room : kinds.length + words.length + 1 ≤ limits.maxTokens) :
    ∃ (supply : Supply) (ending : List TokenKind), supply.nesting = limits.maxNesting ∧ Word.IsEnding ending ∧
      supply.Ahead (kinds ++ (words.map (·.kind) ++ ending)) (.ofText limits (text ++ Word.behind words)) := by
  obtain ⟨tokens, ending, scans, areKinds, isEnding⟩ := takes words fits
  have count := congrArg List.length areKinds
  have short : ending.length ≤ 1 := by rcases isEnding with rfl | rfl <;> simp
  rw [List.length_map, List.length_append, List.length_append, List.length_map] at count
  obtain ⟨supply, nesting, ahead⟩ := scans.supplied limits (by omega)
  exact ⟨supply, ending, nesting, isEnding, areKinds ▸ ahead⟩

theorem TakesWords.completes (takes : TakesWords text kinds) {words : List Word}
    (fits : byteSize (text ++ Word.behind words) ≤ maxOffset)
    (passes : TextPasses (kinds ++ words.map (·.kind)) Word.IsEnding) :
    Parser.Completes (text ++ Word.behind words) := by
  obtain ⟨level, passes⟩ := passes
  refine ⟨level + (kinds.length + words.length + 1), fun limits collector deep room => ?_⟩
  obtain ⟨supply, ending, nesting, isEnding, ahead⟩ := takes.supplied limits fits (by omega)
  rw [← List.append_assoc] at ahead
  obtain ⟨statement, after, ran, nothing⟩ := passes supply ending _ (by omega) rfl isEnding ahead
  rw [nesting] at ran
  obtain ⟨report, parser, parsed, verdict⟩ := Parser.parse_whole collector ran nothing.tail_eq_none
  exact ⟨statement, report, parser, parsed, verdict⟩

private theorem TakesWords.failsClause (takes : TakesWords text kinds) {words : List Word}
    (refuses : TextRefuses (kinds ++ words.map (·.kind)) ParseError.IsClauseCheck) :
    Parser.FailsClause (text ++ Word.behind words) := by
  obtain ⟨level, refuses⟩ := refuses
  refine ⟨level + (kinds.length + words.length + 1), fun limits collector later fits deep room => ?_⟩
  rw [List.append_assoc, ← Word.behind_append] at fits ⊢
  obtain ⟨supply, ending, nesting, isEnding, ahead⟩ := takes.supplied limits fits (by rw [List.length_append]; omega)
  rw [List.map_append, List.append_assoc, ← List.append_assoc] at ahead
  obtain ⟨error, after, ran, isCheck⟩ := refuses supply _ _ (by omega) rfl ahead
  rw [nesting] at ran
  have parsed := Parser.parse_rejected collector ran
  rw [if_neg (Bool.eq_false_iff.mp isCheck.not_isFault)] at parsed
  exact ⟨error, _, _, parsed, rfl, isCheck⟩

end

private theorem wholeText_wanting {limits other : Limits} {text : List Char} {error : ParseError} {after : ParseState}
    (ran : wholeText limits.maxNesting (.ofText limits text) = .error (.needMoreInput error) after)
    (deeper : limits.maxNesting ≤ other.maxNesting) (more : limits.maxTokens ≤ other.maxTokens) :
    wholeText other.maxNesting (.ofText other text) =
    .error (.needMoreInput error) (after.withBudget other.maxTokens) := by
  have within := wholeText_within limits text limits.maxNesting
  have alike := wholeText_enough deeper (by rw [ran]; trivial) (Nat.le_trans within more)
  rw [ran] at alike
  change EndsAlike _ _ (wholeText other.maxNesting (.ofText other text)) at alike
  generalize wholeText other.maxNesting (.ofText other text) = result at alike ⊢
  cases alike with
  | error => rfl

/-- Where a text needs more input, it does so with budgets that suffice for what is known of its kinds. -/
theorem EndsBetween.wanting {limits : Limits} {text : List Char} {kinds ending : List TokenKind} {error : ParseError}
    {after : ParseState} (between : EndsBetween text kinds ending)
    (ran : wholeText limits.maxNesting (.ofText limits text) = .error (.needMoreInput error) after) (level : Nat) :
    ∃ (supply : Supply) (state reached : ParseState), level ≤ supply.nesting ∧ state.depth = 0 ∧
      supply.Ahead (kinds ++ ending) state ∧
      wholeText supply.nesting state = .error (.needMoreInput error) reached := by
  let wide : Limits := { maxNesting := limits.maxNesting + level, maxTokens := limits.maxTokens + (kinds.length + 1) }
  obtain ⟨supply, nesting, ahead⟩ := between.supplied wide (Nat.le_add_left _ _)
  have deeper : level ≤ supply.nesting := by
    rw [nesting]
    exact Nat.le_add_left _ _
  have wanting : wholeText wide.maxNesting (.ofText wide text) = _ :=
    wholeText_wanting ran (Nat.le_add_right _ level) (Nat.le_add_right _ (kinds.length + 1))
  rw [← nesting] at wanting
  exact ⟨supply, .ofText wide text, _, deeper, rfl, ahead, wanting⟩

theorem EndsBetween.exists_words {text blank : List Char} {kinds ending more : List TokenKind}
    (between : EndsBetween text kinds ending) (fits : 200 * byteSize text + 100 ≤ maxOffset)
    (small : byteSize blank ≤ 1) (plain : more ⊆ finishing) (short : more.length ≤ share * kinds.length + 8) :
    ∃ words : List Word, words.map (·.kind) = more ∧ byteSize ((text ++ blank) ++ Word.behind words) ≤ maxOffset := by
  obtain ⟨words, areKinds, within⟩ := Word.exists_words plain
  have count := between.count
  refine ⟨words, areKinds, ?_⟩
  rw [byteSize_append, byteSize_append]
  unfold share at short
  omega

/-- A text that needs more input, with no literal or comment cut off, can be finished. If its tokens are such that a
clause may have become something other than an expression, more of it may turn that into an error instead. Behind a
comment that takes the rest of its line nothing is said if the end of that line is a semicolon. -/
theorem needMoreInput_completes {limits : Limits} {text : List Char} {collector : Collector} {report : Report}
    {parser : Parser} {reason : PendingReason} (encoded : Encoded text) (fits : 200 * byteSize text + 100 ≤ maxOffset)
    (parsed : (Parser.ofText limits text collector).parse = (.ok report, parser))
    (needs : report.verdict = .needMoreInput reason) (whole : parser.state.stream.tail = none)
    (opens : takesName text = true ∨ insertsSemicolon text = false) :
    ∃ more : List Char, Encoded (text ++ more) ∧ byteSize (text ++ more) ≤ maxOffset ∧
      (Parser.Completes (text ++ more) ∨
        Parser.FailsClause (text ++ more) ∧
          ∃ tokens : List Token, Scans text (tokens.map LexStep.token) ∧ Decided (tokens.map (·.kind))) := by
  obtain ⟨error, after, ran, uncut⟩ := Parser.parse_open parsed needs whole
  obtain ⟨steps, scans⟩ := encoded.scans (by omega)
  have ends := wholeText_ends limits.maxNesting (scans.settled limits) rfl
  rw [ran] at ends
  cases ends with
  | wanted seen inserted observed asks =>
    obtain ⟨tokens, rfl⟩ := scans.whole seen inserted uncut
    obtain ⟨kinds, ending, between⟩ := scans.endsBetween (by omega) opens
    obtain ⟨blank, small, takes⟩ := between.takesWords
    cases outlook between.written with
    | refused refuses =>
      obtain ⟨level, refuses⟩ := refuses
      obtain ⟨supply, state, reached, deep, outermost, ahead, wanting⟩ := between.wanting ran level
      obtain ⟨_, _, rejected, -⟩ := refuses supply ending state deep outermost ahead
      cases rejected.symm.trans wanting
    | passes passes =>
      obtain ⟨level, passes⟩ := passes
      obtain ⟨supply, state, reached, deep, outermost, ahead, wanting⟩ := between.wanting ran level
      obtain ⟨_, _, passed, -⟩ := passes supply ending state deep outermost between.isEnding ahead
      cases passed.symm.trans wanting
    | finishes more plain short passes =>
      obtain ⟨words, rfl, room⟩ := between.exists_words fits small plain short
      have completes := takes.completes room passes
      obtain ⟨_, _, longer, -⟩ := takes words room
      rw [List.append_assoc] at completes longer
      exact ⟨_, longer.encoded, longer.fits, .inl completes⟩
    | doomed decided more plain short refuses =>
      obtain ⟨words, rfl, room⟩ := between.exists_words fits small plain short
      have fails := takes.failsClause refuses
      obtain ⟨_, _, longer, -⟩ := takes words room
      rw [List.append_assoc] at fails longer
      obtain ⟨tokens, scans, areKinds⟩ := between.reads
      refine ⟨_, longer.encoded, longer.fits, .inr ⟨fails, tokens, scans, ?_⟩⟩
      obtain ⟨control, decisive, isControl, isDecisive, inside⟩ := decided
      rw [areKinds]
      exact ⟨control, decisive, isControl, isDecisive, inside.trans (List.sublist_append_left kinds ending)⟩

private theorem parsed_of_decide {limits : Limits} {text : List Char} {collector : Collector}
    (computed : (match (Parser.ofText limits text collector).parse with
      | (.ok ⟨.needMoreInput _, _, _⟩, parser) => parser.state.stream.tail.isNone
      | _ => false) = true) :
    ∃ report parser, (Parser.ofText limits text collector).parse = (.ok report, parser) ∧ ∃ reason,
      report.verdict = .needMoreInput reason ∧ parser.state.stream.tail = none := by
  split at computed
  next reason _ _ parser parsed => exact ⟨_, parser, parsed, reason, rfl, Option.isNone_iff_eq_none.mp computed⟩
  next => cases computed

/-- The call can be finished behind its comma, with a name and the closing bracket for instance. -/
theorem needMoreInput_completes_call : ∃ more : List Char, Encoded ("f(a,".toList ++ more) ∧
    byteSize ("f(a,".toList ++ more) ≤ maxOffset ∧ (Parser.Completes ("f(a,".toList ++ more) ∨
      Parser.FailsClause ("f(a,".toList ++ more) ∧
        ∃ tokens : List Token, Scans "f(a,".toList (tokens.map LexStep.token) ∧ Decided (tokens.map (·.kind))) := by
  obtain ⟨report, parser, parsed, reason, needs, whole⟩ := @parsed_of_decide {} "f(a,".toList {} (by decide +kernel)
  exact needMoreInput_completes (encoded_iff.mpr (by decide)) (by decide) parsed needs whole (.inl (by decide +kernel))

section

variable {ι κ α β : Type} {programs : Programs ι α} {others : Programs κ α} {kinds rest : List TokenKind}

/-- With levels enough, the programs fail behind the kinds, whatever follows. -/
def Fails (programs : Programs ι α) (kinds : List TokenKind) : Prop :=
  ∃ level, ∀ (supply : Supply) (left : Nat) (index : ι), level ≤ left →
    ∀ rest state, supply.Ahead (kinds ++ rest) state →
    ∃ failure after, programs (levels supply.nesting left) index state = .error failure after

theorem Fails.bind {next : Deeper → ι → α → Parse β} (fails : Fails programs kinds) :
    Fails (fun deeper index => programs deeper index >>= next deeper index) kinds := by
  obtain ⟨level, fails⟩ := fails
  refine ⟨level, fun supply left index enough rest state ahead => ?_⟩
  obtain ⟨failure, after, failed⟩ := fails supply left index enough rest state ahead
  exact ⟨failure, after, bind_error failed⟩

theorem Leads.fails (leads : Leads programs kinds others rest) (fails : Fails others rest) : Fails programs kinds := by
  obtain ⟨level, leads⟩ := leads
  obtain ⟨level', fails⟩ := fails
  refine ⟨level + level', fun supply left index enough later state ahead => ?_⟩
  obtain ⟨below, other, reached, near, same, ahead⟩ := leads supply left index (by omega) later state ahead
  rw [same]
  exact fails supply below other (by omega) later reached ahead

private theorem rejectNext_fails (expected : List String) (state : ParseState) :
    ∃ failure after, (rejectNext expected : Parse α) state = .error failure after := by
  cases ran : (rejectNext expected : Parse α) state with
  | error failure after => exact ⟨failure, after, rfl⟩
  | ok value after =>
    obtain ⟨found, reached, -, failed⟩ := of_bind_ok ran
    cases found with
    | none => cases failed
    | some token => exact absurd failed (unexpected_ne_ok token expected value)

/-- An increment is no condition, and it is all there is of the statement in its place. -/
private theorem ifStatement_fails : Fails (fun deeper (_ : Unit) => deeper.statement .topLevel >>= behindStatement)
    [.keyword .if, .semicolon .explicit, .identifier, .operator .inc] := by
  have counts : ∀ ι : Type,
    Passes (fun deeper (_ : ι) => simpleStatement deeper .header .clause) [.identifier, .operator .inc] []
      anything { kind := .incDec } := by
    intro ι
    refine ⟨2, fun supply left _ enough rest _ => ?_⟩
    apply simpleStatement_runs (by simp)
    apply Runs.bind
    apply (name_reads left enough).run rfl
    intro operand isName
    apply expressionListFrom_single (by simp)
    apply Runs.bind
    apply Runs.peekOperator_cons
    apply Runs.ite_neg (by decide)
    apply Runs.ite_neg (by simp)
    apply Runs.ite_neg (by simp)
    apply Runs.ite_pos ⟨.inl rfl, rfl⟩
    apply Runs.bind
    apply Runs.bump
    exact Runs.pure ⟨rfl, rfl⟩
  have rejects : ∀ ι : Type, Fails (fun _ (_ : Following ι ({ kind := .incDec } : SimpleStatement)) =>
      (rejectNext ["condition expression"] : Parse Unit)) [] :=
    fun _ => ⟨0, fun _ _ _ _ _ state _ => rejectNext_fails _ state⟩
  have checked : ∀ ι : Type,
    Fails (fun deeper (_ : ι) => do conditionCheck (some (← simpleStatement deeper .header .clause)))
      [.identifier, .operator .inc] := fun ι =>
    (counts ι).leads.fails
      ((Leads.of_eq fun _ pair => ⟨pair, by rw [← show _ = pair.1.2 from pair.2]; rfl⟩).fails (rejects ι))
  have header : ∀ ι : Type, Fails (fun deeper (_ : ι) => ifHeader deeper)
      [.semicolon .explicit, .identifier, .operator .inc] := by
    intro ι
    simp only [ifHeader_eq]
    refine (Leads.atOperator_no (by simp)).fails (Leads.atSemicolon.fails ?_)
    refine Leads.atSemicolon.fails (Leads.bump.fails ?_)
    exact (Leads.atOperator_no (by simp)).fails (checked ι)
  have body : Fails (fun deeper (_ : Unit × { token : Token // token.kind = .keyword .if }) => ifBody deeper)
      [.keyword .if, .semicolon .explicit, .identifier, .operator .inc] := by
    refine (Leads.expectKeyword).fails ?_
    exact (header _).bind
  have kind : Fails (fun deeper (pair : Unit × { token : Token // token.kind = .keyword .if }) =>
      statementKind deeper .topLevel pair.2.1) [.keyword .if, .semicolon .explicit, .identifier, .operator .inc] := by
    have isKind : ∀ pair : Unit × { token : Token // token.kind = .keyword .if },
      pair.2.1.kind = .keyword .if := fun pair => pair.2.2
    simp only [statementKind, isKind]
    exact body.bind
  have whole : Fails (fun deeper (_ : Unit) => statementBody deeper .topLevel)
      [.keyword .if, .semicolon .explicit, .identifier, .operator .inc] := by
    refine Leads.peek.fails ?_
    exact kind.bind
  exact ((Leads.enter fun _ _ _ => rfl).fails whole).bind

end

def conditionWords : List Word :=
  [.keyword .if, .semicolon, ⟨.identifier, ['x'], by decide +kernel, by decide⟩, .operator .inc]

/-- The condition of the statement can only become an increment, and no text that goes on from here is a statement. -/
theorem needMoreInput_neverCompletes :
    (∃ enough, ∀ (limits : Limits) (collector : Collector), enough ≤ limits.maxNesting → enough ≤ limits.maxTokens →
      ∃ report parser reason, (Parser.ofText limits " if ; x ++ ".toList collector).parse = (.ok report, parser) ∧
        report.verdict = .needMoreInput reason ∧ parser.state.stream.tail = none) ∧
      ∀ more : List Char, Encoded (" if ; x ++ ".toList ++ more) → byteSize (" if ; x ++ ".toList ++ more) ≤ maxOffset →
        ¬ Parser.Completes (" if ; x ++ ".toList ++ more) := by
  refine ⟨?_, fun more encoded fits => ?_⟩
  · obtain ⟨report, parser, parsed, reason, needs, whole⟩ :=
      @parsed_of_decide {} " if ; x ++ ".toList {} (by decide +kernel)
    obtain ⟨error, after, ran, uncut⟩ := Parser.parse_open parsed needs whole
    refine ⟨65536, fun limits collector deep room => ?_⟩
    have deeper : ({} : Limits).maxNesting ≤ limits.maxNesting := Nat.le_trans (by decide) deep
    exact Parser.parse_wanting collector (wholeText_wanting ran deeper room) uncut
  · rintro ⟨enough, completes⟩
    obtain ⟨level, fails⟩ := ifStatement_fails
    obtain ⟨steps, scans⟩ := encoded.scans fits
    let limits : Limits := { maxNesting := enough + level, maxTokens := enough + steps.length }
    obtain ⟨statement, report, parser, parsed, complete⟩ :=
      completes limits {} (Nat.le_add_right _ _) (Nat.le_add_right _ _)
    obtain ⟨after, ran, whole⟩ := Parser.parse_complete parsed complete
    have ends := wholeText_ends limits.maxNesting (scans.settled limits) rfl
    rw [ran] at ends
    obtain ⟨number, seen⟩ := ends
    obtain ⟨tokens, rfl⟩ := scans.whole seen (fun _ none => by cases none) whole
    obtain ⟨supply, nesting, ahead⟩ := scans.supplied limits (by simp [limits])
    have sound : (Lexer.ofText 0 (" if ; x ++ ".toList ++ more)).Sound := Lexer.ofText_sound encoded fits
    have spelled : (Lexer.ofText 0 (" if ; x ++ ".toList ++ more)).rest =
      Word.behind conditionWords ++ (' ' :: more) := rfl
    obtain ⟨words, others, lexes, kinds⟩ :=
      Word.behind_lexes conditionWords (show StartsBlank (' ' :: more) from rfl) sound spelled
    obtain ⟨front, later, rfl, isFront, -⟩ := List.map_eq_append_iff.mp (scans.lexes.unique lexes sound)
    obtain rfl := List.map_inj_right (fun _ _ => LexStep.token.inj) |>.mp isFront
    rw [List.map_append, kinds] at ahead
    obtain ⟨looking, ahead, begins⟩ := wholeText_starts ahead rfl (by decide)
    obtain ⟨failure, reached, failed⟩ :=
      fails supply supply.nesting () (by rw [nesting]; exact Nat.le_add_left _ _) _ looking ahead
    rw [nesting] at begins failed
    cases ran.symm.trans (begins.trans failed)

end GoPrompt
