import GoPrompt.Classification.Basic
import GoPrompt.Proofs.Lexical.Encoding
import GoPrompt.Proofs.Lexical.Order
import GoPrompt.Proofs.Runs.Alone
import GoPrompt.Proofs.Stream.Supply

/-! From the run of the grammar over a text to the report of the parser and to the answer of the
classification, with the diagnostic that explains it.

Texts of whole tokens. Where a run comes to the end of a text with nothing cut off, all the tokens of the text are
whole and legal. -/

namespace GoPrompt

open Parse

def ParseState.ofText (limits : Limits) (text : List Char) : ParseState := { stream := .ofText text limits.maxTokens }

/-- The steps of the lexer over a text of allowed characters, all of it within the offsets that there are. -/
structure Scans (text : List Char) (steps : List LexStep) : Prop where
  encoded : Encoded text
  fits : byteSize text ≤ maxOffset
  lexes : (Lexer.ofText 0 text).Lexes steps

theorem Encoded.scans {text : List Char} (encoded : Encoded text) (fits : byteSize text ≤ maxOffset) :
    ∃ steps, Scans text steps := by
  obtain ⟨steps, lexes⟩ := (Lexer.ofText_sound encoded fits : (Lexer.ofText 0 text).Sound).lexes
  exact ⟨steps, encoded, fits, lexes⟩

section

variable {text : List Char} {steps : List LexStep}

theorem Scans.stops_within (scans : Scans text steps) {number : Nat} {token : Token}
    (there : tokenAt steps number = some token) :
    token.span.stop ≤ byteSize text := by
  obtain ⟨step, isNumber, isToken⟩ := tokenAt_eq_some.mp there
  obtain ⟨_, after, reads, left⟩ := scans.lexes.leaves isNumber
  rw [Lexer.ofText_size, (reads.span isToken).2] at left
  omega

theorem Scans.startsAt (scans : Scans text steps) {number : Nat} {step : LexStep} (there : steps[number]? = some step) :
    ∃ before after, text = before ++ after ∧ step.StartsAt (byteSize before) := by
  obtain ⟨front, behind, splits, starts⟩ := scans.lexes.boundary there
  obtain ⟨rest, whole, start⟩ := Lexer.ofText_eq 0 text
  rw [start] at splits starts
  refine ⟨leadingMark text ++ front, behind, ?_, ?_⟩
  · rw [List.append_assoc, ← splits]
    exact whole
  · rw [byteSize_append]
    exact starts

theorem Scans.nonempty (scans : Scans text steps) {number : Nat} {token : Token}
    (there : tokenAt steps number = some token) (written : ¬ token.IsInserted) :
    token.span.start < token.span.stop := by
  obtain ⟨step, isNumber, isToken⟩ := tokenAt_eq_some.mp there
  obtain ⟨_, _, reads⟩ := scans.lexes.read_at isNumber
  exact reads.nonempty isToken written

theorem Scans.ordered (scans : Scans text steps) {number later : Nat} {token other : Token} (less : number < later)
    (there : tokenAt steps number = some token) (there' : tokenAt steps later = some other) :
    token.span.stop ≤ other.span.start := by
  obtain ⟨step, isNumber, isToken⟩ := tokenAt_eq_some.mp there
  obtain ⟨step', isLater, isToken'⟩ := tokenAt_eq_some.mp there'
  exact scans.lexes.ordered less isNumber isToken isLater isToken'

theorem Scans.starts_lt (scans : Scans text steps) {number later : Nat} {token other : Token} (less : number < later)
    (there : tokenAt steps number = some token) (written : ¬ token.IsInserted)
    (there' : tokenAt steps later = some other) :
    token.span.start < other.span.start :=
  Nat.lt_of_lt_of_le (scans.nonempty there written) (scans.ordered less there there')

theorem Scans.steps_eq (scans : Scans text steps) : (Lexer.ofText 0 text).steps.1 = .ok steps :=
  scans.lexes.steps_eq (Lexer.ofText_sound scans.encoded scans.fits)

theorem Scans.collected (scans : Scans text steps) : ∃ last, (Lexer.ofText 0 text).steps = (.ok steps, last) :=
  ⟨_, Prod.ext scans.steps_eq rfl⟩

end

theorem Scans.settled {text : List Char} {steps : List LexStep} (scans : Scans text steps) (limits : Limits) :
    (ParseState.ofText limits text).stream.Settled steps limits.maxTokens 0 where
  budget := rfl
  within := Nat.zero_le _
  count := rfl
  ahead := nofun
  running _ := ⟨Lexer.ofText_sound scans.encoded scans.fits, scans.lexes⟩
  ended := nofun
  explained := nofun
  legal := nofun
  uncut _ := by simp [ParseState.ofText, TokenStream.ofText]
  tail := rfl
  short := Nat.zero_le _
  fresh nonempty := absurd rfl nonempty

/-- What a report says of a text. -/
def Report.IsConsistent (report : Report) : Prop := match report.verdict with
  | .complete _ | .needMoreInput _ => report.observedEnd = true
  | .syntaxError error => error.kind = .unexpectedToken ∨ error.kind = .invalidToken

theorem Report.IsConsistent.answers {report : Report} (consistent : report.IsConsistent) :
    (Signals.ofReport report).answer = .ok (match report.verdict with
      | .complete _ => .complete
      | .needMoreInput _ => .needMoreInput
      | .syntaxError _ => .syntaxError) := by
  unfold Report.IsConsistent at consistent
  unfold Signals.ofReport
  cases verdict : report.verdict with
  | complete | needMoreInput =>
    rw [verdict] at consistent
    simp only [show report.observedEnd = true from consistent]
    rfl
  | syntaxError error =>
    rw [verdict] at consistent
    have notEnded : error.kind ≠ .unexpectedEndOfInput := by
      rcases consistent with kind | kind <;> simp [kind]
    simp only [notEnded, decide_false]
    rfl

def Parse.ended {α : Type} : EStateM.Result Failure ParseState α → ParseState
  | .ok _ after | .error _ after => after

/-- What a report says when the run of the grammar has ended in this way. -/
def Report.Concludes (report : Report) : EStateM.Result Failure ParseState Statement → Prop
  | .ok statement after => report.tokensScanned = after.stream.scanned ∧ report.verdict = match after.stream.tail with
      | some cutoff => .needMoreInput (.cutOff cutoff.construct)
      | none => .complete statement
  | .error (.needMoreInput _) after => report.verdict = .needMoreInput after.stream.pendingReason
  | .error (.rejected error) _ => error.isFault = false ∧ report.verdict = .syntaxError error

namespace Parser

variable {limits : Limits} {text : List Char} (collector : Collector) {statement : Statement} {error : ParseError}
  {after : ParseState}

/-- What a parser answers, from what the run of the grammar has come to. -/
inductive Parses (parser : Parser) :
    EStateM.Result Failure ParseState Statement → Except ParseError Report × Parser → Prop
  | complete {statement : Statement} {state : ParseState} (whole : state.stream.tail = none) :
      Parses parser (.ok statement state) ((parser.withState state).answer (.complete statement))
  | cutOff {statement : Statement} {state : ParseState} {cutoff : Cutoff} (isCut : state.stream.tail = some cutoff) :
      Parses parser (.ok statement state)
        (((parser.withState state).reportCutoff cutoff).answer (.needMoreInput (.cutOff cutoff.construct)))
  | wanted {error : ParseError} {state : ParseState} (whole : state.stream.tail = none) :
      Parses parser (.error (.needMoreInput error) state)
        (((parser.withState state).report error).answer (.needMoreInput state.stream.pendingReason))
  | wantedCutOff {error : ParseError} {state : ParseState} {cutoff : Cutoff} (isCut : state.stream.tail = some cutoff) :
      Parses parser (.error (.needMoreInput error) state)
        (((parser.withState state).reportCutoff cutoff).answer (.needMoreInput state.stream.pendingReason))
  | fault {error : ParseError} {state : ParseState} (isFault : error.isFault = true) :
      Parses parser (.error (.rejected error) state) (.error error, parser.withState state)
  | rejected {error : ParseError} {state : ParseState} (noFault : error.isFault = false) :
      Parses parser (.error (.rejected error) state)
        (((parser.withState state).report error).answer (.syntaxError error))

theorem parses (parser : Parser) :
    parser.Parses (Grammar.wholeText parser.limits.maxNesting parser.state) parser.parse := by
  unfold parse
  generalize Grammar.wholeText parser.limits.maxNesting parser.state = outcome
  cases outcome with
  | ok statement state =>
    dsimp only
    split
    next cutoff isCut => exact .cutOff isCut
    next whole => exact .complete whole
  | error failure state =>
    cases failure with
    | needMoreInput error =>
      dsimp only
      split
      next cutoff isCut => exact .wantedCutOff isCut
      next whole => exact .wanted whole
    | rejected error =>
      dsimp only
      split
      next isFault => exact .fault isFault
      next noFault => exact .rejected (Bool.eq_false_iff.mpr noFault)

theorem ofText_parses (limits : Limits) (text : List Char) (collector : Collector) :
    (ofText limits text collector).Parses (Grammar.wholeText limits.maxNesting (.ofText limits text))
      (ofText limits text collector).parse := parses _

/-- The parser of a text, where the run of the grammar has ended. -/
def stopped (limits : Limits) (text : List Char) (collector : Collector) (state : ParseState) : Parser :=
  (ofText limits text collector).withState state

theorem parse_reduced (ran : Grammar.wholeText limits.maxNesting (.ofText limits text) = .ok statement after) :
    ∃ report parser, (ofText limits text collector).parse = (.ok report, parser) ∧
      report.observedEnd = after.stream.observedEnd ∧
      (report.verdict = .complete statement ∨ ∃ reason, report.verdict = .needMoreInput reason) := by
  have parses := ofText_parses limits text collector
  rw [ran] at parses
  generalize (ofText limits text collector).parse = answer at parses ⊢
  cases parses with
  | complete => exact ⟨_, _, rfl, rfl, .inl rfl⟩
  | cutOff => exact ⟨_, _, rfl, rfl, .inr ⟨_, rfl⟩⟩

theorem parse_wanted
    (ran : Grammar.wholeText limits.maxNesting (.ofText limits text) = .error (.needMoreInput error) after) :
    ∃ report parser reason, (ofText limits text collector).parse = (.ok report, parser) ∧
      report.observedEnd = after.stream.observedEnd ∧ report.verdict = .needMoreInput reason := by
  have parses := ofText_parses limits text collector
  rw [ran] at parses
  generalize (ofText limits text collector).parse = answer at parses ⊢
  cases parses with
  | wanted | wantedCutOff => exact ⟨_, _, _, rfl, rfl, rfl⟩

theorem parse_rejected
    (ran : Grammar.wholeText limits.maxNesting (.ofText limits text) = .error (.rejected error) after) :
    (ofText limits text collector).parse =
      if error.isFault then (.error error, stopped limits text collector after)
      else ((stopped limits text collector after).report error).answer (.syntaxError error) := by
  have parses := ofText_parses limits text collector
  rw [ran] at parses
  generalize (ofText limits text collector).parse = answer at parses ⊢
  cases parses with
  | fault isFault => exact (if_pos isFault).symm
  | rejected noFault => exact (if_neg (Bool.eq_false_iff.mp noFault)).symm

/-- What comes of parsing a text without disallowed characters: a consistent report, or a budget is used up. -/
theorem parse_consistent (encoded : Encoded text) (fits : byteSize text ≤ maxOffset) :
    (∃ error parser, (ofText limits text collector).parse = (.error error, parser) ∧ error.IsBudget) ∨
      ∃ report parser, (ofText limits text collector).parse = (.ok report, parser) ∧ report.IsConsistent := by
  obtain ⟨steps, scans⟩ := encoded.scans fits
  have ends := wholeText_ends limits.maxNesting (scans.settled limits) rfl
  cases ran : Grammar.wholeText limits.maxNesting (.ofText limits text) with
  | ok statement after =>
    rw [ran] at ends
    obtain ⟨number, seen⟩ := ends
    obtain ⟨report, parser, parsed, observed, verdict⟩ := parse_reduced collector ran
    refine .inr ⟨report, parser, parsed, ?_⟩
    unfold Report.IsConsistent
    rcases verdict with verdict | ⟨reason, verdict⟩ <;> rw [verdict] <;> exact observed.trans (seen.missing rfl).2
  | error failure after =>
    rw [ran] at ends
    cases ends with
    | @budget error _ spent =>
      have parsed := parse_rejected collector ran
      rw [if_pos spent.isBudget.isFault] at parsed
      exact .inl ⟨error, _, parsed, spent.isBudget⟩
    | @blamed number token error _ seen written blames =>
      have parsed := parse_rejected collector ran
      rw [if_neg (Bool.eq_false_iff.mp blames.not_isFault)] at parsed
      refine .inr ⟨_, _, parsed, ?_⟩
      exact blames.2.imp_right And.left
    | wanted seen inserted observed asks =>
      obtain ⟨report, parser, reason, parsed, same, verdict⟩ := parse_wanted collector ran
      refine .inr ⟨report, parser, parsed, ?_⟩
      unfold Report.IsConsistent
      rw [verdict]
      exact same.trans observed

variable {collector} {parser : Parser}

theorem parse_concludes {report : Report} (parsed : (ofText limits text collector).parse = (.ok report, parser)) :
    report.Concludes (Grammar.wholeText limits.maxNesting (.ofText limits text)) := by
  have parses := ofText_parses limits text collector
  rw [parsed] at parses
  generalize Grammar.wholeText limits.maxNesting (.ofText limits text) = outcome at parses ⊢
  cases parses with
  | complete whole => exact ⟨rfl, by rw [whole]⟩
  | cutOff isCut => exact ⟨rfl, by rw [isCut]⟩
  | wanted | wantedCutOff => rfl
  | rejected noFault => exact ⟨noFault, rfl⟩

theorem parse_ended {result : Except ParseError Report}
    (parsed : (ofText limits text collector).parse = (result, parser)) :
    parser.state = ended (Grammar.wholeText limits.maxNesting (.ofText limits text)) := by
  have parses := ofText_parses limits text collector
  rw [parsed] at parses
  generalize Grammar.wholeText limits.maxNesting (.ofText limits text) = outcome at parses ⊢
  cases parses <;> rfl

theorem parse_complete {report : Report} (parsed : (ofText limits text collector).parse = (.ok report, parser))
    (complete : report.verdict = .complete statement) :
    ∃ after, Grammar.wholeText limits.maxNesting (.ofText limits text) = .ok statement after ∧
    after.stream.tail = none := by
  have concludes := parse_concludes parsed
  cases ran : Grammar.wholeText limits.maxNesting (.ofText limits text) with
  | ok found after =>
    rw [ran, Report.Concludes, complete] at concludes
    cases tail : after.stream.tail with
    | none =>
      rw [tail] at concludes
      cases concludes.2
      exact ⟨after, rfl, tail⟩
    | some cutoff =>
      rw [tail] at concludes
      cases concludes.2
  | error failure after =>
    rw [ran] at concludes
    cases failure with
    | needMoreInput => cases complete.symm.trans concludes
    | rejected => cases complete.symm.trans concludes.2

/-- Where the text ends with nothing cut off, the run of the grammar has failed for more input. -/
theorem parse_open {report : Report} {reason : PendingReason}
    (parsed : (ofText limits text collector).parse = (.ok report, parser))
    (needs : report.verdict = .needMoreInput reason) (whole : parser.state.stream.tail = none) :
    ∃ error after, Grammar.wholeText limits.maxNesting (.ofText limits text) = .error (.needMoreInput error) after ∧
      after.stream.tail = none := by
  have concludes := parse_concludes parsed
  have isState := parse_ended parsed
  cases ran : Grammar.wholeText limits.maxNesting (.ofText limits text) with
  | ok statement after =>
    rw [ran] at concludes isState
    have verdict := concludes.2
    rw [isState] at whole
    rw [needs, show after.stream.tail = none from whole] at verdict
    cases verdict
  | error failure after =>
    rw [ran] at concludes isState
    cases failure with
    | needMoreInput error =>
      rw [isState] at whole
      exact ⟨error, after, rfl, whole⟩
    | rejected error => cases needs.symm.trans concludes.2

theorem parse_fault {error : ParseError} (failed : (ofText limits text collector).parse = (.error error, parser)) :
    ∃ after, Grammar.wholeText limits.maxNesting (.ofText limits text) = .error (.rejected error) after := by
  have parses := ofText_parses limits text collector
  rw [failed] at parses
  generalize Grammar.wholeText limits.maxNesting (.ofText limits text) = outcome at parses ⊢
  cases parses with
  | fault => exact ⟨_, rfl⟩

end Parser

theorem Scans.supplied {text : List Char} {tokens : List Token} (scans : Scans text (tokens.map LexStep.token))
    (limits : Limits) (room : tokens.length ≤ limits.maxTokens) :
    ∃ supply : Supply, supply.nesting = limits.maxNesting ∧
    supply.Ahead (tokens.map (·.kind)) (.ofText limits text) := by
  let supply : Supply :=
    { tokens := tokens
      budget := limits.maxTokens
      nesting := limits.maxNesting
      fits := room
      legal := by
        intro token mem illegal
        obtain ⟨number, there⟩ := List.getElem?_of_mem (List.mem_map_of_mem (f := LexStep.token) mem)
        obtain ⟨_, _, reads⟩ := scans.lexes.read_at there
        exact reads.kind illegal }
  exact ⟨supply, rfl, 0, (scans.settled limits).toReading, Nat.zero_le _, rfl⟩

private theorem LexStep.exists_tokens {steps : List LexStep} (isToken : ∀ step ∈ steps, ∃ token, step = .token token) :
    ∃ tokens : List Token, steps = tokens.map LexStep.token := by
  induction steps with
  | nil => exact ⟨[], rfl⟩
  | cons step steps ih =>
    obtain ⟨token, rfl⟩ := isToken step List.mem_cons_self
    obtain ⟨tokens, rfl⟩ := ih fun step mem => isToken step (List.mem_cons_of_mem _ mem)
    exact ⟨token :: tokens, rfl⟩

section

variable {text : List Char} {steps : List LexStep} {limit number : Nat} {stream : TokenStream} {found : Option Token}

/-- No step is cut off if nothing is where the text ends. -/
theorem Scans.uncut (scans : Scans text steps) (seen : stream.Seen steps limit number found)
    (inserted : ∀ token, found = some token → token.IsInserted) (whole : stream.tail = none) {place : Nat}
    {step : LexStep} (there : steps[place]? = some step) : step.cutoff? = none := by
  by_cases inside : place + 1 < steps.length
  · obtain ⟨token, isToken, -, isWhole⟩ := scans.lexes.inner there inside
    cases step with
    | token | invalid | endOfInput => rfl
    | truncated _ cutoff =>
      cases isToken
      exact absurd rfl (isWhole cutoff)
    | incomplete => cases isToken
  · have within := (List.getElem?_eq_some_iff.mp there).1
    have tail := seen.tail
    cases exhausted : stream.exhausted with
    | true =>
      have isLast : steps.getLast? = some step := by
        rw [List.getLast?_eq_getElem?, ← there]
        congr 1
        omega
      rw [exhausted, if_pos rfl, whole, isLast] at tail
      exact tail.symm
    | false =>
      -- What has been seen is the inserted semicolon, and it is the last one.
      cases found with
      | none => cases exhausted.symm.trans (seen.missing rfl).1
      | some token =>
        obtain ⟨_, isNext, isToken⟩ := tokenAt_eq_some.mp seen.isNext
        have last := scans.lexes.inserted_last isNext isToken (inserted token rfl)
        have count := seen.count
        rw [seen.front] at count
        have all : steps.take stream.scanned = steps :=
          List.take_of_length_le (by rw [last, count]; exact Nat.le_refl _)
        refine seen.uncut exhausted step ?_
        rw [all]
        exact List.mem_of_getElem? there

/-- At the end of its text a run has seen whole and legal tokens only. -/
theorem Scans.whole (scans : Scans text steps) (seen : stream.Seen steps limit number found)
    (inserted : ∀ token, found = some token → token.IsInserted) (whole : stream.tail = none) :
    ∃ tokens : List Token, steps = tokens.map LexStep.token := by
  refine LexStep.exists_tokens fun step mem => ?_
  obtain ⟨place, there⟩ := List.getElem?_of_mem mem
  have uncut := scans.uncut seen inserted whole there
  cases step with
  | token token => exact ⟨token, rfl⟩
  | truncated | incomplete => cases uncut
  | endOfInput => exact absurd mem scans.lexes.not_endOfInput
  | invalid token diagnostic =>
    obtain ⟨_, _, reads⟩ := scans.lexes.read_at there
    have illegal : token.kind = .illegal := reads.kind
    have found' : tokenAt steps place = some token := tokenAt_eq_some.mpr ⟨_, there, rfl⟩
    have next := seen.isNext
    rcases Nat.lt_trichotomy place number with before | rfl | behind
    · exact absurd illegal (seen.legal place token before found')
    · have isInserted := inserted token (next.symm.trans found')
      cases illegal.symm.trans isInserted
    · cases found with
      | none =>
        have none := seen.ended (seen.missing rfl).1 place (by rw [seen.count, seen.front]; exact Nat.le_of_lt behind)
        cases none.symm.trans found'
      | some last =>
        obtain ⟨_, isNext, isLast⟩ := tokenAt_eq_some.mp next
        have length := scans.lexes.inserted_last isNext isLast (inserted last rfl)
        have within := (List.getElem?_eq_some_iff.mp there).1
        omega

end

end GoPrompt
