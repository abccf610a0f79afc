import GoPrompt.Proofs.Classification.Consistency
import GoPrompt.Proofs.Classification.Answers
import GoPrompt.Proofs.Runs.Common
import GoPrompt.Proofs.Runs.Onward

/-! A text is a syntax error when the grammar rejects one of its tokens, and the first diagnostic is about that
token. Of two texts with tokens of the same kinds up to a rejected one, both are syntax errors.

A syntax error is final. A text that goes on behind a blank keeps its tokens, except that the literal cut off
by its end may turn out to be illegal; so it is rejected at the same token, or is no text to classify. -/

namespace GoPrompt

/-- Whether the run over a text rejects the token with the given number. -/
def Rejects (limits : Limits) (text : List Char) (steps : List LexStep) (number : Nat) (token : Token) : Prop :=
  ¬ token.IsInserted ∧ ∃ error after, error.Blames token ∧
    Grammar.wholeText limits.maxNesting (.ofText limits text) = .error (.rejected error) after ∧
    after.stream.Seen steps limits.maxTokens number (some token)

section

variable {limits : Limits} {text : List Char} {steps : List LexStep}

theorem classifyingParser_parses (limits : Limits) (source : List Char) : (classifyingParser limits source).Parses
    (Grammar.wholeText limits.forClassification.maxNesting (.ofText limits.forClassification source))
    (classifyingParser limits source).parse := Parser.parses _

/-- A rejected token makes the text a syntax error, and the first diagnostic is about that token. -/
theorem Rejects.answer {number : Nat} {token : Token}
    (rejects : Rejects limits.forClassification text steps number token) :
    ∃ classification diagnostic source, classifySource limits text = .ok classification ∧
      classification.answer = .syntaxError ∧ classification.diagnostics.head? = some diagnostic ∧
      diagnostic.span = token.span ∧ diagnostic.offending = .token source ∧
      (source = String.ofList (takeBytes token.span.length (dropBytes token.span.start text)) ∨
        (token.kind = .illegal ∧ source = token.lexeme)) := by
  obtain ⟨-, error, after, blames, ran, -⟩ := rejects
  have onward := wholeText_onward limits.forClassification.maxNesting
    (show (ParseState.ofText limits.forClassification text).depth = 0 from rfl)
  rw [ran] at onward
  let collector : Collector := { limit := some limits.forClassification.maxDiagnostics }
  have parsed := Parser.parse_rejected collector ran
  rw [if_neg (Bool.eq_false_iff.mp blames.not_isFault)] at parsed
  let reported := (Parser.stopped limits.forClassification text collector after).report error
  have consistent : Report.IsConsistent ⟨.syntaxError error, after.stream.observedEnd, after.stream.scanned⟩ :=
    blames.2.imp_right And.left
  have room : collector.isSaturated = false := by
    simp only [collector, Collector.isSaturated, Option.any_some, List.length_nil, Limits.forClassification]
    exact decide_eq_false (by omega)
  obtain ⟨diagnostic, source, first, span, offending, same⟩ := Parser.report_head
    (show (Parser.stopped limits.forClassification text collector after).collector.diagnostics = [] from rfl)
      room blames
  have answered := consistent.answers
  let classification : Classification :=
    { answer := .syntaxError
      statement := none
      pending := none
      tokensScanned := after.stream.scanned
      diagnostics := reported.explain (.syntaxError error) }
  refine ⟨classification, diagnostic, source, ?_, rfl, Parser.explain_head first (.syntaxError error),
    span, offending, ?_⟩
  · unfold classifySource
    dsimp only
    rw [parsed]
    simp only [Parser.answer]
    rw [show reported.state.stream = after.stream from rfl, answered]
  · refine same.imp_left fun same => same.trans ?_
    show String.ofList (takeBytes _ (dropBytes _ after.stream.text)) = _
    rw [onward.text]
    rfl

/-- A text that is a syntax error has a token that the grammar rejects. -/
theorem Scans.rejects (scans : Scans text steps) {classification : Classification}
    (answered : classifySource limits text = .ok classification) (wrong : classification.answer = .syntaxError) :
    ∃ number token, Rejects limits.forClassification text steps number token := by
  have ends := wholeText_ends limits.forClassification.maxNesting (scans.settled limits.forClassification) rfl
  let collector : Collector := { limit := some limits.forClassification.maxDiagnostics }
  -- Only a consistent report of a rejected token answers with a syntax error.
  have verdict : ∀ report parser, (Parser.ofText limits.forClassification text collector).parse = (.ok report, parser) →
      ∃ error, report.verdict = .syntaxError error := by
    intro report parser parsed
    rcases Parser.parse_consistent collector scans.encoded scans.fits with
      ⟨_, _, failed, _⟩ | ⟨report', _, parsed', consistent⟩
    · cases failed.symm.trans parsed
    · cases parsed'.symm.trans parsed
      unfold classifySource at answered
      simp only [collector] at parsed
      simp only [parsed, consistent.answers, Except.ok.injEq] at answered
      rw [← answered] at wrong
      cases isVerdict : report.verdict with
      | syntaxError error => exact ⟨error, rfl⟩
      | complete | needMoreInput =>
        simp only [isVerdict] at wrong
        cases wrong
  cases ran : Grammar.wholeText limits.forClassification.maxNesting (.ofText limits.forClassification text) with
  | ok statement after =>
    obtain ⟨report, parser, parsed, _, complete | ⟨_, wanted⟩⟩ := Parser.parse_reduced collector ran
    · obtain ⟨_, isError⟩ := verdict report parser parsed
      cases complete.symm.trans isError
    · obtain ⟨_, isError⟩ := verdict report parser parsed
      cases wanted.symm.trans isError
  | error failure after =>
    rw [ran] at ends
    cases ends with
    | @budget error _ spent =>
      have parsed := Parser.parse_rejected collector ran
      rw [if_pos spent.isBudget.isFault] at parsed
      unfold classifySource at answered
      simp only [collector] at parsed
      simp only [parsed] at answered
      cases answered
    | @blamed number token error _ seen written blames =>
        exact ⟨number, token, written, error, after, blames, ran, seen⟩
    | wanted =>
      obtain ⟨report, parser, reason, parsed, _, wanted⟩ := Parser.parse_wanted collector ran
      obtain ⟨_, isError⟩ := verdict report parser parsed
      cases wanted.symm.trans isError

theorem Rejects.unique {number number' : Nat} {token token' : Token} (rejects : Rejects limits text steps number token)
    (rejects' : Rejects limits text steps number' token') : number = number' := by
  obtain ⟨-, error, after, -, ran, seen⟩ := rejects
  obtain ⟨-, error', after', -, ran', seen'⟩ := rejects'
  cases ran.symm.trans ran'
  exact seen.consumed.symm.trans seen'.consumed

theorem Rejects.isNext {number : Nat} {token : Token} (rejects : Rejects limits text steps number token) :
    tokenAt steps number = some token := by
  obtain ⟨-, error, after, -, -, seen⟩ := rejects
  exact seen.isNext

theorem Rejects.legal {number earlier : Nat} {token found : Token} (rejects : Rejects limits text steps number token)
    (less : earlier < number) (there : tokenAt steps earlier = some found) : found.kind ≠ .illegal := by
  obtain ⟨-, error, after, -, -, seen⟩ := rejects
  exact seen.legal earlier found less there

/-- A token is rejected in every text that has tokens of the same kinds up to it. -/
theorem Rejects.transfer {text' : List Char} {steps' : List LexStep} {number : Nat} {token : Token}
    (rejects : Rejects limits text steps number token) (scans : Scans text steps) (scans' : Scans text' steps')
    (agree : Agree steps steps' (number + 1)) : ∃ other, Rejects limits text' steps' number other := by
  obtain ⟨one, two, there, there', same⟩ := agree number (Nat.lt_succ_self _)
  obtain rfl := Option.some.inj (there.symm.trans rejects.isNext)
  obtain ⟨written, error, after, blames, ran, seen⟩ := rejects
  obtain ⟨other, error', after', ran', seen', blames'⟩ :=
    wholeText_shared scans.lexes agree (scans.settled limits) rfl (scans'.settled limits) rfl ran seen blames
  obtain rfl := Option.some.inj (there'.symm.trans seen'.isNext)
  exact ⟨two, fun inserted => written (same.trans inserted), error', after', blames', ran', seen'⟩

end

/-- A text and a longer one that goes on behind a blank, with their tokens. -/
structure GoesOn (text longer : List Char) (steps steps' : List LexStep) : Prop where
  scans : Scans text steps
  scans' : Scans longer steps'
  kept : ∀ (number : Nat) (step : LexStep) (token : Token), steps[number]? = some step → step.token? = some token →
    ¬ token.IsInserted → ∃ step', steps'[number]? = some step' ∧ Lexer.Kept step step'

section

variable {limits : Limits} {text longer more : List Char} {steps steps' : List LexStep}

theorem Scans.goesOn (scans : Scans text steps) (nonempty : text ≠ []) (blank : StartsBlank more)
    (encoded : Encoded (text ++ more)) (fits : byteSize (text ++ more) ≤ maxOffset) :
    ∃ steps', GoesOn text (text ++ more) steps steps' := by
  have sound : (Lexer.ofText 0 (text ++ more)).Sound := Lexer.ofText_sound encoded fits
  have longer := Lexer.ofText_append nonempty 0 more
  rw [longer] at sound
  obtain ⟨steps', lexes', kept⟩ := scans.lexes.withMore blank sound
  exact ⟨steps', scans, ⟨encoded, fits, longer ▸ lexes'⟩, kept⟩

/-- What the longer text has for a token. -/
theorem GoesOn.token (goesOn : GoesOn text longer steps steps') {number : Nat} {token : Token}
    (there : tokenAt steps number = some token) (written : ¬ token.IsInserted) :
    ∃ other, tokenAt steps' number = some other ∧ other.span.start = token.span.start ∧
      (other.kind = token.kind ∨ other.kind = .illegal) := by
  obtain ⟨step, isNumber, isToken⟩ := tokenAt_eq_some.mp there
  obtain ⟨step', isNumber', found, other, isFound, isOther, start, kind⟩ :=
    goesOn.kept number step token isNumber isToken written
  obtain rfl := Option.some.inj (isToken.symm.trans isFound)
  exact ⟨other, tokenAt_eq_some.mpr ⟨step', isNumber', isOther⟩, start, kind.imp_right And.left⟩

theorem GoesOn.agree (goesOn : GoesOn text longer steps steps') {number : Nat} {token : Token}
    (there : tokenAt steps number = some token) : Agree steps steps' number := by
  intro earlier less
  obtain ⟨_, isNumber, _⟩ := tokenAt_eq_some.mp there
  have inside := (List.getElem?_eq_some_iff.mp isNumber).1
  have isEarlier : steps[earlier]? = some (steps[earlier]) := List.getElem?_eq_getElem (Nat.lt_trans less inside)
  obtain ⟨found, isToken, written, uncut⟩ := goesOn.scans.lexes.inner isEarlier (by omega)
  obtain ⟨step', isEarlier', _, other, isFound, isOther, _, same | ⟨_, cutoff, isCut⟩⟩ :=
    goesOn.kept earlier _ found isEarlier isToken written
  · obtain rfl := Option.some.inj (isToken.symm.trans isFound)
    exact ⟨found, other, tokenAt_eq_some.mpr ⟨_, isEarlier, isToken⟩,
      tokenAt_eq_some.mpr ⟨_, isEarlier', isOther⟩, same.symm⟩
  · rw [isCut] at isToken
    obtain rfl := Option.some.inj isToken
    exact absurd isCut (uncut cutoff)

theorem Agree.succ {number : Nat} (agree : Agree steps steps' number) {one other : Token}
    (there : tokenAt steps number = some one) (there' : tokenAt steps' number = some other)
    (same : one.kind = other.kind) : Agree steps steps' (number + 1) := by
  intro earlier less
  rcases Nat.lt_succ_iff_lt_or_eq.mp less with less | rfl
  · exact agree earlier less
  · exact ⟨one, other, there, there', same⟩

theorem Agree.mono {number earlier : Nat} (agree : Agree steps steps' number) (within : earlier ≤ number) :
    Agree steps steps' earlier := fun first less => agree first (Nat.lt_of_lt_of_le less within)

/-- A run over a text with an illegal token rejects that token, if it does not fail in front of it. -/
theorem Scans.stops_at_illegal (scans : Scans text steps) {number : Nat} {token : Token}
    (there : tokenAt steps number = some token) (illegal : token.kind = .illegal) :
    (∃ error after, Grammar.wholeText limits.maxNesting (.ofText limits text) = .error (.rejected error) after ∧
      error.Spends steps limits.maxTokens) ∨
      ∃ earlier found, earlier ≤ number ∧ Rejects limits text steps earlier found := by
  -- An illegal token is never consumed, so no run gets behind it.
  have bounded : ∀ {reached : Nat} {found : Option Token} {stream : TokenStream},
      stream.Seen steps limits.maxTokens reached found → reached ≤ number := by
    intro reached found stream seen
    apply Nat.le_of_not_lt
    intro behind
    exact seen.legal number token behind there illegal
  -- So no run finds the end of the text in its place.
  have ends_behind : ∀ {reached : Nat} {stream : TokenStream} (found : Option Token),
      (∀ token, found = some token → token.IsInserted) → ¬ stream.Seen steps limits.maxTokens reached found := by
    intro reached stream found inserted seen
    have within := bounded seen
    cases found with
    | none =>
      have scanned : stream.scanned = reached := by
        rw [seen.count, seen.front]
        rfl
      rw [seen.ended (seen.missing rfl).1 number (scanned ▸ within)] at there
      cases there
    | some last =>
      obtain ⟨step, isLast, isToken⟩ := tokenAt_eq_some.mp seen.isNext
      obtain ⟨_, isNumber, _⟩ := tokenAt_eq_some.mp there
      have inside := (List.getElem?_eq_some_iff.mp isNumber).1
      have length := scans.lexes.inserted_last isLast isToken (inserted last rfl)
      obtain rfl : reached = number := by omega
      obtain rfl := Option.some.inj (seen.isNext.symm.trans there)
      cases illegal.symm.trans (inserted last rfl)
  have ends := wholeText_ends limits.maxNesting (scans.settled limits) rfl
  cases ran : Grammar.wholeText limits.maxNesting (.ofText limits text) with
  | ok statement after =>
    rw [ran] at ends
    obtain ⟨reached, seen⟩ := ends
    exact absurd seen (ends_behind none nofun)
  | error failure after =>
    rw [ran] at ends
    cases ends with
    | budget spent => exact .inl ⟨_, _, rfl, spent⟩
    | blamed seen written blames => exact .inr ⟨_, _, bounded seen, written, _, _, blames, ran, seen⟩
    | @wanted reached found error _ seen inserted observed => exact absurd seen (ends_behind found inserted)

/-- A run that fails because of a budget gives no answer. -/
theorem classifySource_budget {error : ParseError} {after : ParseState} (spent : error.IsBudget)
    (ran : Grammar.wholeText limits.forClassification.maxNesting (.ofText limits.forClassification text) =
      .error (.rejected error) after) : classifySource limits text = .error (.internal (.parser error)) := by
  have parsed := Parser.parse_rejected { limit := some limits.forClassification.maxDiagnostics } ran
  rw [if_pos spent.isFault] at parsed
  unfold classifySource
  simp only [parsed]
  rcases spent with kind | kind <;> simp only [ClassifyError.ofParseError, kind]

/-- The longer text is rejected at the same token, if it is not given up because of a budget. -/
theorem GoesOn.rejects (goesOn : GoesOn text longer steps steps') {number : Nat} {token : Token}
    (rejects : Rejects limits.forClassification text steps number token) :
    (∃ fault, classifySource limits longer = .error fault) ∨
      ∃ other, Rejects limits.forClassification longer steps' number other ∧ other.span.start = token.span.start := by
  obtain ⟨other, there', start, same | illegal⟩ := goesOn.token rejects.isNext rejects.1
  · have agree := (goesOn.agree rejects.isNext).succ rejects.isNext there' same.symm
    obtain ⟨found, rejects'⟩ := rejects.transfer goesOn.scans goesOn.scans' agree
    obtain rfl := Option.some.inj (there'.symm.trans rejects'.isNext)
    exact .inr ⟨other, rejects', start⟩
  · rcases goesOn.scans'.stops_at_illegal there' illegal with
      ⟨error, after, ran, spent⟩ | ⟨earlier, found, within, rejects'⟩
    · exact .inl ⟨_, classifySource_budget spent.isBudget ran⟩
    · -- In front of the illegal token both texts are alike, so neither of them is rejected there.
      rcases Nat.lt_or_eq_of_le within with less | rfl
      · have agree := ((goesOn.agree rejects.isNext).mono less).symm
        obtain ⟨one, rejected⟩ := rejects'.transfer goesOn.scans' goesOn.scans agree
        exact absurd (rejected.unique rejects) (Nat.ne_of_lt less)
      · obtain rfl := Option.some.inj (there'.symm.trans rejects'.isNext)
        exact .inr ⟨other, rejects', start⟩

end

theorem nonempty_of_rejects {limits : Limits} {text : List Char} {steps : List LexStep} (scans : Scans text steps)
    {number : Nat} {token : Token} (rejects : Rejects limits text steps number token) : text ≠ [] := by
  rintro rfl
  have none := scans.lexes.eq_nil rfl rfl
  rw [none] at rejects
  cases rejects.isNext

/-- A syntax error is final: the text stays one when more of it follows behind a blank, and the first diagnostic
stays in its place, unless the longer text cannot be classified. -/
theorem syntaxError_final (limits : Limits) (text more : String)
    (blank : ∀ c, more.toList.head? = some c → c = ' ' ∨ c = '\t' ∨ c = '\r' ∨ c = '\n')
    (fits : byteSize (text ++ more).toList ≤ maxOffset) (classification : Classification)
    (answered : classify limits text = .ok classification) (wrong : classification.answer = .syntaxError) :
    (∃ error, classify limits (text ++ more) = .error error) ∨
      ∃ later first diagnostic, classify limits (text ++ more) = .ok later ∧ later.answer = .syntaxError ∧
        classification.diagnostics.head? = some first ∧ later.diagnostics.head? = some diagnostic ∧
        diagnostic.span.start = first.span.start := by
  have fits' : byteSize text.toList ≤ maxOffset := by
    rw [String.toList_append, byteSize_append] at fits
    omega
  have blank' : StartsBlank more.toList := by
    cases head : more.toList.head? with
    | none => simp [StartsBlank, head]
    | some c =>
      simp only [StartsBlank, head, Option.all_some]
      exact isBlank_iff.mpr (blank c head)
  rcases classify_cases limits text fits' with ⟨encoded, same⟩ | ⟨_, _, _, _, failed, _⟩
  · rcases classify_cases limits (text ++ more) fits with ⟨encoded', same'⟩ | ⟨_, _, _, _, failed', _⟩
    · rw [same] at answered
      rw [same']
      rw [String.toList_append] at encoded' fits ⊢
      obtain ⟨steps, scans⟩ := encoded.scans fits'
      obtain ⟨number, token, rejects⟩ := scans.rejects answered wrong
      obtain ⟨steps', goesOn⟩ := scans.goesOn (nonempty_of_rejects scans rejects) blank' encoded' fits
      rcases goesOn.rejects rejects with failed | ⟨other, rejects', start⟩
      · exact .inl failed
      · obtain ⟨here, first, _, answered', -, isFirst, span, -⟩ := rejects.answer
        obtain rfl := Except.ok.inj (answered.symm.trans answered')
        obtain ⟨later, diagnostic, _, answeredLater, wrongLater, isFirstLater, spanLater, -⟩ := rejects'.answer
        refine .inr ⟨later, first, diagnostic, answeredLater, wrongLater, isFirst, isFirstLater, ?_⟩
        rw [span, spanLater, start]
    · exact .inl ⟨_, failed'⟩
  · cases failed.symm.trans answered

/-- A string behind a name is rejected, also when the end of its line turns it into an illegal token. -/
theorem syntaxError_final_string : ∃ classification, classify {} "x \"y" = .ok classification ∧
    classification.answer = .syntaxError ∧ ((∃ error, classify {} ("x \"y" ++ "\n") = .error error) ∨
      ∃ later first diagnostic, classify {} ("x \"y" ++ "\n") = .ok later ∧ later.answer = .syntaxError ∧
        classification.diagnostics.head? = some first ∧ later.diagnostics.head? = some diagnostic ∧
        diagnostic.span.start = first.span.start) := by
  obtain ⟨classification, answered, wrong⟩ := answered_of_decide
    (show (classify {} "x \"y").toOption.any (·.answer == .syntaxError) = true by decide +kernel)
  have wrong := beq_iff_eq.mp wrong
  refine ⟨classification, answered, wrong, ?_⟩
  exact syntaxError_final {} "x \"y" "\n" (by simp) (by decide) classification answered wrong

end GoPrompt
