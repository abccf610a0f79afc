import GoPrompt.Proofs.Classification.Answers
import GoPrompt.Proofs.Classification.Rejection
import GoPrompt.Proofs.Runs.Boundary

/-! Ending the line neither completes a text nor takes its completion away. A text that needs more input may turn
out to be wrong, because a literal cannot go on behind the line; and where the grammar may or may not take a
string, an unterminated one can let the text run deeper than the limit on the nesting allows. -/

namespace GoPrompt

open Parse

/-- What is left of an answer when the line is ended. -/
def Classification.Withstands (classification later : Classification) : Prop := match classification.answer with
  | .complete =>
    later.answer = .complete ∧ later.statement = classification.statement ∧
      later.tokensScanned = classification.tokensScanned
  | .syntaxError => later.answer = .syntaxError
  | .needMoreInput => later.answer = .needMoreInput ∨ later.answer = .syntaxError

/-- What is left of a report when the line is ended. -/
def Report.Withstands (report later : Report) : Prop := match report.verdict, later.verdict with
  | .complete statement, .complete statement' => statement.kind = statement'.kind ∧
      report.tokensScanned = later.tokensScanned
  | .needMoreInput _, .needMoreInput _ | .needMoreInput _, .syntaxError _ | .syntaxError _, .syntaxError _ => True
  | _, _ => False

theorem Classification.Tells.withstands {classification later : Classification} {report report' : Report}
    (tells : classification.Tells report) (tells' : later.Tells report') (withstands : report.Withstands report') :
    classification.Withstands later := by
  unfold Classification.Tells at tells tells'
  unfold Report.Withstands at withstands
  unfold Classification.Withstands
  cases verdict : report.verdict with
  | complete statement =>
    cases verdict' : report'.verdict with
    | complete statement' =>
      simp only [verdict, verdict'] at tells tells' withstands
      rw [tells.2.1]
      exact ⟨tells'.2.1, by rw [tells.2.2.1, tells'.2.2.1, withstands.1], by rw [tells.1, tells'.1, withstands.2]⟩
    | needMoreInput | syntaxError => simp only [verdict, verdict'] at withstands
  | needMoreInput reason =>
    cases verdict' : report'.verdict with
    | complete => simp only [verdict, verdict'] at withstands
    | needMoreInput =>
      simp only [verdict, verdict'] at tells tells'
      rw [tells.2.1]
      exact .inl tells'.2.1
    | syntaxError =>
      simp only [verdict, verdict'] at tells tells'
      rw [tells.2.1]
      exact .inr tells'.2.1
  | syntaxError error =>
    cases verdict' : report'.verdict with
    | complete | needMoreInput => simp only [verdict, verdict'] at withstands
    | syntaxError =>
      simp only [verdict, verdict'] at tells tells'
      rw [tells.2.1]
      exact tells'.2.1

section

variable {limits : Limits} {text longer : List Char} {steps steps' : List LexStep} {classification : Classification}

/-- A text whose run ends in one of the ways that leave it an answer is classified. -/
theorem Scans.answers (scans : Scans text steps)
    (spared : ∀ error after, Grammar.wholeText limits.forClassification.maxNesting (.ofText limits.forClassification text) =
      .error (.rejected error) after → ¬ error.IsBudget) :
    ∃ report parser classification, (classifyingParser limits text).parse = (.ok report, parser) ∧
      classifySource limits text = .ok classification ∧ classification.Tells report := by
  rcases Parser.parse_consistent { limit := some limits.forClassification.maxDiagnostics } scans.encoded scans.fits with
    ⟨error, parser, failed, budget⟩ | ⟨report, parser, parsed, consistent⟩
  · obtain ⟨after, ran⟩ := Parser.parse_fault failed
    exact absurd budget (spared error after ran)
  · obtain ⟨classification, answered, tells⟩ := classifySource_of_parse parsed consistent
    exact ⟨report, parser, classification, parsed, answered, tells⟩

private theorem Scans.tail_of_spoilt (scans : Scans text steps) {number reached limit : Nat} {found : Option Token}
    {stream : TokenStream} (cuts : CutsOff steps number) (seen : stream.Seen steps limit reached found)
    (consumed : number < stream.consumed) :
    found = none ∧ stream.tail = steps.getLast?.bind LexStep.cutoff? ∧ stream.tail.isSome = true := by
  obtain ⟨token, cutoff, isCut⟩ := cuts
  have length := scans.lexes.truncated_last isCut
  rw [seen.consumed] at consumed
  have last : steps.getLast? = some (.truncated token cutoff) := by
    rw [List.getLast?_eq_getElem?, length, Nat.add_sub_cancel, isCut]
  have none : found = none := by
    rw [← seen.isNext, tokenAt, List.getElem?_eq_none (by omega)]
    rfl
  have tail := seen.tail
  rw [(seen.missing none).1, if_pos rfl] at tail
  refine ⟨none, tail, ?_⟩
  rw [tail, last]
  rfl

/-- A run that has consumed such a literal makes the text one that needs more input because of it. -/
private theorem Scans.pending_of_spoilt (scans : Scans text steps) (answered : classifySource limits text = .ok classification)
    (lost : (Coupling.boundary steps steps' limits.maxTokens 0).Lost
      (Grammar.wholeText limits.forClassification.maxNesting (.ofText limits.forClassification text))) :
    classification.answer = .needMoreInput ∧ ∃ number token cutoff, number < limits.maxTokens ∧
      tokenAt steps' number = some token ∧ token.kind = .illegal ∧
      steps.getLast?.bind LexStep.cutoff? = some cutoff ∧ classification.pending = some (.cutOff cutoff.construct) := by
  obtain ⟨report, parser, parsed, tells⟩ := classifySource_report answered
  have concludes := Parser.parse_concludes parsed
  have ends := wholeText_ends limits.forClassification.maxNesting (scans.settled limits.forClassification) rfl
  -- Both ways of a run to end here are at the end of the text.
  have ended : ∀ {reached : Nat} {found : Option Token} {stream : TokenStream},
    stream.Seen steps limits.maxTokens reached found →
      stream.TakesSpoilt steps steps' 0 → found = none ∧ ∃ number token cutoff, number < limits.maxTokens ∧
        tokenAt steps' number = some token ∧ token.kind = .illegal ∧
        steps.getLast?.bind LexStep.cutoff? = some cutoff ∧ stream.tail = some cutoff := by
    rintro reached found stream seen ⟨number, token, cuts, there, illegal, consumed⟩
    obtain ⟨none, tail, isSome⟩ := scans.tail_of_spoilt cuts seen consumed
    obtain ⟨cutoff, isTail⟩ := Option.isSome_iff_exists.mp isSome
    have count := seen.count
    have within := seen.within
    rw [seen.consumed] at consumed
    exact ⟨none, number, token, cutoff, by omega, there, illegal, tail.symm.trans isTail, isTail⟩
  cases ran : Grammar.wholeText limits.forClassification.maxNesting (.ofText limits.forClassification text) with
  | ok statement after =>
    rw [ran] at concludes ends lost
    obtain ⟨reached, seen⟩ := ends
    obtain ⟨-, number, token, cutoff, room, there, illegal, last, tail⟩ := ended seen lost
    obtain ⟨-, verdict⟩ := concludes
    rw [tail] at verdict
    rw [Classification.Tells, verdict] at tells
    exact ⟨tells.2.1, number, token, cutoff, room, there, illegal, last, tells.2.2.2⟩
  | error failure after =>
    rw [ran] at concludes ends lost
    cases ends with
    | budget spent => exact absurd spent.isBudget.isFault (Bool.eq_false_iff.mp concludes.1)
    | blamed seen => cases (ended seen lost).1
    | wanted seen =>
      obtain ⟨-, number, token, cutoff, room, there, illegal, last, tail⟩ := ended seen lost
      have verdict : report.verdict = .needMoreInput (.cutOff cutoff.construct) := by
        rw [show report.verdict = _ from concludes, TokenStream.pendingReason, tail]
      rw [Classification.Tells, verdict] at tells
      exact ⟨tells.2.1, number, token, cutoff, room, there, illegal, last, tells.2.2.2⟩

/-- What is said of a text with a newline behind it, if the text itself needs more input because of the literal that
the newline spoils. -/
private theorem Scans.boundary_of_spoilt (scans : Scans text steps) (scans' : Scans longer steps')
    (answered : classifySource limits text = .ok classification)
    (lost : (Coupling.boundary steps steps' limits.maxTokens 0).Lost
      (Grammar.wholeText limits.forClassification.maxNesting (.ofText limits.forClassification text)))
    (strays : (Coupling.boundary steps steps' limits.maxTokens 0).Strays
      (Grammar.wholeText limits.forClassification.maxNesting (.ofText limits.forClassification longer))) :
    classification.answer = .needMoreInput ∧
      ((∃ later, classifySource limits longer = .ok later ∧ later.answer = .syntaxError) ∨
        (classification.pending = some (.cutOff .string) ∧
          ∃ error, classifySource limits longer = .error (.internal (.parser error)) ∧
            error.kind = .nestingLimitExceeded)) := by
  obtain ⟨wanting, number, token, cutoff, room, there, illegal, last, pending⟩ := scans.pending_of_spoilt answered lost
  refine ⟨wanting, ?_⟩
  rcases @Scans.stops_at_illegal limits.forClassification _ _ scans' _ _ there illegal with
    ⟨error, after, ran, spends⟩ | ⟨_, _, _, rejects⟩
  · right
    rw [ran] at strays
    rcases strays with ⟨cutoff', last', construct⟩ | ⟨_, _, _, same, _, blames, _⟩
    · obtain rfl := Option.some.inj (last.symm.trans last')
      refine ⟨by rw [pending, construct], error, classifySource_budget spends.isBudget ran, ?_⟩
      rcases spends with nesting | ⟨_, place, _, full, _, legal⟩
      · exact nesting
      · -- No token behind the illegal one is asked for, and up to it there is room.
        rcases Nat.lt_or_ge number place with before | behind
        · exact absurd illegal (legal number token before there)
        · have := show limits.maxTokens ≤ place from full
          omega
    · cases same
      exact absurd spends.isBudget blames.not_isBudget
  · obtain ⟨later, _, _, answered', wrong, -⟩ := rejects.answer
    exact .inl ⟨later, answered', wrong⟩

theorem BehindLine.tails (behind : BehindLine steps steps') {limit reached : Nat} {stream stream' : TokenStream}
    (seen : stream.Seen steps limit reached none) (seen' : stream'.Seen steps' limit reached none) :
    stream.tail.isSome = stream'.tail.isSome ∧ stream.scanned = stream'.scanned := by
  have scanned : stream.scanned = reached := by rw [seen.count, seen.front]; rfl
  have scanned' : stream'.scanned = reached := by rw [seen'.count, seen'.front]; rfl
  refine ⟨?_, scanned.trans scanned'.symm⟩
  rw [seen.tail, seen'.tail, (seen.missing rfl).1, (seen'.missing rfl).1, if_pos rfl, if_pos rfl]
  refine behind.cutoff fun number found there => ?_
  rcases Nat.lt_or_ge number reached with before | later
  · exact seen'.legal number found before there
  · cases there.symm.trans (seen'.ended (seen'.missing rfl).1 number (scanned'.symm ▸ later))

/-- Two runs that have not parted lead to reports of which one withstands the end of the line. -/
theorem BehindLine.concludes (behind : BehindLine steps steps') {limit : Nat} {run run' : EStateM.Result Failure ParseState Statement}
    (matched : (Coupling.boundary steps steps' limit 0).Matches (fun _ _ => (Coupling.boundary steps steps' limit 0).afterSeen 0 none none)
      run run') {report : Report} (concludes : report.Concludes run) :
    (∀ error after, run' = .error (.rejected error) after → ¬ error.IsBudget) ∧
      ∀ report' : Report, report'.Concludes run' → report.Withstands report' := by
  cases run with
  | ok statement after =>
    cases run' with
    | error failure' after' => exact matched.elim
    | ok statement' after' =>
      obtain ⟨same, reached, -, seen, seen'⟩ := matched
      obtain ⟨tail, scanned⟩ := behind.tails seen seen'
      refine ⟨fun _ _ rejected => absurd rejected (by simp), ?_⟩
      rintro report' ⟨count', verdict'⟩
      obtain ⟨count, verdict⟩ := concludes
      rw [Report.Withstands, verdict, verdict']
      cases isTail : after.stream.tail <;> cases isTail' : after'.stream.tail <;> rw [isTail, isTail'] at tail
      · exact ⟨same, by rw [count, count', scanned]⟩
      · cases tail
      · cases tail
      · trivial
  | error failure after =>
    cases run' with
    | ok statement' after' => exact matched.elim
    | error failure' after' =>
      rcases matched with ⟨error, rfl, budget⟩ | ⟨number, token, error', rfl, written, blames, seen⟩ |
        ⟨error, error', rfl, rfl⟩
      · exact absurd budget.isFault (Bool.eq_false_iff.mp concludes.1)
      · refine ⟨?_, fun report' concludes' => ?_⟩
        · rintro _ _ ⟨⟩
          exact blames.not_isBudget
        · rw [Report.Withstands, concludes'.2]
          cases failure with
          | needMoreInput error =>
            rw [show report.verdict = _ from concludes]
            trivial
          | rejected error =>
            rw [concludes.2]
            trivial
      · refine ⟨fun _ _ rejected => absurd rejected (by simp), fun report' concludes' => ?_⟩
        rw [Report.Withstands, show report.verdict = _ from concludes, show report'.verdict = _ from concludes']
        trivial

theorem Scans.boundary (scans : Scans text steps) (scans' : Scans longer steps') (behind : BehindLine steps steps')
    (answered : classifySource limits text = .ok classification) :
    (∃ later, classifySource limits longer = .ok later ∧ classification.Withstands later) ∨
      (classification.answer = .needMoreInput ∧ classification.pending = some (.cutOff .string) ∧
        ∃ error, classifySource limits longer = .error (.internal (.parser error)) ∧
          error.kind = .nestingLimitExceeded) := by
  have start : (Coupling.boundary steps steps' limits.maxTokens 0).settled 0 (.ofText limits.forClassification text)
      (.ofText limits.forClassification longer) :=
    ⟨scans.settled limits.forClassification, scans'.settled limits.forClassification⟩
  have outcome := Grammar.wholeText_outcome (Coupling.boundary_lawful (behind.beside _) scans.lexes.cutsOff_last)
    limits.forClassification.maxNesting
    start rfl rfl
  rcases outcome with ⟨lost, strays⟩ | matched
  · obtain ⟨wanting, ⟨later, answered', wrong⟩ | ⟨pending, failed⟩⟩ :=
      scans.boundary_of_spoilt scans' answered lost strays
    · exact .inl ⟨later, answered', by rw [Classification.Withstands, wanting]; exact .inr wrong⟩
    · exact .inr ⟨wanting, pending, failed⟩
  · obtain ⟨report, parser, parsed, tells⟩ := classifySource_report answered
    obtain ⟨spared, withstands⟩ := behind.concludes matched (Parser.parse_concludes parsed)
    obtain ⟨report', parser', later, parsed', answered', tells'⟩ := scans'.answers spared
    exact .inl ⟨later, answered', tells.withstands tells' (withstands report' (Parser.parse_concludes parsed'))⟩

theorem Encoded.newline (encoded : Encoded text) : Encoded (text ++ ['\n']) := by
  obtain ⟨noNul, noMark⟩ := encoded_iff.mp encoded
  refine encoded_iff.mpr ⟨by simp [noNul], ?_⟩
  cases text with
  | nil => simp
  | cons c rest => simpa [byteOrderMark] using noMark

theorem Scans.newline (scans : Scans text steps) (fits : byteSize (text ++ ['\n']) ≤ maxOffset) :
    ∃ steps', Scans (text ++ ['\n']) steps' ∧ BehindLine steps steps' := by
  have encoded := scans.encoded.newline
  have sound : (Lexer.ofText 0 (text ++ ['\n'])).Sound := Lexer.ofText_sound encoded fits
  have longer := Lexer.ofText_behind (by decide : '\n' ≠ byteOrderMark) 0 text []
  rw [longer] at sound
  obtain ⟨steps', lexes', behind | ⟨⟨_, none, _⟩, _⟩⟩ := scans.lexes.newline (by simp) sound
  · exact ⟨steps', ⟨encoded, fits, longer ▸ lexes'⟩, behind⟩
  · cases none

end

/-- Ending the line keeps a complete text complete and a wrong one wrong, and completes none. A text that needs more
input goes on to need it or turns out to be wrong, unless it ends within a string and the nesting budget is used up
where the string might not be taken. -/
theorem boundary_keeps_answer (limits : Limits) (text : String) (fits : byteSize text.toList < maxOffset)
    (classification : Classification) (answered : classify limits text = .ok classification) :
    (∃ later, Fragment.classify limits { text := text.toList, hasBoundary := true } = .ok later ∧
      classification.Withstands later) ∨
      (classification.answer = .needMoreInput ∧ classification.pending = some (.cutOff .string) ∧
        ∃ error, Fragment.classify limits { text := text.toList, hasBoundary := true } =
        .error (.internal (.parser error)) ∧
          error.kind = .nestingLimitExceeded) := by
  have fits' : byteSize (text.toList ++ ['\n']) ≤ maxOffset := by
    rw [byteSize_append]
    exact fits
  by_cases ended : text.toList.getLast? = some '\n'
  · -- The line is ended already.
    have same : ({ text := text.toList, hasBoundary := true } : Fragment).source =
        ({ text := text.toList } : Fragment).source := by
      simp [Fragment.source, ended]
    refine .inl ⟨classification, ?_, ?_⟩
    · rw [← answered, classify, Fragment.classify, Fragment.classify, same]
    · unfold Classification.Withstands
      cases classification.answer <;> simp
  · have source : ({ text := text.toList, hasBoundary := true } : Fragment).source = text.toList ++ ['\n'] := by
      simp [Fragment.source, ended]
    rcases classify_cases limits text (Nat.le_of_lt fits) with ⟨encoded, same⟩ | ⟨_, _, _, _, failed, _⟩
    · rw [same] at answered
      obtain ⟨steps, scans⟩ := encoded.scans (Nat.le_of_lt fits)
      obtain ⟨steps', scans', behind⟩ := scans.newline fits'
      rw [Fragment.classify, source]
      rcases checkEncoding_first fits' with ⟨checked, _⟩ | ⟨_, _, _, offence, _, _⟩
      · rw [checked]
        exact scans.boundary scans' behind answered
      · exact absurd scans'.encoded offence.not_encoded
    · cases failed.symm.trans answered

/-- A call of which only the closing bracket is missing is still open behind the line. -/
theorem boundary_keeps_answer_call : ∃ classification, classify {} "f(x" = .ok classification ∧
    ((∃ later, Fragment.classify {} { text := "f(x".toList, hasBoundary := true } = .ok later ∧
      classification.Withstands later) ∨
      (classification.answer = .needMoreInput ∧ classification.pending = some (.cutOff .string) ∧
        ∃ error, Fragment.classify {} { text := "f(x".toList, hasBoundary := true } =
        .error (.internal (.parser error)) ∧
          error.kind = .nestingLimitExceeded)) := by
  obtain ⟨classification, answered, -⟩ := answered_of_decide
    (show (classify {} "f(x").toOption.any (fun _ => true) = true by decide +kernel)
  exact ⟨classification, answered, boundary_keeps_answer {} "f(x" (by decide) classification answered⟩

/-- An unterminated tag in a struct needs more input, but a wrong one leaves no room for the nesting. -/
theorem boundary_tag_nesting :
    (classify { maxNesting := 2 } "type T struct \x7b a \"x").toOption.any (·.answer == .needMoreInput) = true ∧
      (Fragment.classify { maxNesting := 2 } { text := "type T struct \x7b a \"x".toList, hasBoundary :=
        true }).toOption = none := by
  decide +kernel

end GoPrompt
