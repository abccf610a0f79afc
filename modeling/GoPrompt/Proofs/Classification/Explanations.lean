import GoPrompt.Proofs.Classification.Rejection
import GoPrompt.Proofs.Classification.Room
import GoPrompt.Proofs.Runs.Recovery
import GoPrompt.Proofs.Source.LineIndex

/-! The diagnostics of a classification explain its answer, and come in the order of the text. The recovery starts at a
rejected token and rejects only tokens that are further on, and what it asks for behind the end of the text is further
on than all of them. -/

namespace GoPrompt

/-- A diagnostic that starts between two characters of the text, with the line and the column of that place. -/
def Diagnostic.IsLocated (text : List Char) (diagnostic : Diagnostic) : Prop :=
  ∃ before after, text = before ++ after ∧ diagnostic.span.start = byteSize before ∧
    diagnostic.position = (Position.behind before).clamped

/-- Diagnostics in the order of the places where they start. -/
structure InOrder (text : List Char) (diagnostics : List Diagnostic) : Prop where
  located : ∀ diagnostic ∈ diagnostics, diagnostic.IsLocated text
  sorted : diagnostics.Pairwise fun earlier later => earlier.span.start < later.span.start

/-- Diagnostics about tokens up to the one with the given number. -/
structure Explained (text : List Char) (steps : List LexStep) (number : Nat) (diagnostics : List Diagnostic) : Prop
    extends InOrder text diagnostics where
  placed : ∀ diagnostic ∈ diagnostics, ∃ place token, place ≤ number ∧ tokenAt steps place = some token ∧
    ¬ token.IsInserted ∧ diagnostic.span.start = token.span.start

section

variable {text : List Char} {steps : List LexStep} {number : Nat} {diagnostics : List Diagnostic}
  {diagnostic : Diagnostic}

theorem InOrder.nil (text : List Char) : InOrder text [] := ⟨nofun, .nil⟩

theorem InOrder.concat (inOrder : InOrder text diagnostics) (located : diagnostic.IsLocated text)
    (further : ∀ earlier ∈ diagnostics, earlier.span.start < diagnostic.span.start) :
    InOrder text (diagnostics ++ [diagnostic]) where
  located other mem := by
    rcases List.mem_append.mp mem with before | last
    · exact inOrder.located other before
    · exact List.mem_singleton.mp last ▸ located
  sorted := List.pairwise_append.mpr ⟨inOrder.sorted, List.pairwise_singleton _ _, fun earlier mem last isLast =>
    List.mem_singleton.mp isLast ▸ further earlier mem⟩

theorem InOrder.report {collector : Collector} (inOrder : InOrder text collector.diagnostics)
    (located : diagnostic.IsLocated text)
    (further : ∀ earlier ∈ collector.diagnostics, earlier.span.start < diagnostic.span.start) :
    InOrder text (collector.report diagnostic).diagnostics := by
  unfold Collector.report
  split
  next => exact inOrder
  next => exact inOrder.concat located further

theorem Explained.mono {later : Nat} (explained : Explained text steps number diagnostics) (within : number ≤ later) :
    Explained text steps later diagnostics where
  toInOrder := explained.toInOrder
  placed diagnostic mem := by
    obtain ⟨place, token, before, there⟩ := explained.placed diagnostic mem
    exact ⟨place, token, Nat.le_trans before within, there⟩

theorem Explained.report {later : Nat} {token : Token} {collector : Collector} (scans : Scans text steps)
    (explained : Explained text steps number collector.diagnostics) (further : number < later)
    (there : tokenAt steps later = some token) (written : ¬ token.IsInserted) (located : diagnostic.IsLocated text)
    (same : diagnostic.span.start = token.span.start) :
    Explained text steps later (collector.report diagnostic).diagnostics where
  toInOrder := explained.toInOrder.report located fun earlier mem => by
    obtain ⟨place, other, before, isOther, written', start⟩ := explained.placed earlier mem
    rw [start, same]
    exact scans.starts_lt (Nat.lt_of_le_of_lt before further) isOther written' there
  placed := by
    have before := (explained.mono (Nat.le_of_lt further)).placed
    unfold Collector.report
    split
    next => exact before
    next =>
      intro other mem
      rcases List.mem_append.mp mem with old | last
      · exact before other old
      · rw [List.mem_singleton.mp last]
        exact ⟨later, token, Nat.le_refl _, there, written, same⟩

end

private theorem Diagnostic.isLocated_of_start {text before after : List Char} {diagnostic : Diagnostic}
    (splits : text = before ++ after) (start : diagnostic.span.start = byteSize before)
    (position : diagnostic.position = .ofOffset text diagnostic.span.start) :
    diagnostic.IsLocated text := by
  refine ⟨before, after, splits, start, ?_⟩
  rw [position, start, splits]
  exact Position.ofOffset_byteSize before after

section

variable {text : List Char} {steps : List LexStep} {limit number : Nat} {parser : Parser} {error : ParseError}
  {token : Token}

theorem Scans.diagnosis_token (scans : Scans text steps) (same : parser.text = text)
    (there : tokenAt steps number = some token) (isSpan : error.span = some token.span) :
    (parser.diagnosis error).span = token.span ∧ (parser.diagnosis error).IsLocated text := by
  have span : (parser.diagnosis error).span = token.span := by simp only [Parser.diagnosis, isSpan, Option.getD_some]
  obtain ⟨step, isStep, isToken⟩ := tokenAt_eq_some.mp there
  obtain ⟨before, after, splits, starts⟩ := scans.startsAt isStep
  exact ⟨span, Diagnostic.isLocated_of_start splits (by rw [span, starts.1 token isToken]) (same ▸ rfl)⟩

theorem Scans.diagnosis_asked {found : Option Token} (scans : Scans text steps) (same : parser.text = text)
    (isNext : tokenAt steps number = found) (asks : error.Asks parser.state.stream found) :
    (parser.diagnosis error).offending = .endOfInput ∧ (parser.diagnosis error).IsLocated text ∧
      ∀ place other, place < number → tokenAt steps place = some other →
      other.span.stop ≤ (parser.diagnosis error).span.start := by
  have offending : (parser.diagnosis error).offending = .endOfInput := by simp only [Parser.diagnosis, asks.1]
  cases found with
  | some token =>
    obtain ⟨span, located⟩ := scans.diagnosis_token same isNext asks.2
    refine ⟨offending, located, fun place other less there => ?_⟩
    rw [span]
    exact scans.ordered less there isNext
  | none =>
    have start : (parser.diagnosis error).span.start = byteSize text := by
      have fits := scans.fits
      simp only [Parser.diagnosis, asks.2, Option.elim_none, Option.getD_some]
      show clampOffset (byteSize parser.text) = byteSize text
      rw [same]
      exact Nat.min_eq_left fits
    refine ⟨offending, Diagnostic.isLocated_of_start (List.append_nil text).symm start (same ▸ rfl),
      fun place other _ there => ?_⟩
    rw [start]
    exact scans.stops_within there

/-- The recovery lists its diagnostics in order, and comes to an end, unless a budget is used up. -/
private theorem Parser.recoverLoop_explained {parser : Parser} {number : Nat} (scans : Scans text steps)
    (same : parser.text = text) (stands : parser.state.stream.Stands steps limit number)
    (explained : Explained text steps number parser.collector.diagnostics) :
    InOrder text parser.recoverLoop.2.collector.diagnostics ∧
      (parser.recoverLoop.1 = .ok () ∨ ∃ error, parser.recoverLoop.1 = .error error ∧ error.IsBudget) := by
  have recovers := recoverOnce_recovers stands
  rw [recoverLoop]
  split
  next => exact ⟨explained.toInOrder, .inl rfl⟩
  next =>
    -- A turn that goes on has consumed a token.
    have goesOn : ∀ {reached : Nat} {after : Parser}, number < reached → after.text = text →
        after.state.stream.Stands steps limit reached → Explained text steps reached after.collector.diagnostics →
        after.state.remaining < parser.state.remaining ∧ (InOrder text after.recoverLoop.2.collector.diagnostics ∧
          (after.recoverLoop.1 = .ok () ∨ ∃ error, after.recoverLoop.1 = .error error ∧ error.IsBudget)) := by
      intro reached after further same stands' explained
      have smaller : after.state.remaining < parser.state.remaining := by
        have within := stands'.within
        have count := stands'.count
        show after.state.stream.remaining < parser.state.stream.remaining
        rw [stands.remaining, stands'.remaining]
        omega
      exact ⟨smaller, recoverLoop_explained scans same stands' explained⟩
    generalize parser.recoverOnce = turned at recovers
    cases recovers with
    | fault isBudget => exact ⟨explained.toInOrder, .inr ⟨_, rfl, isBudget⟩⟩
    | ended => exact ⟨explained.toInOrder, .inl rfl⟩
    | @wanted place found error state further kept isNext asks =>
      have same' : (parser.withState state).text = text := kept.trans same
      obtain ⟨-, located, behind⟩ := scans.diagnosis_asked same' isNext asks
      refine ⟨?_, .inl rfl⟩
      rw [report_eq]
      refine explained.toInOrder.report located fun earlier mem => ?_
      obtain ⟨place', token, before, there, written, start⟩ := explained.placed earlier mem
      rw [start]
      exact Nat.lt_of_lt_of_le (scans.nonempty there written)
        (behind place' token (Nat.lt_of_le_of_lt before further) there)
    | @read reached state further kept stands' =>
      have same' : (parser.withState state).text = text := kept.trans same
      obtain ⟨smaller, later⟩ := goesOn further same' stands' (explained.mono (Nat.le_of_lt further))
      dsimp only
      rw [if_pos smaller]
      exact later
    | @rejected reached token error state further kept stands' isNext written blames =>
      have same' : (parser.withState state).text = text := kept.trans same
      obtain ⟨span, located⟩ := scans.diagnosis_token same' isNext blames.1
      have explained' : Explained text steps reached
          ((parser.withState state).report error).resetDepth.collector.diagnostics := by
        rw [report_eq]
        exact explained.report scans further isNext written located (by rw [span])
      have moved : ((parser.withState state).report error).resetDepth.text = text := same'
      obtain ⟨smaller, later⟩ := goesOn further moved stands' explained'
      dsimp only
      rw [if_pos smaller]
      exact later
termination_by parser.state.remaining
decreasing_by exact smaller

private theorem Scans.cutoff_starts (scans : Scans text steps) {stream : TokenStream}
    (placed : stream.Placed steps limit number) {cutoff : Cutoff} (isCut : stream.tail = some cutoff) :
    ∃ before after, text = before ++ after ∧ cutoff.diagnostic.span.start = byteSize before := by
  rw [placed.tail] at isCut
  split at isCut
  next =>
    obtain ⟨step, isLast, isCut⟩ := Option.bind_eq_some_iff.mp isCut
    rw [List.getLast?_eq_getElem?] at isLast
    obtain ⟨before, after, splits, starts⟩ := scans.startsAt isLast
    exact ⟨before, after, splits, starts.2 cutoff isCut⟩
  next => cases isCut

end

/-- What the diagnostics of a parse say of its verdict. -/
def Parser.Explains (text : List Char) (steps : List LexStep) (parser : Parser) : Verdict → Prop
  | .complete _ => parser.collector.diagnostics = []
  | .needMoreInput _ => ∃ diagnostic, parser.collector.diagnostics = [diagnostic] ∧ diagnostic.offending = .endOfInput ∧
      diagnostic.IsLocated text
  | .syntaxError error => ∃ primary source number, parser.collector.diagnostics = [primary] ∧
      error.span = some primary.span ∧
      primary.message = error.message ∧ primary.offending = .token source ∧ Explained text steps number [primary] ∧
      parser.text = text ∧ parser.state.stream.Stands steps parser.limits.maxTokens number

section

variable {limits : Limits} {text : List Char} {steps : List LexStep} {report : Report} {parser : Parser}

private theorem classifyingParser_emit (limits : Limits) (text : List Char) (state : ParseState)
    (diagnostic : Diagnostic) :
    (((classifyingParser limits text).withState state).emit diagnostic).collector.diagnostics = [diagnostic] := by
  have keeps : (classifyingParser limits text).Keeps := ⟨rfl, rfl, Nat.zero_le _⟩
  rw [(keeps.withState state).emit_eq (Nat.lt_of_lt_of_le Nat.zero_lt_one (Nat.le_max_right _ _))]
  rfl

private theorem Scans.cutoff_explains (scans : Scans text steps) {number : Nat} {state : ParseState} {cutoff : Cutoff}
    (same : state.stream.text = text) (placed : state.stream.Placed steps limits.maxTokens number)
    (isCut : state.stream.tail = some cutoff) :
    ∃ diagnostic, (((classifyingParser limits text).withState state).reportCutoff cutoff).collector.diagnostics =
    [diagnostic] ∧
      diagnostic.offending = .endOfInput ∧ diagnostic.IsLocated text := by
  obtain ⟨before, after, splits, starts⟩ := scans.cutoff_starts placed isCut
  exact ⟨_, classifyingParser_emit limits text state _, rfl,
    Diagnostic.isLocated_of_start splits starts (congrArg (Position.ofOffset · _) same)⟩

private theorem Scans.blamed_explains (scans : Scans text steps) {number : Nat} {token : Token} {error : ParseError}
    {state : ParseState} (same : state.stream.text = text)
    (seen : state.stream.Seen steps limits.forClassification.maxTokens number (some token))
    (written : ¬ token.IsInserted) (blames : error.Blames token) :
    (((classifyingParser limits text).withState state).report error).Explains text steps (.syntaxError error) := by
  have isText : ((classifyingParser limits text).withState state).text = text := same
  obtain ⟨span, located⟩ := scans.diagnosis_token isText seen.isNext blames.1
  have room : (classifyingParser limits text).collector.isSaturated = false :=
    decide_eq_false (Nat.not_le_of_lt (Nat.le_max_right limits.maxDiagnostics 1))
  obtain ⟨diagnostic, source, isFirst, -, offending, -⟩ :=
    Parser.report_head (show ((classifyingParser limits text).withState state).collector.diagnostics = [] from rfl)
      room blames
  have listed := classifyingParser_emit limits text state
    (((classifyingParser limits text).withState state).diagnosis error)
  rw [← Parser.report_eq] at listed
  rw [listed] at isFirst
  obtain rfl := Option.some.inj isFirst
  refine ⟨_, source, number, listed, by rw [span]; exact blames.1, rfl, offending, ?_, isText, seen.settled.anew⟩
  exact {
    located := fun diagnostic mem => List.mem_singleton.mp mem ▸ located
    sorted := List.pairwise_singleton _ _
    placed := fun diagnostic mem =>
      ⟨number, token, Nat.le_refl _, seen.isNext, written, by rw [List.mem_singleton.mp mem, span]⟩ }

/-- A parse explains its verdict with a diagnostic, unless the text is complete. -/
private theorem Scans.parse_explains (scans : Scans text steps)
    (parsed : (classifyingParser limits text).parse = (.ok report, parser)) :
    parser.Explains text steps report.verdict := by
  have ends := wholeText_ends limits.forClassification.maxNesting (scans.settled limits.forClassification) rfl
  have onward := wholeText_onward limits.forClassification.maxNesting
    (show (ParseState.ofText limits.forClassification text).depth = 0 from rfl)
  have parses := classifyingParser_parses limits text
  rw [parsed] at parses
  generalize Grammar.wholeText limits.forClassification.maxNesting (.ofText limits.forClassification text) =
    outcome at ends onward parses
  cases parses with
  | complete => rfl
  | cutOff isCut =>
    obtain ⟨number, seen⟩ := ends
    exact scans.cutoff_explains onward.text seen.toPlaced isCut
  | wantedCutOff isCut =>
    cases ends with
    | wanted seen => exact scans.cutoff_explains onward.text seen.toPlaced isCut
  | @wanted error state =>
    cases ends with
    | wanted seen _ _ asks =>
      have isText : ((classifyingParser limits text).withState state).text = text := onward.text
      obtain ⟨offending, located, -⟩ := scans.diagnosis_asked isText seen.isNext asks
      refine ⟨_, ?_, offending, located⟩
      rw [Parser.report_eq]
      exact classifyingParser_emit limits text state _
  | rejected noFault =>
    cases ends with
    | budget spent => cases noFault.symm.trans spent.isBudget.isFault
    | blamed seen written blames => exact scans.blamed_explains onward.text seen written blames

/-- The diagnostics of an answer, with all that the recovery has found. -/
theorem Scans.explains (scans : Scans text steps) {classification : Classification}
    (answered : classifySource limits text = .ok classification) : InOrder text classification.diagnostics ∧
      match classification.answer with
      | .complete => classification.diagnostics = []
      | .needMoreInput => ∃ diagnostic, classification.diagnostics = [diagnostic] ∧ diagnostic.offending = .endOfInput
      | .syntaxError => ∃ report parser error primary later source,
          (classifyingParser limits text).parse = (.ok report, parser) ∧ report.verdict = .syntaxError error ∧
          classification.diagnostics = primary :: later ∧ error.span = some primary.span ∧
          primary.message = error.message ∧ primary.offending = .token source := by
  obtain ⟨report, parser, parsed, tells, listed⟩ := classifySource_parsed answered
  have explains := scans.parse_explains parsed
  have parts := tells.2
  cases verdict : report.verdict with
  | complete statement =>
    rw [verdict] at explains parts listed
    have nothing : classification.diagnostics = [] := listed.trans explains
    rw [parts.1, nothing]
    exact ⟨.nil text, rfl⟩
  | needMoreInput reason =>
    rw [verdict] at explains parts listed
    obtain ⟨diagnostic, only, offending, located⟩ := explains
    have only : classification.diagnostics = [diagnostic] := listed.trans only
    rw [parts.1, only]
    exact ⟨(InOrder.nil text).concat located nofun, diagnostic, rfl, offending⟩
  | syntaxError error =>
    rw [verdict] at explains parts listed
    obtain ⟨primary, source, number, only, span, message, offending, explained, kept, stands⟩ := explains
    rw [← only] at explained
    have reset : parser.resetDepth.text = text := kept
    obtain ⟨inOrder, -⟩ := Parser.recoverLoop_explained scans reset stands explained
    have first := Parser.explain_head
      (show parser.collector.diagnostics.head? = some primary by rw [only]; rfl) (.syntaxError error)
    rw [← listed] at first
    obtain ⟨later, splits⟩ := List.head?_eq_some_iff.mp first
    rw [parts.1]
    refine ⟨?_, report, parser, error, primary, later, source, parsed, verdict, splits, span, message, offending⟩
    rw [listed]
    exact inOrder

end

/-- The diagnostics explain the answer, in the order of the text. A complete text has none, a text that needs more
input has one about its end, and a syntax error has that of the parse first, about a token, with those of the recovery
behind it. Each has the line and the column of its start, up to the largest offset. Less room for diagnostics leaves
the first ones. -/
theorem diagnostics_explain (limits : Limits) (text : String) (fits : byteSize text.toList ≤ maxOffset)
    (classification : Classification) (answered : classify limits text = .ok classification) :
    (match classification.answer with
      | .complete => classification.diagnostics = []
      | .needMoreInput => ∃ diagnostic, classification.diagnostics = [diagnostic] ∧ diagnostic.offending = .endOfInput
      | .syntaxError => ∃ report parser error primary later source,
          (classifyingParser limits text.toList).parse = (.ok report, parser) ∧ report.verdict = .syntaxError error ∧
          classification.diagnostics = primary :: later ∧ error.span = some primary.span ∧
          primary.message = error.message ∧ primary.offending = .token source) ∧
      classification.diagnostics.length ≤ max 1 limits.maxDiagnostics ∧
      classification.diagnostics.Pairwise (fun earlier later => earlier.span.start < later.span.start) ∧
      (∀ diagnostic ∈ classification.diagnostics, ∃ before after, text.toList = before ++ after ∧
        diagnostic.span.start = byteSize before ∧ diagnostic.position = (Position.behind before).clamped ∧
        (byteSize text.toList < maxOffset → diagnostic.position = Position.behind before)) ∧
      ∀ fewer, fewer ≤ limits.maxDiagnostics → classify { limits with maxDiagnostics := fewer } text =
        .ok { classification with diagnostics := classification.diagnostics.take (max 1 fewer) } := by
  rcases classify_cases limits text fits with ⟨encoded, same⟩ | ⟨_, _, _, _, failed, _⟩
  · rw [same] at answered
    obtain ⟨steps, scans⟩ := encoded.scans fits
    obtain ⟨inOrder, explained⟩ := scans.explains answered
    have room : ∀ fewer, fewer ≤ limits.maxDiagnostics → classify { limits with maxDiagnostics := fewer } text =
        .ok { classification with diagnostics := classification.diagnostics.take (max 1 fewer) } := by
      intro fewer smaller
      rcases classify_cases { limits with maxDiagnostics := fewer } text fits with ⟨_, same'⟩ | ⟨_, _, _, offence, _, _⟩
      · rw [same', classifySource_withRoom smaller, answered]
        rfl
      · exact absurd encoded offence.not_encoded
    refine ⟨explained, ?_, inOrder.sorted, fun diagnostic mem => ?_, room⟩
    · -- A budget that is not made smaller leaves all of them.
      have whole := room limits.maxDiagnostics (Nat.le_refl _)
      rw [same, answered] at whole
      rw [congrArg Classification.diagnostics (Except.ok.inj whole)]
      exact List.length_take_le _ _
    · obtain ⟨before, after, splits, start, position⟩ := inOrder.located diagnostic mem
      refine ⟨before, after, splits, start, position, fun small => ?_⟩
      rw [position, Position.clamped_behind (splits ▸ small)]
  · cases failed.symm.trans answered

/-- Two brackets too many, and one that is still open. -/
theorem diagnostics_explain_three : byteSize ") ; x\n) ; f(".toList ≤ maxOffset ∧ ∃ classification,
    classify {} ") ; x\n) ; f(" = .ok classification ∧
    classification.diagnostics.map (·.position.text) = ["1:1", "2:1", "2:7"] ∧
      classification.diagnostics.Pairwise (fun earlier later => earlier.span.start < later.span.start) ∧
      classify { maxDiagnostics := 2 } ") ; x\n) ; f(" =
        .ok { classification with diagnostics := classification.diagnostics.take 2 } := by
  have fits : byteSize ") ; x\n) ; f(".toList ≤ maxOffset := by decide
  obtain ⟨classification, answered, listed⟩ := answered_of_decide
    (show (classify {} ") ; x\n) ; f(").toOption.any (·.diagnostics.map (·.position.text) == ["1:1", "2:1", "2:7"]) =
        true by
      decide +kernel)
  obtain ⟨-, -, sorted, -, room⟩ := diagnostics_explain {} ") ; x\n) ; f(" fits classification answered
  exact ⟨fits, classification, answered, beq_iff_eq.mp listed, sorted, room 2 (by decide)⟩

end GoPrompt
