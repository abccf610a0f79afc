import GoPrompt.Proofs.Classification.Answers
import GoPrompt.Proofs.Runs.Parsed

/-! A classification never contradicts itself. A text is malformed exactly if it has a character that is not
allowed, and apart from that only a budget can keep a text from an answer. -/

namespace GoPrompt

variable {text : List Char}

theorem classifySource_answers (limits : Limits) (encoded : Encoded text) (fits : byteSize text ≤ maxOffset) :
    (∃ error, classifySource limits text = .error (.internal (.parser error)) ∧ error.IsBudget) ∨
      ∃ classification, classifySource limits text = .ok classification := by
  unfold classifySource
  dsimp only
  rcases Parser.parse_consistent _ encoded fits with ⟨error, parser, parsed, budget⟩ |
    ⟨report, parser, parsed, consistent⟩
  · rw [parsed]
    refine .inl ⟨error, ?_, budget⟩
    rcases budget with kind | kind <;> simp only [ClassifyError.ofParseError, kind]
  · rw [parsed]
    simp only [consistent.answers]
    exact .inr ⟨_, rfl⟩

theorem classifySource_of_parse {limits : Limits} {text : List Char} {report : Report} {parser : Parser}
    (parsed : (classifyingParser limits text).parse = (.ok report, parser)) (consistent : report.IsConsistent) :
    ∃ classification, classifySource limits text = .ok classification ∧ classification.Tells report := by
  have answered : ∃ classification, classifySource limits text = .ok classification := by
    unfold classifySource
    unfold classifyingParser at parsed
    simp only [parsed, consistent.answers]
    exact ⟨_, rfl⟩
  obtain ⟨classification, answered⟩ := answered
  obtain ⟨report', parser', parsed', tells⟩ := classifySource_report answered
  cases parsed.symm.trans parsed'
  exact ⟨classification, answered, tells⟩

/-- A text that reduces to a statement, with no token of it cut off, is complete. -/
theorem classifySource_reduced {limits : Limits} {statement : Statement} {after : ParseState} (encoded : Encoded text)
    (fits : byteSize text ≤ maxOffset)
    (ran : Grammar.wholeText limits.forClassification.maxNesting (.ofText limits.forClassification text) = .ok statement after)
    (uncut : after.stream.tail = none) :
    ∃ classification, classifySource limits text = .ok classification ∧ classification.answer = .complete ∧
      classification.statement = some statement.kind := by
  rcases Parser.parse_consistent _ encoded fits with ⟨error, parser, failed, _⟩ | ⟨report, parser, parsed, consistent⟩
  · obtain ⟨_, ran'⟩ := Parser.parse_fault failed
    cases ran.symm.trans ran'
  · have concludes := Parser.parse_concludes parsed
    simp only [ran, Report.Concludes, uncut] at concludes
    obtain ⟨classification, answered, tells⟩ := classifySource_of_parse parsed consistent
    simp only [Classification.Tells, concludes.2] at tells
    exact ⟨classification, answered, tells.2.1, tells.2.2.1⟩

theorem classify_cases (limits : Limits) (text : String) (fits : byteSize text.toList ≤ maxOffset) :
    (Encoded text.toList ∧ classify limits text = classifySource limits text.toList) ∨
      ∃ before c diagnostic, FirstOffence text.toList before c ∧ classify limits text = .error (.malformed diagnostic) ∧
        diagnostic.span = Span.ofLength 0 (byteSize before) c.utf8Size := by
  have whole : ({ text := text.toList } : Fragment).source = text.toList := rfl
  rw [classify, Fragment.classify, whole]
  rcases checkEncoding_first fits with ⟨checked, encoded⟩ | ⟨before, c, diagnostic, offence, checked, span⟩
  · rw [checked]
    exact .inl ⟨encoded, rfl⟩
  · rw [checked]
    exact .inr ⟨before, c, diagnostic, offence, rfl, span⟩

theorem FirstOffence.not_encoded {before : List Char} {c : Char} (offence : FirstOffence text before c) :
    ¬ Encoded text := by
  obtain ⟨after, splits⟩ := offence.there
  exact fun encoded => encoded before c after splits offence.offends

private theorem Encoded.not_malformed {text : String} (encoded : Encoded text.toList) (limits : Limits)
    (fits : byteSize text.toList ≤ maxOffset) (diagnostic : LexDiagnostic) :
    classify limits text ≠ .error (.malformed diagnostic) := by
  intro malformed
  rcases classify_cases limits text fits with ⟨_, same⟩ | ⟨_, _, _, offence, _, _⟩
  · rcases classifySource_answers limits encoded fits with ⟨error, failed, _⟩ | ⟨classification, answered⟩
    · cases (same.trans failed).symm.trans malformed
    · cases (same.trans answered).symm.trans malformed
  · exact offence.not_encoded encoded

theorem answered_of_decide {result : Except ClassifyError Classification} {p : Classification → Bool}
    (computed : result.toOption.any p = true) :
    ∃ classification, result = .ok classification ∧ p classification = true := by
  cases result with
  | ok classification => exact ⟨classification, rfl, computed⟩
  | error => cases computed

/-- A classification fails in two ways only: the text is malformed, which is blamed on its first character that
is not allowed, or a budget is used up. The reports behind the answers are consistent. -/
theorem classify_consistent (limits : Limits) (text : String) (fits : byteSize text.toList ≤ maxOffset) :
    ((∃ diagnostic, classify limits text = .error (.malformed diagnostic)) ↔
        '\x00' ∈ text.toList ∨ byteOrderMark ∈ text.toList.tail) ∧
      (∀ diagnostic, classify limits text = .error (.malformed diagnostic) → ∃ before c,
        FirstOffence text.toList before c ∧ diagnostic.span = Span.ofLength 0 (byteSize before) c.utf8Size) ∧
      (∀ fault, classify limits text = .error (.internal fault) → ∃ error, fault = .parser error ∧
        (error.kind = .tokenLimitExceeded ∨ error.kind = .nestingLimitExceeded)) ∧
      ('\x00' ∉ text.toList → byteOrderMark ∉ text.toList.tail → ∀ budgets collector report parser,
        (Parser.ofText budgets text.toList collector).parse = (.ok report, parser) → match report.verdict with
          | .complete _ | .needMoreInput _ => report.observedEnd = true
          | .syntaxError error => error.kind = .unexpectedToken ∨ error.kind = .invalidToken) := by
  have disallowed : '\x00' ∈ text.toList ∨ byteOrderMark ∈ text.toList.tail ↔ ¬ Encoded text.toList := by
    rw [encoded_iff, Decidable.not_and_iff_not_or_not, Decidable.not_not, Decidable.not_not]
  refine ⟨?_, ?_, ?_, ?_⟩
  · rw [disallowed]
    constructor
    · rintro ⟨diagnostic, malformed⟩ encoded
      exact encoded.not_malformed limits fits diagnostic malformed
    · intro unencoded
      rcases classify_cases limits text fits with ⟨encoded, _⟩ | ⟨_, _, diagnostic, _, malformed, _⟩
      · exact absurd encoded unencoded
      · exact ⟨diagnostic, malformed⟩
  · intro diagnostic malformed
    rcases classify_cases limits text fits with ⟨encoded, _⟩ | ⟨before, c, _, offence, malformed', span⟩
    · exact absurd malformed (encoded.not_malformed limits fits diagnostic)
    · cases malformed'.symm.trans malformed
      exact ⟨before, c, offence, span⟩
  · intro fault internal
    rcases classify_cases limits text fits with ⟨encoded, same⟩ | ⟨_, _, _, _, malformed, _⟩
    · rcases classifySource_answers limits encoded fits with ⟨error, failed, budget⟩ | ⟨classification, answered⟩
      · cases (same.trans failed).symm.trans internal
        exact ⟨error, rfl, budget⟩
      · cases (same.trans answered).symm.trans internal
    · cases malformed.symm.trans internal
  · intro noNul noMark budgets collector report parser parsed
    have encoded := encoded_iff.mpr ⟨noNul, noMark⟩
    rcases Parser.parse_consistent collector encoded fits with ⟨error, _, failed, _⟩ | ⟨report', _, parsed', consistent⟩
    · cases failed.symm.trans parsed
    · cases parsed'.symm.trans parsed
      exact consistent

/-- A character that is not allowed is found behind a syntax error, too. -/
theorem classify_consistent_nul : byteSize ") \x00".toList ≤ maxOffset ∧
    ∃ diagnostic, classify {} ") \x00" = .error (.malformed diagnostic) :=
  ⟨by decide, (classify_consistent {} ") \x00" (by decide)).1.mpr (.inl (by decide))⟩

end GoPrompt
