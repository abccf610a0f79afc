import GoPrompt.Proofs.Classification.Boundary
import GoPrompt.Proofs.Lexical.Order
import GoPrompt.Proofs.Runs.Onward

/-! A blank line completes nothing. Behind a text that needs more input its blanks are skipped, or they stand in a
comment or a raw string that is still open, or they are not allowed where they are. -/

namespace GoPrompt

open Parse

section

variable {limits : Limits} {text : String} {classification : Classification}
  (answered : classify limits text = .ok classification) (complete : classification.answer = .complete)
include answered complete

theorem reduced_of_complete : ∃ statement after,
    Grammar.wholeText limits.forClassification.maxNesting (.ofText limits.forClassification text.toList) =
    .ok statement after ∧
      after.stream.tail = none := by
  obtain ⟨report, parser, parsed, tells⟩ := classifySource_report (classify_source answered)
  have concludes := Parser.parse_concludes parsed
  cases verdict : report.verdict with
  | needMoreInput | syntaxError =>
    simp only [Classification.Tells, verdict, complete] at tells
    cases tells.2.1
  | complete statement =>
    cases ran : Grammar.wholeText limits.forClassification.maxNesting
      (.ofText limits.forClassification text.toList) with
    | ok statement after =>
      rw [ran, Report.Concludes, verdict] at concludes
      cases tail : after.stream.tail with
      | none => exact ⟨statement, after, rfl, tail⟩
      | some cutoff =>
        rw [tail] at concludes
        cases concludes.2
    | error failure after =>
      rw [ran] at concludes
      cases failure with
      | needMoreInput =>
        rw [Report.Concludes, verdict] at concludes
        cases concludes
      | rejected =>
        rw [Report.Concludes, verdict] at concludes
        cases concludes.2

theorem fits_of_complete : byteSize text.toList ≤ maxOffset := by
  obtain ⟨statement, after, ran, whole⟩ := reduced_of_complete answered complete
  have onward := wholeText_onward limits.forClassification.maxNesting
    (show (ParseState.ofText limits.forClassification text.toList).depth = 0 from rfl)
  rw [ran] at onward
  have begins : (ParseState.ofText limits.forClassification text.toList).stream.Trails :=
    ⟨Lexer.ofText_size 0 text.toList, nofun⟩
  have fits := (onward.trails begins).fits (wholeText_exhausted ran) whole
  rwa [onward.text] at fits

private theorem Scans.legal_of_complete {steps : List LexStep} (scans : Scans text.toList steps) :
    ¬ HasIllegal steps := by
  rintro ⟨step, mem, token, isToken, illegal⟩
  obtain ⟨number, isStep⟩ := List.getElem?_of_mem mem
  obtain ⟨statement, after, ran, -⟩ := reduced_of_complete answered complete
  rcases @Scans.stops_at_illegal limits.forClassification _ _ scans _ _
      (tokenAt_eq_some.mpr ⟨step, isStep, isToken⟩) illegal with
    ⟨error, reached, failed, -⟩ | ⟨_, _, _, _, error, reached, -, failed, -⟩
  · cases failed.symm.trans ran
  · cases failed.symm.trans ran

end

private theorem Scans.blankLine {text blanks : List Char} {steps steps' : List LexStep} (scans : Scans text steps)
    (scans' : Scans (text ++ '\n' :: blanks) steps') (blank : ∀ c ∈ blanks, Unicode.isBlank c = true) :
    BehindLine steps steps' ∨ HasIllegal steps' := by
  have sound : (Lexer.ofText 0 (text ++ '\n' :: blanks)).Sound := Lexer.ofText_sound scans'.encoded scans'.fits
  have lexes' := scans'.lexes
  rw [Lexer.ofText_behind (by decide)] at sound lexes'
  obtain ⟨found, lexes, outcome⟩ := scans.lexes.newline blank sound
  obtain rfl := lexes.unique lexes' sound
  exact outcome.imp_right And.right

theorem blankLine_open {limits : Limits} {text line : String} {classification later : Classification}
    (blank : ∀ c ∈ line.toList, Unicode.isBlank c = true) (answered : classify limits text = .ok classification)
    (wanting : classification.answer = .needMoreInput) (answered' : classify limits (text ++ "\n" ++ line) = .ok later) :
    later.answer ≠ .complete := by
  intro complete
  have longer : (text ++ "\n" ++ line).toList = text.toList ++ '\n' :: line.toList := by simp
  have fits' := fits_of_complete answered' complete
  have fits : byteSize text.toList ≤ maxOffset := by
    rw [longer, byteSize_append] at fits'
    omega
  rcases classify_cases limits text fits with ⟨encoded, same⟩ | ⟨_, _, _, _, failed, _⟩
  · rcases classify_cases limits _ fits' with ⟨encoded', same'⟩ | ⟨_, _, _, _, failed', _⟩
    · obtain ⟨steps, scans⟩ := encoded.scans fits
      obtain ⟨steps', scans'⟩ := encoded'.scans fits'
      have legal := Scans.legal_of_complete answered' complete scans'
      rw [same] at answered
      rw [same'] at answered'
      rw [longer] at answered' scans'
      have behind := (scans.blankLine scans' blank).resolve_right legal
      rcases scans.boundary scans' behind answered with ⟨found, answered'', withstands⟩ | ⟨_, _, _, failed, _⟩
      · obtain rfl := Except.ok.inj (answered'.symm.trans answered'')
        rw [Classification.Withstands, wanting, complete] at withstands
        rcases withstands with needs | wrong <;> contradiction
      · cases answered'.symm.trans failed
    · cases failed'.symm.trans answered'
  · cases failed.symm.trans answered

end GoPrompt
