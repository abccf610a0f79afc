import GoPrompt.Proofs.Classification.Rejection
import GoPrompt.Proofs.Lexical.Order

/-! A text that is a syntax error may become a statement when the token that is rejected goes on in what follows. As
long as the rejected token is a token of the longer text, too, the longer text is a syntax error. -/

namespace GoPrompt

section

variable {limits : Limits} {text more : List Char} {steps steps' : List LexStep}

/-- What comes up to a token of a text: other tokens, unless one of them is illegal or nothing is left of the text. -/
private theorem Scans.tokens_to (scans : Scans text steps) {number : Nat} {token : Token}
    (there : tokenAt steps number = some token) :
    (∀ earlier, earlier ≤ number → ∃ token, steps[earlier]? = some (.token token)) ∨
      (∃ earlier found, earlier ≤ number ∧ tokenAt steps earlier = some found ∧ found.kind = .illegal) ∨
      byteSize text ≤ token.span.stop := by
  obtain ⟨step, isNumber, isToken⟩ := tokenAt_eq_some.mp there
  have inside := (List.getElem?_eq_some_iff.mp isNumber).1
  rw [Classical.or_iff_not_imp_left, Classical.not_forall]
  rintro ⟨earlier, notToken⟩
  obtain ⟨within, notToken⟩ := Classical.not_imp.mp notToken
  have isEarlier : steps[earlier]? = some steps[earlier] := List.getElem?_eq_getElem (Nat.lt_of_le_of_lt within inside)
  obtain ⟨found, isFound⟩ : ∃ found, steps[earlier].token? = some found := by
    rcases Nat.lt_or_eq_of_le within with less | rfl
    · obtain ⟨found, isFound, -⟩ := scans.lexes.inner isEarlier (by omega)
      exact ⟨found, isFound⟩
    · obtain rfl := Option.some.inj (isNumber.symm.trans isEarlier)
      exact ⟨token, isToken⟩
  obtain ⟨_, after, reads, left⟩ := scans.lexes.leaves isEarlier
  have kind := reads.kind
  cases same : steps[earlier] with
  | token found => exact absurd ⟨found, same ▸ isEarlier⟩ notToken
  | incomplete | endOfInput =>
    rw [same] at isFound
    cases isFound
  | invalid other diagnostic =>
    rw [same] at kind isFound
    obtain rfl := Option.some.inj isFound
    exact .inl ⟨earlier, other, within, tokenAt_eq_some.mpr ⟨_, isEarlier, same ▸ rfl⟩, kind⟩
  | truncated other cutoff =>
    -- Behind a literal that is cut off there is nothing, so it is the token itself.
    have last := scans.lexes.truncated_last (same ▸ isEarlier)
    obtain rfl : earlier = number := by omega
    obtain rfl := Option.some.inj (isNumber.symm.trans isEarlier)
    rw [same] at reads isToken
    obtain rfl := Option.some.inj isToken
    rw [Lexer.ofText_size, reads.truncated_ends.1, (reads.span rfl).2] at left
    exact .inr (Nat.le_of_eq left.symm)

/-- A rejected token that the longer text has, too, makes the longer text a syntax error, if it is classified at all. -/
private theorem Scans.rejects_longer (scans : Scans text steps) (scans' : Scans (text ++ more) steps')
    {number place : Nat} {token other : Token} (rejects : Rejects limits.forClassification text steps number token)
    (kept : tokenAt steps' place = some other) (same : other.span = token.span) :
    (∃ fault, classifySource limits (text ++ more) = .error fault) ∨
      ∃ number token, Rejects limits.forClassification (text ++ more) steps' number token := by
  have nonempty := nonempty_of_rejects scans rejects
  have stop := scans.stops_within rejects.isNext
  rcases scans'.tokens_to kept with tokens | ⟨earlier, found, within, there, illegal⟩ | covers
  · have longer := scans'.lexes
    rw [Lexer.ofText_append nonempty] at longer
    obtain ⟨found, lexes, agrees⟩ := longer.within tokens
      (fun found isFound => by
        obtain rfl := Option.some.inj (kept.symm.trans (tokenAt_eq_some.mpr ⟨_, isFound, rfl⟩))
        rw [Lexer.ofText_size, same]
        exact stop)
      (Lexer.ofText_sound scans.encoded scans.fits)
    obtain rfl := scans.lexes.unique lexes (Lexer.ofText_sound scans.encoded scans.fits)
    by_cases within : number ≤ place
    · have agree : Agree steps steps' (number + 1) := by
        intro earlier less
        obtain ⟨token, isToken⟩ := tokens earlier (by omega)
        have isToken' := (agrees earlier (by omega)).trans isToken
        exact ⟨token, token, tokenAt_eq_some.mpr ⟨_, isToken', rfl⟩, tokenAt_eq_some.mpr ⟨_, isToken, rfl⟩, rfl⟩
      obtain ⟨found, rejects'⟩ := rejects.transfer scans scans' agree
      exact .inr ⟨number, found, rejects'⟩
    · -- The same place cannot be taken twice.
      obtain ⟨step, isNumber, isToken⟩ := tokenAt_eq_some.mp rejects.isNext
      obtain ⟨early, isEarly⟩ := tokens place (Nat.le_refl _)
      obtain rfl := Option.some.inj (kept.symm.trans (tokenAt_eq_some.mpr ⟨_, isEarly, rfl⟩))
      have isEarly' := (agrees place (Nat.le_refl _)).trans isEarly
      have ordered := scans.lexes.ordered (Nat.lt_of_not_le within) isEarly' rfl isNumber isToken
      obtain ⟨_, _, reads, -⟩ := scans.lexes.leaves isNumber
      have positive := reads.nonempty isToken rejects.1
      rw [same] at ordered
      omega
  · rcases scans'.stops_at_illegal there illegal with ⟨error, after, ran, spent⟩ | ⟨number, found, -, rejects'⟩
    · exact .inl ⟨_, classifySource_budget spent.isBudget ran⟩
    · exact .inr ⟨number, found, rejects'⟩
  · obtain rfl : more = [] := Decidable.byContradiction fun behind => by
      have positive := byteSize_pos behind
      rw [same, byteSize_append] at covers
      omega
    have all := scans'
    rw [List.append_nil] at all ⊢
    obtain rfl := scans.lexes.unique all.lexes (Lexer.ofText_sound scans.encoded scans.fits)
    exact .inr ⟨number, token, rejects⟩

end

/-- A syntax error stays one, whatever follows the text, as long as the longer text has a token in the place of the one
that is rejected. -/
theorem syntaxError_stays (limits : Limits) (text more : String) (fits : byteSize (text ++ more).toList ≤ maxOffset)
    (classification : Classification) (first : Diagnostic) (answered : classify limits text = .ok classification)
    (wrong : classification.answer = .syntaxError) (explained : classification.diagnostics.head? = some first)
    (kept : ∀ steps, (Lexer.ofText 0 (text ++ more).toList).steps.1 = .ok steps →
      ∃ step ∈ steps, ∃ token, step.token? = some token ∧ token.span = first.span) :
    (∃ error, classify limits (text ++ more) = .error error) ∨
      ∃ later, classify limits (text ++ more) = .ok later ∧ later.answer = .syntaxError := by
  have fits' : byteSize text.toList ≤ maxOffset := by
    rw [String.toList_append, byteSize_append] at fits
    omega
  rcases classify_cases limits text fits' with ⟨encoded, sourced⟩ | ⟨_, _, _, _, failed, _⟩
  · rcases classify_cases limits (text ++ more) fits with ⟨encoded', sourced'⟩ | ⟨_, _, _, _, failed', _⟩
    · rw [sourced] at answered
      rw [sourced']
      rw [String.toList_append] at encoded' fits kept ⊢
      obtain ⟨steps, scans⟩ := encoded.scans fits'
      obtain ⟨steps', scans'⟩ := encoded'.scans fits
      obtain ⟨number, token, rejects⟩ := scans.rejects answered wrong
      obtain ⟨_, diagnostic, _, answered', -, isFirst, span, -⟩ := rejects.answer
      obtain rfl := Except.ok.inj (answered.symm.trans answered')
      obtain rfl := Option.some.inj (explained.symm.trans isFirst)
      obtain ⟨step, mem, other, isToken, same⟩ := kept steps' scans'.steps_eq
      obtain ⟨place, isStep⟩ := List.getElem?_of_mem mem
      have there := tokenAt_eq_some.mpr ⟨step, isStep, isToken⟩
      rcases scans.rejects_longer scans' rejects there (same.trans span) with failed | ⟨_, _, rejects'⟩
      · exact .inl failed
      · obtain ⟨later, _, _, answeredLater, wrongLater, -⟩ := rejects'.answer
        exact .inr ⟨later, answeredLater, wrongLater⟩
    · exact .inl ⟨_, failed'⟩
  · cases failed.symm.trans answered

/-- The second closing bracket is rejected, also when an operator follows. -/
theorem syntaxError_stays_bracket : ∃ classification, classify {} "f(x))" = .ok classification ∧
    classification.answer = .syntaxError ∧ ((∃ error, classify {} ("f(x))" ++ "+1") = .error error) ∨
      ∃ later, classify {} ("f(x))" ++ "+1") = .ok later ∧ later.answer = .syntaxError) := by
  obtain ⟨classification, answered, computed⟩ := answered_of_decide
    (show (classify {} "f(x))").toOption.any (fun found => found.answer == .syntaxError &&
      found.diagnostics.head?.any (·.span == Span.ofLength 0 4 1)) = true by decide +kernel)
  simp only [Bool.and_eq_true, beq_iff_eq, Option.any_eq_true] at computed
  obtain ⟨wrong, first, explained, span⟩ := computed
  have lexed : (Lexer.ofText 0 ("f(x))" ++ "+1").toList).steps.1.toOption.any
      (·.any (·.token?.any (·.span == Span.ofLength 0 4 1))) = true := by decide +kernel
  refine ⟨classification, answered, wrong,
    syntaxError_stays {} "f(x))" "+1" (by decide) classification first answered wrong explained fun steps isSteps => ?_⟩
  rw [isSteps] at lexed
  simp only [Except.toOption, Option.any_some, List.any_eq_true, Option.any_eq_true, beq_iff_eq] at lexed
  obtain ⟨step, mem, token, isToken, same⟩ := lexed
  exact ⟨step, mem, token, isToken, same.trans span.symm⟩

/-- The rejected token may go on in what follows, and the longer text may be a statement. -/
theorem syntaxError_becomes_complete : ∃ classification later, classify {} "x !" = .ok classification ∧
    classification.answer = .syntaxError ∧ classify {} ("x !" ++ "= y") = .ok later ∧ later.answer = .complete := by
  obtain ⟨classification, answered, wrong⟩ := answered_of_decide
    (show (classify {} "x !").toOption.any (·.answer == .syntaxError) = true by decide +kernel)
  obtain ⟨later, answeredLater, complete⟩ := answered_of_decide
    (show (classify {} ("x !" ++ "= y")).toOption.any (·.answer == .complete) = true by decide +kernel)
  exact ⟨classification, later, answered, beq_iff_eq.mp wrong, answeredLater, beq_iff_eq.mp complete⟩

end GoPrompt
