import GoPrompt.Proofs.Classification.Rejection

/-! The token that a syntax error blames is the first one that makes the text wrong. A text cut in front of it
has the tokens before it, which no run rejects, and perhaps an inserted semicolon, which no run rejects
either. -/

namespace GoPrompt

section

variable {limits : Limits} {text : List Char} {steps : List LexStep}

/-- The text in front of a rejected token, with its tokens. -/
theorem Rejects.front {number : Nat} {token : Token} (rejects : Rejects limits text steps number token)
    (scans : Scans text steps) :
    ∃ before chars behind ending, text = before ++ (chars ++ behind) ∧ chars ≠ [] ∧
      token.span = Span.ofLength 0 (byteSize before) (byteSize chars) ∧
      (token.kind ≠ .semicolon .newline → token.lexeme = String.ofList chars) ∧
      Scans before (steps.take number ++ ending) ∧ ∀ last ∈ ending, ∃ token,
      last = .token token ∧ token.IsInserted := by
  obtain ⟨step, isNumber, isToken⟩ := tokenAt_eq_some.mp rejects.isNext
  have inside := (List.getElem?_eq_some_iff.mp isNumber).1
  have tokens : ∀ earlier, earlier < number → ∃ token, steps[earlier]? = some (.token token) := by
    intro earlier less
    have isEarlier : steps[earlier]? = some (steps[earlier]) := List.getElem?_eq_getElem (Nat.lt_trans less inside)
    obtain ⟨found, isFound, _, uncut⟩ := scans.lexes.inner isEarlier (by omega)
    have legal := rejects.legal less (tokenAt_eq_some.mpr ⟨_, isEarlier, isFound⟩)
    obtain ⟨_, _, reads⟩ := scans.lexes.read_at isEarlier
    have kind := reads.kind
    cases same : steps[earlier] with
    | token found => exact ⟨found, same ▸ isEarlier⟩
    | truncated other cutoff =>
      rw [same] at isFound uncut
      obtain rfl := Option.some.inj isFound
      exact absurd rfl (uncut cutoff)
    | invalid other diagnostic =>
      rw [same] at isFound kind
      obtain rfl := Option.some.inj isFound
      exact absurd kind legal
    | incomplete | endOfInput =>
      rw [same] at isFound
      cases isFound
  obtain ⟨front, chars, behind, splits, ⟨nonempty, span, lexeme⟩, ending, lexes, inserted⟩ :=
    scans.lexes.cut isNumber isToken rejects.1 tokens
  obtain ⟨rest, whole, start⟩ := Lexer.ofText_eq 0 text
  rw [start] at splits span
  rw [show rest = front ++ (chars ++ behind) from splits] at whole
  refine ⟨leadingMark text ++ front, chars, behind, ending, ?_, nonempty, ?_, lexeme, ⟨?_, ?_, ?_⟩, inserted⟩
  · rw [List.append_assoc]
    exact whole
  · rw [byteSize_append]
    exact span
  · have encoded := scans.encoded
    rw [whole, ← List.append_assoc] at encoded
    exact encoded.prefix
  · have fits := scans.fits
    rw [whole, byteSize_append, byteSize_append] at fits
    rw [byteSize_append]
    omega
  · rw [Lexer.ofText_cut whole]
    exact lexes

theorem Rejects.first {number earlier : Nat} {token found : Token} {before : List Char} {ending : List LexStep}
    (rejects : Rejects limits text steps number token) (scans : Scans text steps)
    (scans' : Scans before (steps.take number ++ ending))
    (inserted : ∀ last ∈ ending, ∃ token, last = .token token ∧ token.IsInserted) :
    ¬ Rejects limits before (steps.take number ++ ending) earlier found := by
  intro rejects'
  obtain ⟨step, isNumber, _⟩ := tokenAt_eq_some.mp rejects.isNext
  have inside := (List.getElem?_eq_some_iff.mp isNumber).1
  have length : (steps.take number).length = number := List.length_take_of_le (Nat.le_of_lt inside)
  have less : earlier < number := by
    apply Nat.lt_of_not_le
    intro behind
    obtain ⟨last, isEarlier, isToken⟩ := tokenAt_eq_some.mp rejects'.isNext
    rw [List.getElem?_append_right (by omega)] at isEarlier
    obtain ⟨other, rfl, isInserted⟩ := inserted last (List.mem_of_getElem? isEarlier)
    obtain rfl := Option.some.inj isToken
    exact rejects'.1 isInserted
  have agree : Agree (steps.take number ++ ending) steps (earlier + 1) := by
    intro first within
    have isFirst : steps[first]? = some (steps[first]) := List.getElem?_eq_getElem (by omega)
    obtain ⟨one, isToken, -, -⟩ := scans.lexes.inner isFirst (by omega)
    refine ⟨one, one, tokenAt_eq_some.mpr ⟨_, ?_, isToken⟩, tokenAt_eq_some.mpr ⟨_, isFirst, isToken⟩, rfl⟩
    rw [List.getElem?_append_left (by omega), List.getElem?_take_of_lt (by omega)]
    exact isFirst
  obtain ⟨other, rejected⟩ := rejects'.transfer scans' scans agree
  exact Nat.ne_of_lt less (rejected.unique rejects)

end

end GoPrompt
