import GoPrompt.Proofs.Completion.Headers

/-! Control statements can be finished wherever the text ends, unless their header or a clause of theirs is doomed. -/

namespace GoPrompt

open Parse Grammar

variable {ι : Type} {bound : Nat} (known : Known bound)
include known

private theorem elseBranch_completable : Completable (fun deeper (_ : ι) => do
    match ← peekKind 0 with
    | some (.keyword .if) => deeper.ifStatement
    | some (.operator .leftBrace) => block deeper
    | _ => rejectNext ["if statement or block"]) endsStatement 8 bound
          [.operator .leftBrace, .operator .rightBrace] := by
  have body : ∀ ι : Type, Completable (fun deeper (_ : ι) => block deeper) endsStatement 2 bound _ := fun ι =>
    ((block_completable known).lower (Nat.le_succ _)).weaken (fun _ _ => rfl) (Nat.le_refl _)
  refine (body ι).like .peekKind_cons (by decide) fun kind kinds inside => .peekKind ?_
  cases kind with
  | keyword keyword =>
    cases keyword with
    | «if» => exact known.ifStatement ι kinds inside
    | _ => exact .rejectNext
  | operator operator =>
    cases operator with
    | leftBrace => exact (body ι).on inside (fun _ => id) (by decide)
    | _ => exact .rejectNext
  | identifier | literal | semicolon | illegal => exact .rejectNext

private theorem otherwise_completable : Completable (fun deeper (_ : ι) => do
    if ← atKeyword .else then
      bump
      match ← peekKind 0 with
      | some (.keyword .if) => deeper.ifStatement
      | some (.operator .leftBrace) => block deeper
      | _ => rejectNext ["if statement or block"]) endsStatement 0 bound [] := by
  refine .intro () (List.nil_subset _) (Nat.le_refl _) ⟨0, fun supply left _ _ rest ends => ?_⟩
    fun kind kinds inside => ?_
  · apply Runs.bind
    apply Runs.atKeyword_no (apart ends rfl)
    exact Runs.ite_neg Bool.false_ne_true (Runs.pure ⟨rfl, rfl⟩)
  · exact .atKeyword (fun _ => .ite_pos rfl
      (.bump ((elseBranch_completable known).on (Nat.lt_of_succ_lt inside) (fun _ => id) (by decide)))) fun _ =>
      .ite_neg Bool.false_ne_true (.pure fun _ => rfl)

theorem ifBody_prospect {kinds : List TokenKind} (inside : kinds.length < bound) :
    Prospect [] (fun deeper (_ : ι) => ifBody deeper) (fun _ _ => True) endsStatement 8 (.keyword .if :: kinds) := by
  have controls : Controls [.keyword .if] := ⟨_, List.mem_cons_self, rfl⟩
  have body : ∀ ι : Type, Completable (fun deeper (_ : ι) => do
      block deeper
      if ← atKeyword .else then
        bump
        match ← peekKind 0 with
        | some (.keyword .if) => deeper.ifStatement
        | some (.operator .leftBrace) => block deeper
        | _ => rejectNext ["if statement or block"]) endsStatement 2 bound
            [.operator .leftBrace, .operator .rightBrace] := fun ι =>
    ((block_completable known).lower (Nat.le_succ _)).bind (fun _ => otherwise_completable known)
      (fun _ _ => rfl) (Nat.le_refl _)
  exact .expect_front (beq_self_eq_true _)
    ((ifHeader_prospect known controls inside).followed (fun _ => body _) (fun _ _ _ => rfl) inside (by decide))

theorem forStatement_prospect {kinds : List TokenKind} (inside : kinds.length < bound) :
    Prospect [] (fun deeper (_ : ι) => forStatement deeper) (fun _ _ => True) endsStatement 8
      (.keyword .for :: kinds) := by
  have controls : Controls [.keyword .for] := ⟨_, List.mem_cons_self, rfl⟩
  have body : ∀ ι : Type, Completable (fun deeper (_ : ι) => do
      block deeper
      return StatementKind.for) endsStatement 2 bound [.operator .leftBrace, .operator .rightBrace] := fun ι =>
    (((block_completable known).lower (Nat.le_succ _)).weaken (fun _ _ => rfl) (Nat.le_refl _)).returning fun _ _ _ _ =>
      rfl
  exact .expect_front (beq_self_eq_true _)
    ((forHeader_prospect known controls inside).followed (fun _ => body _) (fun _ _ _ => rfl) inside (by decide))

/-- The clauses of a statement have the prospects of their labels. -/
private theorem clauses_prospect {front kinds : List TokenKind} {cases : Deeper → Parse Unit} (labels : ∀ (ι : Type) (kinds : List TokenKind),
      kinds.length < bound → Prospect front (fun deeper (_ : ι) => cases deeper) (fun _ _ => True) (· == some (.operator .colon)) 6 kinds)
    (inside : kinds.length < bound) : Prospect front (fun deeper (_ : ι) => clauses deeper (cases deeper)) (fun _ _ => True)
      (· == some (.operator .rightBrace)) 0 kinds := by
  have statements : ∀ ι : Type, Completable (fun deeper (_ : ι) => do
      statementList deeper
      return false) (· == some (.operator .rightBrace)) 8 bound [] := fun ι =>
    (statementList_completable known).returning fun _ _ _ _ => rfl
  have clause : ∀ ι : Type, Completable (fun deeper (_ : ι) => do
      expectOperator .colon
      statementList deeper
      return false) (· == some (.operator .rightBrace)) 9 bound [.operator .colon] := fun ι =>
    (Completable.expectOperator (by decide)).bind (fun _ => statements _) (fun _ _ => rfl) (Nat.le_refl _)
  refine .repeatTurns _ (fun ι kind kinds inside => (?_ : Prospect _ _ (fun _ _ => True) _ _ _))
    (List.nil_subset _) (Nat.zero_le 0)
    (fun ι => ⟨0, fun supply left _ _ rest ends => ?_⟩) (fun _ _ => id) (fun _ => id) inside (Nat.le_refl _)
  · have inside := Nat.lt_of_succ_lt inside
    refine .peekKind ?_
    cases kind with
    | operator operator =>
      cases operator with
      | rightBrace => exact .pure fun _ => rfl
      | _ => exact .rejectNext
    | keyword keyword =>
      cases keyword with
      | case => exact .bump ((labels ι kinds inside).followed (fun _ => clause _) (fun _ _ _ => rfl) inside (by decide))
      | default => exact .bump ((clause ι).on inside (fun _ => id) (by decide))
      | _ => exact .rejectNext
    | identifier | literal | semicolon | illegal => exact .rejectNext
  · obtain ⟨later, rfl⟩ := List.head?_eq_some_iff.mp (beq_iff_eq.mp ends)
    exact clauses_done ⟨rfl, rfl⟩

omit known in
private theorem braced_passes {cases : Deeper → Parse Unit} {result : StatementKind} : Passes (fun deeper (_ : ι) => do
    expectOperator .leftBrace
    clauses deeper (cases deeper)
    expectOperator .rightBrace
    return result) [.operator .leftBrace, .operator .rightBrace] [] anything result := by
  refine ⟨0, fun supply left _ _ rest _ => ?_⟩
  apply Runs.bind
  apply Runs.expectOperator
  apply Runs.bind
  apply clauses_done
  apply Runs.bind
  apply Runs.expectOperator
  exact Runs.pure ⟨rfl, rfl⟩

private theorem braced_prospect {front kinds : List TokenKind} {cases : Deeper → Parse Unit} {result : StatementKind}
    (labels : ∀ (ι : Type) (kinds : List TokenKind), kinds.length < bound →
      Prospect front (fun deeper (_ : ι) => cases deeper) (fun _ _ => True) (· == some (.operator .colon)) 6 kinds)
    (inside : kinds.length < bound) : Prospect front (fun deeper (_ : ι) => do
      expectOperator .leftBrace
      clauses deeper (cases deeper)
      expectOperator .rightBrace
      return result) (fun _ _ => True) anything 2 kinds := by
  have closed : ∀ ι : Type, Completable (fun _ (_ : ι) => do
      expectOperator .rightBrace
      return result) anything 1 bound [.operator .rightBrace] := fun ι =>
    (Completable.expectOperator (by decide)).returning fun _ _ _ _ => rfl
  cases kinds with
  | nil => exact .nil trivial (by decide) (Nat.le_refl _) braced_passes
  | cons kind kinds =>
    have inside := Nat.lt_of_succ_lt inside
    exact .expect fun _ =>
      (clauses_prospect known labels inside).followed (fun _ => closed _) (fun _ _ _ => rfl) inside (by decide)

theorem switchStatement_prospect {kinds : List TokenKind} (inside : kinds.length < bound) :
    Prospect [] (fun deeper (_ : ι) => switchStatement deeper) (fun _ _ => True) endsStatement 8
      (.keyword .switch :: kinds) := by
  have controls : Controls [.keyword .switch] := ⟨_, List.mem_cons_self, rfl⟩
  have labels : ∀ (onType : Bool) (ι : Type) (kinds : List TokenKind), kinds.length < bound →
      Prospect [] (fun deeper (_ : ι) =>
      if onType then typeList deeper
      else discard (expressionList deeper .free)) (fun _ _ => True) (· == some (.operator .colon)) 6
      kinds := by
    intro onType ι kinds inside
    have joins : ∀ place next, (next == some (TokenKind.operator .colon)) = true →
        endsPiece place next = true := fun place next ends => by
      rw [beq_iff_eq.mp ends]
      rfl
    cases onType with
    | true => exact (typeList_completable known).on inside (joins .header) (by decide)
    | false => exact (expressionList_completable known .free).discard.on (Nat.lt_succ_of_lt inside) (joins .free) (by decide)
  have body : ∀ onType : Bool, Completable (fun deeper (pair : Following ι onType) => do
      expectOperator .leftBrace
      clauses deeper (if pair.1.2 then typeList deeper else discard (expressionList deeper .free))
      expectOperator .rightBrace
      return if pair.1.2 then StatementKind.typeSwitch else .switch) anything 2 bound
      [.operator .leftBrace, .operator .rightBrace] := by
    intro onType
    have same : ∀ pair : Following ι onType, pair.1.2 = onType := fun pair => pair.2.symm
    simp only [same]
    exact ⟨fun kinds inside => braced_prospect known (labels onType) inside, by decide, Nat.le_refl _, _, braced_passes⟩
  exact .expect_front (beq_self_eq_true _)
    (((switchHeader_prospect known controls inside).followed body (fun _ _ _ => rfl) inside
    (by decide)).weaken (fun _ _ => id) (fun _ _ => rfl) (Nat.le_refl _))

theorem selectStatement_prospect {kinds : List TokenKind} (inside : kinds.length < bound) :
    Prospect [] (fun deeper (_ : ι) => selectStatement deeper) (fun _ _ => True) endsStatement 8
      (.keyword .select :: kinds) := by
  have controls : Controls [.keyword .select] := ⟨_, List.mem_cons_self, rfl⟩
  exact .expect_front (beq_self_eq_true _)
    ((braced_prospect known (fun ι kinds inside => communication_prospect known controls inside)
    inside).weaken (fun _ _ => id) (fun _ _ => rfl) (by decide))

end GoPrompt
