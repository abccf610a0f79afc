import GoPrompt.Proofs.Completion.Operands

/-! Expressions and lists of them can be finished wherever the text ends. -/

namespace GoPrompt

open Parse Grammar

variable {ι : Type} {bound : Nat} (known : Known bound)
include known

private theorem signed_completable (place : Place) (start : ι → Span) : Completable (fun deeper index => do
    let operand ← deeper.unary place
    return ⟨.other, (start index).merge operand.span⟩ : Programs ι Expression)
      (endsPiece place) 3 bound [.identifier] :=
  (known.unary ι place).answering (fun _ => anywhere .other) fun _ _ _ _ => rfl

/-- What is left behind an arrow: the element type of a channel that is received from, or an operand. -/
private theorem received_completable (place : Place) (start : ι → Span) : Completable (fun deeper index => do
    if ← atKeyword .chan then
      bump
      discard deeper.type
      suffixes deeper place ⟨.other, ← spanFrom (start index)⟩
    else
      let operand ← deeper.unary place
      return ⟨.other, (start index).merge operand.span⟩ : Programs ι Expression)
        (endsPiece place) 3 bound [.identifier] := by
  refine (signed_completable known place start).like (.atKeyword_no nofun) (Nat.le_refl _) fun kind kinds inside => ?_
  refine .atKeyword (fun _ => .ite_pos rfl (.bump ?_)) fun _ =>
    .ite_neg Bool.false_ne_true ((signed_completable known place start).on inside (fun _ => id) (Nat.le_refl _))
  have alike : ∀ pair : Following ι () × Span, Alike.alike (anywhere .other) (⟨.other, pair.2⟩ : Expression) :=
    fun _ => rfl
  have appended : Completable (fun deeper (pair : Following ι ()) => do
      suffixes deeper place ⟨.other, ← spanFrom (start pair.1.1)⟩) (endsPiece place) 2 bound [] :=
    .spanFrom ((suffixes_completable known place alike).lower (Nat.le_succ _))
  exact ((known.type ι).discard.bind (fun _ => appended) (fun _ => endsPiece_header) (Nat.le_refl _)).on
    (Nat.lt_of_succ_lt inside) (fun _ => id) (by decide)

private theorem unaryBody_prospect (place : Place) {kind : TokenKind} {kinds : List TokenKind}
    (inside : kinds.length < bound) :
    Prospect [] (fun deeper (_ : ι) => unaryBody deeper place) (fun _ _ => True)
      (endsPiece place) 3 (kind :: kinds) := by
  refine .peek ?_
  have isOperator : ∀ pair : ι × { token : Token // token.kind = kind }, pair.2.1.operator? = kind.operator? :=
    fun pair => congrArg TokenKind.operator? pair.2.2
  simp only [isOperator]
  by_cases sign : kind.operator?.any isUnary = true
  · exact .ite_pos sign (.bump ((signed_completable known place _).on inside (fun _ => id) (by decide)))
  · refine .ite_neg sign ?_
    by_cases arrow : kind.operator? = some .arrow
    · exact .ite_pos arrow (.bump ((received_completable known place _).on inside (fun _ => id) (by decide)))
    · exact .ite_neg arrow
        ((primary_completable known place).on (Nat.succ_lt_succ inside) (fun _ => id) (Nat.le_refl _))

omit known in
theorem unaryName_passes (place : Place) :
    Passes (fun deeper (_ : ι) => deeper.unary place) [.identifier] [] (endsPiece place) (anywhere .identifier) := by
  refine ⟨1, fun supply left _ enough rest ends => ?_⟩
  obtain ⟨below, rfl⟩ : ∃ below, left = below + 1 := ⟨left - 1, by omega⟩
  apply unary_runs rfl
  apply ((IsPrimary.ofOperand .name (by decide)).reads below (Nat.zero_le _)).run (endsOperand_of_endsPiece ends)
  exact fun operand isShape => ⟨rfl, isShape.symm⟩

theorem unary_completable (place : Place) :
    Completable (fun deeper (_ : ι) => deeper.unary place) (endsPiece place) 3 (bound + 1) [.identifier] := by
  refine .intro _ (by decide) (by decide) (unaryName_passes place) fun kind kinds inside => ?_
  exact .enter (fun _ _ _ => rfl) (unaryBody_prospect known place (Nat.lt_of_succ_lt_succ inside))

/-- Behind an operand, an expression is finished. -/
theorem binaryTail_completable {ι : Type} (place : Place) (tightness : Nat) {value : Expression}
    {values : ι → Expression} (alike : ∀ index, Alike.alike value (values index)) :
    Completable (fun deeper index => binaryTail deeper place tightness (values index))
      (endsPiece place) 0 (bound + 1) [] := by
  have closes : ∀ {ι : Type} {value : Expression} {values : ι → Expression},
    (∀ index, Alike.alike value (values index)) →
      Passes (fun deeper index => binaryTail deeper place tightness (values index)) [] []
        (endsPiece place) value := fun alike =>
    ⟨0, fun supply left index _ rest ends => binaryTail_done (ends_of_endsPiece ends).1 ⟨rfl, alike index⟩⟩
  refine ⟨fun kinds inside => ?_, List.nil_subset _, Nat.le_refl _, value, closes alike⟩
  refine .congr (fun deeper index => binaryTail.eq_def deeper place tightness (values index)) ?_
  refine .iterate (fun ι value values alike kind kinds inside => (?_ : Prospect _ _ (fun _ _ => True) _ _ _))
    (fun ι value values alike => ?_) (fun _ => id) alike inside (Nat.le_refl (0 + 0))
  · have done : ∀ index, Alike.alike (Turn.done value : Turn Expression Expression) (.done (values index)) := alike
    refine .peekOperator ?_
    cases kind with
    | operator operator =>
      by_cases binds : operator.precedence = 0 ∨ operator.precedence < tightness
      · exact .congr (fun _ _ => dif_pos binds) (.pure done)
      · have tighter : 6 - (operator.precedence + 1) < 6 - tightness := by
          have := operator.precedence_le
          omega
        have climbed : ∀ operand : Expression, Completable (fun deeper (pair : Following ι operand) => do
            let right ← binaryTail deeper place (operator.precedence + 1) pair.1.2
            return .again ⟨.other, (values pair.1.1).span.merge right.span⟩ : Programs _ (Turn Expression Expression))
            (endsPiece place) 0 (bound + 1) [] := by
          intro operand
          exact (binaryTail_completable place (operator.precedence + 1) fun pair => pair.2).answering
            (fun _ => .again (anywhere .other)) fun _ _ _ _ => rfl
        refine .congr (fun _ _ => dif_neg binds) (.bump ?_)
        exact ((known.unary ι place).prospect kinds (Nat.lt_of_succ_lt_succ inside)).followed climbed (fun _ _ => id)
          (Nat.lt_of_succ_lt inside) (by decide)
    | identifier | keyword | literal | semicolon | illegal => exact .pure done
  · have unfolds : ∀ deeper index, iterate _ (values index) =
        binaryTail deeper place tightness (values index) := fun deeper index =>
      (binaryTail.eq_def deeper place tightness (values index)).symm
    refine ⟨value, [], List.nil_subset _, Nat.le_refl _, ?_, fun _ _ => id⟩
    exact (Leads.of_eq fun deeper index => ⟨index, unfolds deeper index⟩).passes (closes alike)
termination_by 6 - tightness

theorem expression_completable (place : Place) :
    Completable (fun deeper (_ : ι) => deeper.expression place) (endsPiece place) 3 (bound + 1) [.identifier] := by
  have body : Completable (fun deeper (_ : ι) => binary deeper place 1) (endsPiece place) 3 (bound + 1) [.identifier] :=
    (unary_completable known place).bind
      (fun _ => binaryTail_completable known place 1 fun pair => pair.2) (fun _ => id)
      (Nat.le_refl _)
  exact body.enter fun _ _ _ => rfl

/-- More of a list, behind any of its elements. -/
private theorem listTail_prospect (place : Place) {value : ExpressionList} {values : ι → ExpressionList}
    (alike : ∀ index, Alike.alike value (values index)) {kinds : List TokenKind} (inside : kinds.length < bound + 1) :
    Prospect [] (fun deeper index => iterate (fun (list : ExpressionList) => do
      if ← eatOperator .comma then
        let last ← deeper.expression place
        return .again { list with count := list.count + 1, last := last }
      else return .done list : ExpressionList → Parse (Turn ExpressionList ExpressionList)) (values index)) (fun _ _ =>
        True)
      (endsPiece place) 0 kinds := by
  have turns : ∀ (ι : Type) (value : ExpressionList) (values : ι → ExpressionList),
    (∀ index, Alike.alike value (values index)) →
      ∀ kind kinds, kinds.length + 1 < bound + 1 → Prospect [] (fun deeper index => do
        if ← eatOperator .comma then
          let last ← deeper.expression place
          return .again { values index with count := (values index).count + 1, last := last }
        else return .done (values index)) (fun _ (_ : Turn ExpressionList ExpressionList) => True)
        (endsPiece place) 0 (kind :: kinds) := by
    intro ι value values alike kind kinds inside
    have done : ∀ index, Alike.alike (Turn.done value : Turn ExpressionList ExpressionList) (.done (values index)) :=
      alike
    refine .eatOperator (fun _ => .ite_pos rfl ?_) fun _ => .ite_neg Bool.false_ne_true (.pure done)
    refine Completable.on ((known.expression ι place).answering (fun last =>
      .again { value with count := value.count + 1, last := last })
      fun last found index same => ?_) (Nat.lt_of_succ_lt_succ inside) (fun _ => id) (by decide)
    obtain ⟨count, first, _⟩ := alike index
    exact ⟨congrArg (· + 1) count, first, same⟩
  refine .iterate turns (fun ι value values alike => ?_) (fun _ => id) alike inside (Nat.le_refl (0 + 0))
  refine ⟨value, [], List.nil_subset _, Nat.le_refl _, ⟨0, fun supply left index _ rest ends => ?_⟩, fun _ _ => id⟩
  apply Runs.iterate_done
  apply Runs.bind
  apply Runs.eatOperator_no (by cases place <;> exact apart ends rfl)
  apply Runs.ite_neg Bool.false_ne_true
  exact Runs.pure ⟨_, rfl, rfl, alike index⟩

omit known in
theorem expressionListFrom_closed (place : Place) {value : Expression} {values : ι → Expression}
    (alike : ∀ index, Alike.alike value (values index)) :
    Passes (fun deeper index => expressionListFrom deeper place (values index)) [] []
      (endsPiece place) ⟨1, value, value⟩ := by
  refine ⟨0, fun supply left index _ rest ends => ?_⟩
  apply expressionListFrom_single (by cases place <;> exact apart ends rfl)
  exact ⟨rfl, rfl, alike index, alike index⟩

theorem expressionListFrom_prospect (place : Place) {value : Expression} {values : ι → Expression}
    (alike : ∀ index, Alike.alike value (values index)) {kinds : List TokenKind} (inside : kinds.length < bound + 1) :
    Prospect [] (fun deeper index => expressionListFrom deeper place (values index))
      (fun _ list => list.count = 1 ∨ SomeDecisive kinds) (endsPiece place) 0 kinds := by
  have same : ∀ index, Alike.alike (⟨1, value, value⟩ : ExpressionList) ⟨1, values index, values index⟩ := fun index =>
    ⟨rfl, alike index, alike index⟩
  cases kinds with
  | nil => exact .finishes _ (.inl rfl) [] (List.nil_subset _) (Nat.le_refl _) (expressionListFrom_closed place alike)
  | cons kind kinds =>
    by_cases comma : kind = .operator .comma
    · have decisive : SomeDecisive (kind :: kinds) := ⟨kind, List.mem_cons_self, comma ▸ rfl⟩
      exact (listTail_prospect known place same inside).weaken (fun _ _ _ => .inr decisive)
        (fun _ => id) (Nat.le_refl _)
    · refine .passes ⟨1, value, value⟩ (kind :: kinds) List.suffix_rfl nofun ⟨0, fun supply left index _ rest _ => ?_⟩
      apply expressionListFrom_single (by simpa using comma)
      exact ⟨rfl, same index⟩

theorem expressionList_prospect (place : Place) {kinds : List TokenKind} (inside : kinds.length < bound + 1) :
    Prospect [] (fun deeper (_ : ι) => expressionList deeper place) (fun _ list => list.count = 1 ∨ SomeDecisive kinds)
      (endsPiece place) 3 kinds := by
  refine ((expression_completable known place).prospect kinds inside).bind
    (fun value used rest parts _ => ?_) (fun value _ => ?_)
    (Nat.le_refl (3 + 0))
  · subst parts
    have fewer := (List.suffix_append used rest).length_le
    refine ((expressionListFrom_prospect known place (fun pair => pair.2) (Nat.lt_of_le_of_lt fewer inside)).weaken
      (fun _ _ ends => ?_) (fun _ => id) (Nat.zero_le _)).behind
    exact ends.imp_right fun ⟨kind, member, decisive⟩ => ⟨kind, List.mem_append_right used member, decisive⟩
  · exact .finishes _ (.inl rfl) [] (List.nil_subset _) (Nat.le_refl _) (fun _ => id)
      (expressionListFrom_closed place fun pair => pair.2)

theorem expressionList_completable (place : Place) :
    Completable (fun deeper (_ : ι) => expressionList deeper place) (endsPiece place) 3 (bound + 1) [.identifier] where
  prospect kinds inside :=
    (expressionList_prospect known place inside).weaken (fun _ _ _ => trivial) (fun _ => id) (Nat.le_refl _)
  plain := by decide
  short := by decide
  closes := by
    obtain ⟨value, passes⟩ := (expression_completable known (ι := ι) place).closes
    exact ⟨_, (passes.shift [] fun _ => id).bind (expressionListFrom_closed place fun pair => pair.2)⟩

end GoPrompt
