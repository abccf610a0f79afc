import GoPrompt.Proofs.Coupled.Types

/-! Expressions are read alike by two coupled runs. What an expression is depends on the kinds of its
tokens alone, and so does what may be appended to it. -/

namespace GoPrompt.Grammar

open Parse Coupling

theorem blind_isSemicolon : TokenKind.Blind isSemicolon := .of (fun _ _ => rfl) fun _ => rfl

private theorem blind_endsStatementList : TokenKind.Blind endsStatementList := .of (fun _ _ => rfl) fun _ => rfl

variable {C : Coupling} (lawful : C.Lawful) {first second : Deeper} (deep : C.Deep first second) {number : Nat}
include lawful deep

theorem statementList_steady : C.Steady (statementList first) (statementList second) := by
  refine lawful.repeatUntil_steady fun number => lawful.look_bind (lawful.endOfInput_seen _) fun one other same => ?_
  simp only [blind_endsStatementList _ _ same, blind_isSemicolon _ _ same]
  split
  next => exact lawful.forgetSeen (.pure rfl fun _ _ holds => holds)
  next =>
    split
    next isSeparator =>
      have legal : other.kind ≠ .illegal := by
        intro illegal
        rw [illegal] at isSeparator
        cases isSeparator
      exact lawful.take_bind (same.legal legal) legal (.pure rfl fun _ _ holds => holds)
    next =>
      refine lawful.forgetSeen ((deep.statement .block).discard.bind fun _ _ _ =>
        lawful.kind_bind (.of (fun _ _ => rfl) fun _ => rfl) fun kind => ?_)
      split
      next => exact lawful.takeKind_bind (by simp) (.pure rfl fun _ _ holds => holds)
      next => exact lawful.forget (.pure rfl fun _ _ holds => holds)
      next => exact lawful.forget (lawful.rejectNext_after _)

theorem block_steady : C.Steady (block first) (block second) := fun _ =>
  (lawful.expectOperator_steady _).bind fun _ _ _ => (statementList_steady lawful deep).bind fun _ _ _ =>
    lawful.expectOperator_steady _ _

theorem optionalBlock_steady : C.Steady (optionalBlock first) (optionalBlock second) := fun number =>
  lawful.atOperator_bind (lawful.forget (block_steady lawful deep number)) (.pureAfter rfl (Nat.le_refl _))

private theorem literalElement_steady : C.Steady (literalElement first) (literalElement second) := fun number =>
  lawful.atOperator_bind (lawful.forget (deep.literalValue number)) ((deep.expression .free).discard number)

private theorem literalValue_coupled :
    C.Coupled (C.after number) (literalValue first) (literalValue second) (fun _ _ => C.after (number + 1)) := by
  have element : C.Steady
      (do literalElement first; if ← eatOperator .colon then literalElement first)
      (do literalElement second; if ← eatOperator .colon then literalElement second) := fun number =>
    (literalElement_steady lawful deep).bind fun _ _ _ =>
      lawful.eatOperator_bind ((literalElement_steady lawful deep).reaching (Nat.le_succ _))
        (.pureAfter rfl (Nat.le_refl _))
  exact (lawful.expectOperator_after _).bind fun _ _ _ =>
    (commaList_steady lawful _ element).bind fun _ _ _ => lawful.expectOperator_steady _ _

theorem literalValue_steady : C.Steady (literalValue first) (literalValue second) := fun number =>
  (literalValue_coupled lawful deep).weaken (fun _ _ holds => holds) fun _ _ _ _ _ => after_of_le (Nat.le_succ number)

private theorem selector_steady (base : Shape) : C.Steady (selector first base) (selector second base) := by
  intro number
  have closing : ∀ shape : Shape, C.Coupled (C.after number) (do expectOperator .rightParen; return shape)
      (do expectOperator .rightParen; return shape) (fun _ _ => C.after number) := fun shape =>
    (lawful.expectOperator_steady _).bind fun _ _ _ => .pureAfter rfl (Nat.le_refl _)
  refine lawful.kind_bind (.of (fun _ _ => rfl) fun _ => rfl) fun kind => ?_
  split
  next => exact lawful.passKind_bind (by simp) (.pureAfter rfl (Nat.le_refl _))
  next =>
    refine lawful.passKind_bind (by simp) (lawful.atKeyword_bind ?_ ?_)
    · exact lawful.passKind_bind (by simp) (closing .typeGuard)
    · exact deep.type.discard.bind fun _ _ _ => closing .other
  next => exact lawful.forget (lawful.rejectNext_after _)

private theorem sliceBounds_steady : ∀ colons, C.Steady (sliceBounds first colons) (sliceBounds second colons)
  | 0, _ => .pureAfter rfl (Nat.le_refl _)
  | colons + 1, number => by
    have rest := sliceBounds_steady colons number
    refine (lawful.eatOperator_steady _).bind fun eaten _ same => ?_
    cases same
    split
    next =>
      refine lawful.atOperator_bind (lawful.forget rest) (lawful.atOperator_bind (lawful.forget rest) ?_)
      exact (deep.expression .free).discard.bind fun _ _ _ => rest
    next => exact .pureAfter rfl (Nat.le_refl _)

private theorem indexOrSlice_steady : C.Steady (indexOrSlice first) (indexOrSlice second) := fun number =>
  have bounds := sliceBounds_steady lawful deep 2 number
  lawful.atOperator_bind (lawful.forget bounds) ((deep.expression .free).discard.bind fun _ _ _ => bounds)

private theorem callArguments_steady : C.Steady (callArguments first) (callArguments second) :=
  commaList_steady lawful _ fun _ =>
    (deep.expression .free).discard.bind fun _ _ _ => (lawful.eatOperator_steady _).discard _

theorem suffix_coupled (place : Place) (shape : Shape) (operator : Operator) :
    C.Coupled (C.afterKind number (some (.operator operator))) (suffix first place shape operator)
      (suffix second place shape operator)
      (fun found _ => if found.isSome then C.after (number + 1) else C.after number) := by
  have found : ∀ shape : Shape, C.Coupled (C.after (number + 1)) (pure (some shape)) (pure (some shape))
      (fun found _ => if found.isSome then C.after (number + 1) else C.after number) := fun _ =>
    .pure rfl fun _ _ holds => holds
  unfold suffix
  split
  next =>
    refine lawful.takeKind_bind (by simp) ((selector_steady lawful deep shape).bind fun one _ same => ?_)
    cases same
    exact found one
  next =>
    refine lawful.takeKind_bind (by simp) ((indexOrSlice_steady lawful deep).bind fun _ _ _ => ?_)
    exact (lawful.expectOperator_steady _).bind fun _ _ _ => found .other
  next =>
    refine lawful.takeKind_bind (by simp) ((callArguments_steady lawful deep).bind fun _ _ _ => ?_)
    exact (lawful.expectOperator_steady _).bind fun _ _ _ => found .other
  next =>
    split
    next => exact lawful.forget ((literalValue_coupled lawful deep).bind fun _ _ _ => found .other)
    next => exact lawful.forget (.pure rfl fun _ _ holds => holds)
  next => exact lawful.forget (.pure rfl fun _ _ holds => holds)

private theorem suffixes_coupled (place : Place) {one other : Expression} (same : one.shape = other.shape) :
    C.Steady (suffixes first place one) (suffixes second place other) := by
  refine lawful.iterate (fun number one other same => ?_) same
  refine lawful.operator_bind (.pure same fun _ _ holds => holds) fun operator => ?_
  rw [show other.shape = one.shape from Eq.symm same]
  refine (suffix_coupled lawful deep place one.shape operator).bind fun found _ alike => ?_
  cases alike
  cases found with
  | none => exact .pure same fun _ _ holds => holds
  | some shape =>
    refine (Lawful.spanFrom_coupled _ _).bind fun _ _ _ => ?_
    exact Coupled.pure rfl fun _ _ holds => holds

theorem operandShape_coupled {one other : Token} (same : one.kind.Resembles other.kind) :
    C.Coupled (C.afterSeen number (some one) (some other)) (operandShape first one) (operandShape second other)
      (fun _ _ => C.after number) := by
  unfold operandShape
  rcases same.cases with kinds | ⟨_, _, isOne, isOther⟩ | ⟨_, isOne, isOther⟩
  · simp only [← kinds]
    split
    next found => exact lawful.passFound_bind kinds found (by simp) (.pureAfter rfl (Nat.le_refl _))
    next found => exact lawful.passFound_bind kinds found (by simp) (.pureAfter rfl (Nat.le_refl _))
    next found =>
      refine lawful.passFound_bind kinds found (by simp) ((deep.expression .free).discard.bind fun _ _ _ => ?_)
      exact (lawful.expectOperator_steady _).bind fun _ _ _ => .pureAfter rfl (Nat.le_refl _)
    next => exact lawful.forgetSeen (arrayType_steady lawful deep true number)
    next => exact lawful.forgetSeen (mapType_steady lawful deep number)
    next => exact lawful.forgetSeen (structType_steady lawful deep number)
    next => exact lawful.forgetSeen (deep.type.discard.bind fun _ _ _ => .pureAfter rfl (Nat.le_refl _))
    next => exact lawful.forgetSeen (deep.type.discard.bind fun _ _ _ => .pureAfter rfl (Nat.le_refl _))
    next found =>
      refine lawful.passFound_bind kinds found (by simp) ((signature_steady lawful deep).bind fun _ _ _ => ?_)
      exact (optionalBlock_steady lawful deep).bind fun _ _ _ => .pureAfter rfl (Nat.le_refl _)
    next => exact lawful.unexpected_seen same _
  · simp only [isOne, isOther]
    exact lawful.unexpected_seen same _
  · simp only [isOne, isOther]
    exact lawful.lose_bind isOne isOther (show C.Keeps (pure Shape.other) from fun _ gone => gone) _

private theorem operand_steady : C.Steady (operand first) (operand second) := by
  intro number
  refine lawful.look_bind (lawful.endOfInput_seen _) fun one other same => ?_
  refine (operandShape_coupled lawful deep same).bind fun shape _ alike => ?_
  cases alike
  exact (Lawful.spanFrom_coupled _ _).bind fun _ _ _ => Coupled.pure rfl fun _ _ holds => holds

private theorem primary_steady (place : Place) : C.Steady (primary first place) (primary second place) := fun _ =>
  (operand_steady lawful deep).bind fun _ _ same => suffixes_coupled lawful deep place same _

theorem unaryBody_steady (place : Place) : C.Steady (unaryBody first place) (unaryBody second place) := by
  intro number
  have operand : ∀ one other : Span, C.Coupled (C.after number)
      (do let operand ← first.unary place; return ⟨Shape.other, one.merge operand.span⟩)
      (do let operand ← second.unary place; return ⟨Shape.other, other.merge operand.span⟩)
      (fun (_ _ : Expression) => C.after number) := fun _ _ =>
    (deep.unary place).bind fun _ _ _ => .pureAfter rfl (Nat.le_refl _)
  refine lawful.look_bind (lawful.endOfInput_seen _) fun one other same => ?_
  have sameOperator : one.operator? = other.operator? := TokenKind.blind_operator? _ _ same
  have legal : ∀ {operator}, other.operator? = some operator → other.kind ≠ .illegal := by
    intro operator isOperator illegal
    rw [Token.operator?, illegal] at isOperator
    cases isOperator
  simp only [sameOperator]
  split
  next isUnary =>
    cases isOperator : other.operator? with
    | none => simp [isOperator] at isUnary
    | some => exact lawful.passSeen_bind (same.legal (legal isOperator)) (legal isOperator) (operand _ _)
  next =>
    split
    next isArrow =>
      refine lawful.passSeen_bind (same.legal (legal isArrow)) (legal isArrow) (lawful.atKeyword_bind ?_ (operand _ _))
      refine lawful.passKind_bind (by simp) (deep.type.discard.bind fun _ _ _ => ?_)
      exact (Lawful.spanFrom_coupled _ _).bind fun _ _ _ => suffixes_coupled lawful deep place (by rfl) _
    next => exact lawful.forgetSeen (primary_steady lawful deep place number)

private theorem binaryTail_coupled (place : Place) (tightness : Nat) {one other : Expression}
    (same : one.shape = other.shape) :
    C.Steady (binaryTail first place tightness one) (binaryTail second place tightness other) := by
  rw [binaryTail, binaryTail]
  refine lawful.iterate (fun number one other same => ?_) same
  refine lawful.operator_bind (.pure same fun _ _ holds => holds) fun operator => ?_
  dsimp only
  split
  next => exact .pure same fun _ _ => lawful.afterKind_after
  next =>
    refine lawful.takeKind_bind (by simp) ((deep.unary place).bind fun one other alike => ?_)
    refine (binaryTail_coupled place (operator.precedence + 1) alike).bind fun _ _ _ => ?_
    exact Coupled.pure rfl fun _ _ holds => holds
termination_by 6 - tightness
decreasing_by
  have := operator.precedence_le
  omega

theorem binary_steady (place : Place) (tightness : Nat) :
    C.Steady (binary first place tightness) (binary second place tightness) := fun _ =>
  (deep.unary place).bind fun _ _ same => binaryTail_coupled lawful deep place tightness same _

theorem expressionFrom_coupled (place : Place) {one other : Expression} (same : one.shape = other.shape) :
    C.Steady (expressionFrom first place one) (expressionFrom second place other) := fun _ =>
  (suffixes_coupled lawful deep place same).bind fun _ _ alike => binaryTail_coupled lawful deep place 1 alike _

theorem expressionListFrom_coupled (place : Place) {one other : Expression} (same : one.shape = other.shape) :
    C.Steady (expressionListFrom first place one) (expressionListFrom second place other) := by
  have start : Alike.alike (⟨1, one, one⟩ : ExpressionList) ⟨1, other, other⟩ := ⟨rfl, same, same⟩
  refine lawful.iterate (fun number one other same => ?_) start
  refine lawful.eatOperator_bind ?_ (.pure same fun _ _ holds => holds)
  refine (deep.expression place).bind fun last later alike => ?_
  exact Coupled.pure ⟨congrArg (· + 1) same.1, same.2.1, alike⟩ fun _ _ holds => holds

theorem expressionList_steady (place : Place) : C.Steady (expressionList first place) (expressionList second place) :=
  fun _ => (deep.expression place).bind fun _ _ same => expressionListFrom_coupled lawful deep place same _

end GoPrompt.Grammar
