import GoPrompt.Proofs.Calls.Meter

/-! How deep the calls go that read types and signatures. Besides the readers of the level below, every function calls
others only up to a depth of its own, and each turn of a list ends behind the separator that it consumes.

How deep the calls go that read blocks and expressions. The operators of an expression are the only calls that recur on
one level: behind each operator the rest has to bind more tightly, and there are five degrees of that. -/

namespace GoPrompt

open Parse

/-- Metered readers that do what the readers of a level do. Those of expressions and types consume a token. -/
structure Marked.Readers.Measure (bound : Nat) (readers : Marked.Readers Metered)
    (others : Marked.Readers Parse) : Prop where
  expression : ∀ place, Metered.Consumes bound (readers.expression place) (others.expression place)
  unary : ∀ place, Metered.Consumes bound (readers.unary place) (others.unary place)
  type : Metered.Consumes bound readers.type others.type
  literalValue : Metered.Proceeds bound readers.literalValue others.literalValue
  statement : ∀ context, Metered.Proceeds bound (readers.statement context) (others.statement context)
  ifStatement : Metered.Proceeds bound readers.ifStatement others.ifStatement

namespace Metered

open Marked

section lists

variable {bound : Nat} {item : Metered Unit} {other : Parse Unit}

theorem atType_proceeds : Proceeds 1 atType atType := .call (.step Parse.proceeds_atType)

theorem nameList_consumes : Consumes 1 nameList nameList := by
  refine .call (.take (consumes_expect _ _) fun _ => .repeatUntil (.look (proceeds_eatOperator _) fun more => ?_))
  cases more with
  | true => exact .take (consumes_expect _ _) fun _ => .idle
  | false => exact .leave

private theorem typeName_consumes : Consumes 1 typeName typeName := by
  refine .call (.take (consumes_expect _ _) fun _ => .look (proceeds_eatOperator _) fun qualified => ?_)
  cases qualified with
  | true => exact .take (consumes_expect _ _) fun _ => .idle
  | false => exact .idle

theorem semicolonList_proceeds (closer : Operator) (items : Proceeds bound item other) :
    Proceeds (bound + 1) (semicolonList closer item) (semicolonList closer other) := by
  refine .call (.repeatUntil (.look (proceeds_peekKind 0) fun kind => ?_))
  split
  next => exact .take consumes_bump fun _ => .idle
  next =>
    split
    next => exact .leave
    next =>
      refine .bind items fun _ => .look (proceeds_peekKind 0) fun kind => ?_
      split
      next => exact .take consumes_bump fun _ => .idle
      next =>
        split
        next => exact .leave
        next => exact .step (advances_rejectNext _)

private theorem commaList_proceeds (closer : Operator) (items : Proceeds bound item other) :
    Proceeds (bound + 1) (commaList closer item) (commaList closer other) := by
  refine .call (.repeatUntil (.look (proceeds_atOperator _) fun closed => ?_))
  split
  next => exact .leave
  next =>
    refine .bind items fun _ => .look (proceeds_peekOperator 0) fun operator => ?_
    split
    next => exact .take consumes_bump fun _ => .idle
    next =>
      split
      next => exact .leave
      next => exact .step (advances_rejectNext _)

end lists

variable {bound : Nat} {readers : Readers Metered} {others : Readers Parse} (measure : readers.Measure bound others)
include measure

private theorem arrayType_consumes (literalFollows : Bool) :
    Consumes (bound + 1) (arrayType readers literalFollows) (arrayType others literalFollows) := by
  have length := (measure.expression .free).discard
  refine .call (.take (consumes_expect _ _) fun _ => .look (proceeds_peekOperator 0) fun operator => ?_)
  have rest : ∀ _ : Unit,
    Proceeds bound (do expectOperator .rightBracket; discard readers.type; return Shape.literalType)
      (do expectOperator .rightBracket; discard others.type; return Shape.literalType) :=
    fun _ => .take (consumes_expect _ _) fun _ => .bind (measure.type.discard) fun _ => .idle
  split
  next => exact rest ()
  next =>
    split
    next => exact .take consumes_bump rest
    next => exact .bind length rest
  next => exact .bind length rest

private theorem mapType_consumes : Consumes (bound + 1) (mapType readers) (mapType others) :=
  .call (.take (consumes_expect _ _) fun _ => .take (consumes_expect _ _) fun _ => .bind measure.type.discard fun _ =>
    .take (consumes_expect _ _) fun _ => .bind measure.type.discard fun _ => .idle)

private theorem parameter_proceeds : Proceeds (bound + 1) (parameter readers) (parameter others) := by
  have ofType : Proceeds bound (discard readers.type) (discard others.type) := measure.type.discard.proceeds
  refine .call (.look (proceeds_eatOperator _) fun variadic => ?_)
  split
  next => exact ofType
  next =>
    refine .look (proceeds_peekKind 0) fun kind => ?_
    split
    next => exact ofType
    next =>
      refine .look (proceeds_peekOperator 1) fun operator => ?_
      split
      next => exact ofType
      next => exact .step consumes_bump.advances
      next => exact .step consumes_bump.advances
      next => exact .take consumes_bump fun _ => .take consumes_bump fun _ => ofType
      next =>
        refine .take consumes_bump fun _ => .look (proceeds_peekKind 0) fun kind => ?_
        split
        next => exact ofType
        next => exact .idle

theorem parameters_consumes : Consumes (bound + 3) (parameters readers) (parameters others) :=
  .call (.take (consumes_expect _ _) fun _ => .bind (commaList_proceeds _ (parameter_proceeds measure)) fun _ =>
    .step (consumes_expect _ _).advances)

theorem result_proceeds : Proceeds (bound + 4) (result readers) (result others) := by
  refine .call (.look (proceeds_atOperator _) fun grouped => ?_)
  split
  next => exact (parameters_consumes measure).proceeds
  next =>
    refine .bind (atType_proceeds.mono (by omega)) fun starts => ?_
    split
    next => exact measure.type.discard.proceeds.mono (by omega)
    next => exact .idle

theorem signature_consumes : Consumes (bound + 5) (signature readers) (signature others) :=
  .call (.behind ((parameters_consumes measure).mono (by omega)) fun _ => result_proceeds measure)

private theorem field_proceeds : Proceeds (bound + 2) (field readers) (field others) := by
  have tag : ∀ _ : Unit, Proceeds (bound + 1) (do if (← peekKind 0) = some (.literal .string) then bump)
      (do if (← peekKind 0) = some (.literal .string) then bump) := by
    refine fun _ => .look (proceeds_peekKind 0) fun kind => ?_
    split
    next => exact .step consumes_bump.advances
    next => exact .idle
  have ofName := typeName_consumes.discard.mono (Nat.le_add_left 1 bound)
  refine .call (.look (proceeds_peekKind 0) fun kind => ?_)
  split
  next => exact .take consumes_bump fun _ => .bind ofName tag
  next =>
    refine .look (proceeds_peekKind 1) fun following => ?_
    split
    next => exact .bind ofName tag
    next => exact .take consumes_bump tag
    next => exact .take consumes_bump tag
    next => exact .take consumes_bump tag
    next =>
      exact .bind (nameList_consumes.mono (by omega)) fun _ => .bind (measure.type.discard.mono (by omega)) tag
  next => exact .look (advances_rejectNext _) tag

private theorem structType_consumes : Consumes (bound + 4) (structType readers) (structType others) :=
  .call (.take (consumes_expect _ _) fun _ => .take (consumes_expect _ _) fun _ =>
    .bind (semicolonList_proceeds _ (field_proceeds measure)) fun _ => .take (consumes_expect _ _) fun _ => .idle)

private theorem typeUnion_proceeds : Proceeds (bound + 1) (typeUnion readers) (typeUnion others) :=
  .call (.repeatUntil (.bind (.discard (.step (proceeds_eatOperator _))) fun _ => .behind measure.type.discard fun _ =>
    .look (proceeds_eatOperator _) fun _ => .idle))

private theorem interfaceElement_proceeds :
    Proceeds (bound + 6) (interfaceElement readers) (interfaceElement others) := by
  have union := (typeUnion_proceeds measure).mono (show bound + 1 ≤ bound + 5 by omega)
  refine .call (.look (proceeds_peekKind 0) fun kind => ?_)
  split
  next =>
    refine .look (proceeds_peekOperator 1) fun operator => ?_
    split
    next => exact .take consumes_bump fun _ => (signature_consumes measure).proceeds
    next => exact union
  next => exact union

private theorem interfaceType_consumes : Consumes (bound + 8) (interfaceType readers) (interfaceType others) :=
  .call (.take (consumes_expect _ _) fun _ => .take (consumes_expect _ _) fun _ =>
    .bind (semicolonList_proceeds _ (interfaceElement_proceeds measure)) fun _ =>
    .take (consumes_expect _ _) fun _ => .idle)

theorem typeBody_consumes : Consumes (bound + 9) (typeBody readers) (typeBody others) := by
  have ofType : Proceeds (bound + 8) (discard readers.type) (discard others.type) :=
    measure.type.discard.proceeds.mono (Nat.le_add_right bound 8)
  refine .call (.look (proceeds_peek 0) fun found => ?_)
  cases found with
  | none => exact .step (advances_endOfInput _)
  | some token =>
    dsimp only
    generalize token.kind = kind
    split
    next => exact typeName_consumes.mono (by omega)
    next => exact .take consumes_bump fun _ => .bind ofType fun _ => .idle
    next => exact .take consumes_bump fun _ => .bind ofType fun _ => .take (consumes_expect _ _) fun _ => .idle
    next => exact (arrayType_consumes measure false).mono (by omega)
    next => exact .take consumes_bump fun _ => .take (consumes_expect _ _) fun _ => .bind ofType fun _ => .idle
    next =>
      exact .take consumes_bump fun _ => .bind (.discard (.step (proceeds_eatOperator _))) fun _ =>
        .bind ofType fun _ => .idle
    next => exact (mapType_consumes measure).mono (by omega)
    next => exact .take consumes_bump fun _ => .bind ((signature_consumes measure).mono (by omega)) fun _ => .idle
    next => exact (structType_consumes measure).mono (by omega)
    next => exact interfaceType_consumes measure
    next => exact .step (advances_unexpected _ _)

theorem typeList_consumes : Consumes (bound + 1) (typeList readers) (typeList others) := by
  refine .call (.behind measure.type.discard fun _ => .repeatUntil (.look (proceeds_eatOperator _) fun more => ?_))
  cases more with
  | true => exact .behind measure.type.discard fun _ => .idle
  | false => exact .leave

end Metered

namespace Metered

open Parse Marked
open Grammar (Place)

variable {bound : Nat} {readers : Readers Metered} {others : Readers Parse} (measure : readers.Measure bound others)
include measure

theorem statementList_proceeds : Proceeds (bound + 1) (statementList readers) (statementList others) := by
  refine .call (.repeatUntil (.look (proceeds_peek 0) fun found => ?_))
  cases found with
  | none => exact .step (advances_endOfInput _)
  | some token =>
    dsimp only
    split
    next => exact .leave
    next =>
      split
      next => exact .take consumes_bump fun _ => .idle
      next =>
        refine .bind (measure.statement .block).discard fun _ => .look (proceeds_peekKind 0) fun kind => ?_
        split
        next => exact .take consumes_bump fun _ => .idle
        next => exact .leave
        next => exact .step (advances_rejectNext _)

theorem block_consumes : Consumes (bound + 2) (block readers) (block others) :=
  .call (.take (consumes_expect _ _) fun _ => .bind (statementList_proceeds measure) fun _ =>
    .step (consumes_expect _ _).advances)

theorem optionalBlock_proceeds : Proceeds (bound + 3) (optionalBlock readers) (optionalBlock others) := by
  refine .call (.look (proceeds_atOperator _) fun there => ?_)
  split
  next => exact (block_consumes measure).proceeds
  next => exact .idle

private theorem literalElement_proceeds : Proceeds (bound + 1) (literalElement readers) (literalElement others) := by
  refine .call (.look (proceeds_atOperator _) fun nested => ?_)
  split
  next => exact measure.literalValue
  next => exact (measure.expression .free).discard.proceeds

theorem literalValue_consumes : Consumes (bound + 3) (literalValue readers) (literalValue others) := by
  refine .call (.take (consumes_expect _ _) fun _ => .bind (commaList_proceeds _ ?_) fun _ =>
    .step (consumes_expect _ _).advances)
  refine .bind (literalElement_proceeds measure) fun _ => .look (proceeds_eatOperator _) fun keyed => ?_
  split
  next => exact literalElement_proceeds measure
  next => exact .idle

private theorem selector_proceeds (base : Shape) :
    Proceeds (bound + 1) (selector readers base) (selector others base) := by
  refine .call (.look (proceeds_peekKind 0) fun kind => ?_)
  have rest : ∀ shape : Shape,
      Proceeds bound (do expectOperator .rightParen; return shape) (do expectOperator .rightParen; return shape) :=
    fun _ => .take (consumes_expect _ _) fun _ => .idle
  split
  next => exact .take consumes_bump fun _ => .idle
  next =>
    refine .take consumes_bump fun _ => .look (proceeds_atKeyword _) fun guards => ?_
    split
    next => exact .take consumes_bump fun _ => rest _
    next => exact .bind measure.type.discard fun _ => rest _
  next => exact .step (advances_rejectNext _)

private theorem sliceBounds_proceeds (colons : Nat) :
    Proceeds bound (sliceBounds readers colons) (sliceBounds others colons) := by
  induction colons with
  | zero => exact .idle
  | succ colons ih =>
    refine .look (proceeds_eatOperator _) fun more => ?_
    split
    next =>
      refine .look (proceeds_atOperator _) fun empty => ?_
      split
      next =>
        refine .look (proceeds_atOperator _) fun closed => ?_
        split
        next => exact .bind (measure.expression .free).discard fun _ => ih
        next => exact ih
      next => exact ih
    next => exact .idle

private theorem indexOrSlice_proceeds : Proceeds (bound + 1) (indexOrSlice readers) (indexOrSlice others) := by
  refine .call (.look (proceeds_atOperator _) fun slices => ?_)
  split
  next => exact .bind (measure.expression .free).discard fun _ => sliceBounds_proceeds measure 2
  next => exact sliceBounds_proceeds measure 2

private theorem callArguments_proceeds : Proceeds (bound + 2) (callArguments readers) (callArguments others) :=
  .call (commaList_proceeds _ (.bind (measure.expression .free).discard fun _ =>
    .discard (.step (proceeds_eatOperator _))))

private theorem suffix_measures (place : Place) (shape : Shape) (operator : Operator) :
    Measures (bound + 4) (·.isSome) (suffix readers place shape operator) (suffix others place shape operator) := by
  refine .call ?_
  split
  next => exact .take consumes_bump fun _ => .bind ((selector_proceeds measure shape).mono (by omega)) fun _ => .idle
  next =>
    exact .take consumes_bump fun _ => .bind ((indexOrSlice_proceeds measure).mono (by omega)) fun _ =>
      .take (consumes_expect _ _) fun _ => .idle
  next =>
    exact .take consumes_bump fun _ => .bind ((callArguments_proceeds measure).mono (by omega)) fun _ =>
      .take (consumes_expect _ _) fun _ => .idle
  next =>
    split
    next => exact .behind (literalValue_consumes measure) fun _ => .idle
    next => exact .pure Bool.noConfusion
  next => exact .pure Bool.noConfusion

private theorem suffixes_proceeds (place : Place) (operand : Expression) :
    Proceeds (bound + 5) (suffixes readers place operand) (suffixes others place operand) := by
  refine .call (.iterate (fun expression => .look (proceeds_peekOperator 0) fun found => ?_) operand)
  cases found with
  | none => exact .done
  | some operator =>
    refine .sequence (suffix_measures measure place expression.shape operator) fun found => ?_
    cases found with
    | none => exact .pure fun both => both.1
    | some shape => exact .look (proceeds_spanFrom _) fun _ => .pure fun both => both.2 rfl

theorem operandShape_consumes (token : Token) :
    Consumes (bound + 6) (operandShape readers token) (operandShape others token) := by
  refine .call ?_
  generalize token.kind = kind
  split
  next => exact .take consumes_bump fun _ => .idle
  next => exact .take consumes_bump fun _ => .idle
  next =>
    exact .take consumes_bump fun _ => .bind ((measure.expression .free).discard.mono (by omega)) fun _ =>
      .take (consumes_expect _ _) fun _ => .idle
  next => exact (arrayType_consumes measure true).mono (by omega)
  next => exact (mapType_consumes measure).mono (by omega)
  next => exact (structType_consumes measure).mono (by omega)
  next => exact .behind (measure.type.discard.mono (by omega)) fun _ => .idle
  next => exact .behind (measure.type.discard.mono (by omega)) fun _ => .idle
  next =>
    exact .take consumes_bump fun _ => .bind (signature_consumes measure) fun _ =>
      .bind ((optionalBlock_proceeds measure).mono (by omega)) fun _ => .idle
  next => exact .step (advances_unexpected _ _)

private theorem operand_consumes : Consumes (bound + 7) (operand readers) (operand others) := by
  refine .call (.look (proceeds_peek 0) fun found => ?_)
  cases found with
  | none => exact .step (advances_endOfInput _)
  | some token => exact .behind (operandShape_consumes measure token) fun _ => .look (proceeds_spanFrom _) fun _ => .idle

private theorem primary_consumes (place : Place) :
    Consumes (bound + 8) (primary readers place) (primary others place) :=
  .call (.behind (operand_consumes measure) fun operand => (suffixes_proceeds measure place operand).mono (by omega))

theorem unaryBody_consumes (place : Place) :
    Consumes (bound + 9) (unaryBody readers place) (unaryBody others place) := by
  have signed : ∀ token : Token, Proceeds (bound + 8)
      (do let operand ← readers.unary place; return (⟨.other, token.span.merge operand.span⟩ : Expression))
      (do let operand ← others.unary place; return ⟨.other, token.span.merge operand.span⟩) :=
    fun token => .bind ((measure.unary place).mono (by omega)) fun _ => .idle
  refine .call (.look (proceeds_peek 0) fun found => ?_)
  cases found with
  | none => exact .step (advances_endOfInput _)
  | some token =>
    dsimp only
    split
    next => exact .take consumes_bump fun _ => signed token
    next =>
      split
      next =>
        refine .take consumes_bump fun _ => .look (proceeds_atKeyword _) fun channel => ?_
        split
        next =>
          exact .take consumes_bump fun _ => .bind (measure.type.discard.mono (by omega)) fun _ =>
            .look (proceeds_spanFrom _) fun _ => (suffixes_proceeds measure place _).mono (by omega)
        next => exact signed token
      next => exact primary_consumes measure place

theorem binaryTail_proceeds (place : Place) (tightness : Nat) (left : Expression) :
    Proceeds (bound + 2 * (6 - tightness) + 1) (binaryTail readers place tightness left)
      (binaryTail others place tightness left) := by
  unfold binaryTail
  refine .call (.iterate (fun left => .look (proceeds_peekOperator 0) fun found => ?_) left)
  cases found with
  | none => exact .done
  | some operator =>
    dsimp only
    split
    next => exact .done
    next binds =>
      have loose := operator.precedence_le
      refine .take consumes_bump fun _ => .bind (.mono (.call (.bind ((measure.unary place).mono ?_) fun operand =>
        binaryTail_proceeds place (operator.precedence + 1) operand)) ?_) fun _ => .idle
      · omega
      · omega
termination_by 6 - tightness
decreasing_by omega

theorem binary_consumes (place : Place) : Consumes (bound + 12) (binary readers place 1) (binary others place 1) :=
  .call (.behind ((measure.unary place).mono (by omega)) fun operand => binaryTail_proceeds measure place 1 operand)

theorem expressionFrom_proceeds (place : Place) (operand : Expression) :
    Proceeds (bound + 12) (expressionFrom readers place operand) (expressionFrom others place operand) :=
  .call (.bind ((suffixes_proceeds measure place operand).mono (by omega)) fun operand =>
    binaryTail_proceeds measure place 1 operand)

theorem expressionListFrom_proceeds (place : Place) (first : Expression) :
    Proceeds (bound + 1) (expressionListFrom readers place first) (expressionListFrom others place first) := by
  refine .call (.iterate (fun list => .look (proceeds_eatOperator _) fun more => ?_) _)
  cases more with
  | true => exact .behind (measure.expression place) fun _ => .idle
  | false => exact .done

theorem expressionList_consumes (place : Place) :
    Consumes (bound + 2) (expressionList readers place) (expressionList others place) :=
  .call (.behind ((measure.expression place).mono (by omega)) fun first =>
    expressionListFrom_proceeds measure place first)

end Metered

end GoPrompt
