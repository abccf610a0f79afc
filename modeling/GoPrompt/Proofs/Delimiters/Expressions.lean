import GoPrompt.Grammar.Expression
import GoPrompt.Grammar.Type
import GoPrompt.Proofs.Delimiters.Rules

/-! Types, signatures, statement lists and expressions close the delimiters that they open. -/

namespace GoPrompt.Grammar

open Parse

section

/-- Readers of a level that close what they open. -/
structure Deeper.Closes (origin : TokenStream) (deeper : Deeper) : Prop where
  expression : ∀ place, Balanced origin (deeper.expression place)
  unary : ∀ place, Balanced origin (deeper.unary place)
  type : Balanced origin deeper.type
  literalValue : Balanced origin deeper.literalValue
  statement : ∀ context, Balanced origin (deeper.statement context)
  ifStatement : Balanced origin deeper.ifStatement

variable {origin : TokenStream} {opened : List Operator} {deeper : Deeper}

theorem atType_matched {β : Type} {next : Bool → Parse β} {post : β → ParseState → Prop}
    (rest : ∀ starts, Matched origin (Faces origin opened []) (next starts) post) :
    Matched origin (Faces origin opened []) (atType >>= next) post := by
  simp only [atType, bind_assoc, pure_bind]
  exact .kind_bind fun kind => (rest _).forget

private theorem commas_balanced {item : Parse Unit} (items : Balanced origin item) : Balanced origin
    (repeatUntil do
      if ← eatOperator .comma then
        item
        return false
      else return true) :=
  .repeatUntil fun _ => (Balanced.eatOperator rfl).bind fun eaten => by
    cases eaten with
    | true => exact items.bind fun _ => .done
    | false => exact .done

theorem nameList_balanced : Balanced origin nameList := fun _ =>
  Balanced.expectName.bind fun _ => commas_balanced .expectName _

private theorem typeName_balanced : Balanced origin typeName := fun _ =>
  Balanced.expectName.bind fun _ => (Balanced.eatOperator rfl).bind fun qualified => by
    cases qualified with
    | true => exact Balanced.expectName.bind fun _ => .done
    | false => exact .done

theorem semicolonList_balanced (closer : Operator) {item : Parse Unit} (items : Balanced origin item) :
    Balanced origin (semicolonList closer item) := by
  refine .repeatUntil fun _ => .kind_bind fun kind => ?_
  split
  next => exact .pass_bind rfl .done
  next =>
    split
    next => exact .done
    next =>
      refine .forget (items.bind fun _ => .kind_bind fun kind => ?_)
      split
      next => exact .pass_bind rfl .done
      next =>
        split
        next => exact .done
        next => exact .rejectNext

private theorem commaList_balanced (closer : Operator) {item : Parse Unit} (items : Balanced origin item) :
    Balanced origin (commaList closer item) := by
  refine .repeatUntil fun _ =>
    .atOperator_bind .done (items.bind fun _ => .operator_bind .rejectNext fun operator => ?_)
  split
  next same =>
    cases same
    exact .pass_bind rfl .done
  next =>
    split
    next => exact .done
    next => exact .rejectNext

section
variable (closes : deeper.Closes origin)
include closes

private theorem arrayType_balanced (literalFollows : Bool) : Balanced origin (arrayType deeper literalFollows) := by
  intro opened
  have rest : Matched origin (Faces origin (.leftBracket :: opened) [])
      (do expectOperator .rightBracket; discard deeper.type; return Shape.literalType) fun _ =>
        Faces origin opened [] :=
    (Matched.expectClose rfl).bind fun _ => closes.type.discard.bind fun _ => .done
  have length := (closes.expression .free).discard.bind fun _ => rest
  refine (Matched.expectOpen rfl).bind fun _ => .operator_bind length fun operator => ?_
  split
  next => exact rest.forget
  next same =>
    cases same
    split
    next => exact .pass_bind rfl rest
    next => exact length.forget
  next => exact length.forget

private theorem mapType_balanced : Balanced origin (mapType deeper) := fun _ =>
  Balanced.expectKeyword.bind fun _ => (Matched.expectOpen rfl).bind fun _ =>
    .between rfl closes.type.discard (closes.type.discard.bind fun _ => .done)

private theorem parameter_balanced : Balanced origin (parameter deeper) := by
  intro opened
  have ofType := closes.type.discard opened
  refine (Balanced.eatOperator rfl).bind fun variadic => ?_
  split
  next => exact ofType
  next =>
    refine .kind_bind fun kind => ?_
    split
    next => exact ofType.forget
    next isName =>
      obtain rfl := Decidable.not_not.mp isName
      have named : Matched origin (Faces origin opened [.identifier])
          (do bump; if (← peekKind 0).isSome then discard deeper.type) fun _ => Faces origin opened [] := by
        refine .pass_bind rfl (.kind_bind fun kind => ?_)
        split
        next => exact ofType.forget
        next => exact .done
      refine .operatorAt_bind rfl named fun operator => ?_
      split
      next => exact ofType.forget
      next => exact .pass rfl
      next => exact .pass rfl
      next same =>
        cases same
        exact .pass_bind rfl (.pass_bind rfl ofType)
      next =>
        refine named.weaken (fun _ faces => ?_) fun _ _ holds => holds
        exact ⟨faces.visits, (List.prefix_append _ _).trans faces.ahead⟩

theorem parameters_balanced : Balanced origin (parameters deeper) := fun _ =>
  (Matched.expectOpen rfl).bind fun _ =>
    (commaList_balanced _ (parameter_balanced closes)).bind fun _ => .expectClose rfl

theorem result_balanced : Balanced origin (result deeper) := fun _ =>
  .atOperator_bind (parameters_balanced closes).matched (atType_matched fun starts => by
    cases starts with
    | true => exact closes.type.discard _
    | false => exact .done)

theorem signature_balanced : Balanced origin (signature deeper) := fun _ =>
  (parameters_balanced closes).bind fun _ => result_balanced closes _

private theorem field_balanced : Balanced origin (field deeper) := by
  intro opened
  have tag : Matched origin (Faces origin opened []) (do if (← peekKind 0) = some (.literal .string) then bump)
      fun _ => Faces origin opened [] := by
    refine .kind_bind fun kind => ?_
    split
    next same =>
      subst same
      exact .pass rfl
    next => exact .done
  refine .kind_bind fun kind => ?_
  split
  next => exact .pass_bind rfl (typeName_balanced.discard.bind fun _ => tag)
  next =>
    refine .kindAt_bind rfl fun following => ?_
    split
    next => exact .forget (typeName_balanced.discard.bind fun _ => tag)
    next => exact .pass_bind rfl tag.forget
    next => exact .pass_bind rfl tag.forget
    next => exact .pass_bind rfl tag.forget
    next => exact .forget (nameList_balanced.bind fun _ => closes.type.discard.bind fun _ => tag)
  next => exact Matched.rejectNext.bind (fun _ => tag)

private theorem structType_balanced : Balanced origin (structType deeper) := fun _ =>
  Balanced.expectKeyword.bind fun _ => (Matched.expectOpen rfl).bind fun _ =>
    .between rfl (semicolonList_balanced _ (field_balanced closes)) .done

private theorem typeUnion_balanced : Balanced origin (typeUnion deeper) :=
  .repeatUntil fun _ => (Balanced.eatOperator rfl).discard.bind fun _ => closes.type.discard.bind fun _ =>
    (Balanced.eatOperator rfl).bind fun _ => .done

private theorem interfaceElement_balanced : Balanced origin (interfaceElement deeper) := by
  intro opened
  have union := (typeUnion_balanced closes) opened
  refine .kind_bind fun kind => ?_
  split
  next isName =>
    subst isName
    refine .operatorAt_bind rfl union.forget fun operator => ?_
    split
    next => exact .pass_bind rfl (signature_balanced closes).matched
    next => exact union.forget
  next => exact union.forget

private theorem interfaceType_balanced : Balanced origin (interfaceType deeper) := fun _ =>
  Balanced.expectKeyword.bind fun _ => (Matched.expectOpen rfl).bind fun _ =>
    .between rfl (semicolonList_balanced _ (interfaceElement_balanced closes)) .done

theorem typeBody_balanced : Balanced origin (typeBody deeper) := by
  intro opened
  have element : Matched origin (Faces origin opened []) (do discard deeper.type; return Shape.other)
      fun _ => Faces origin opened [] := closes.type.discard.bind fun _ => .done
  refine .look_bind .endOfInput fun token => ?_
  dsimp only
  generalize token.kind = kind
  split
  next => exact typeName_balanced.matched
  next => exact .pass_bind rfl element
  next => exact .open_bind rfl (.between rfl closes.type.discard .done)
  next => exact (arrayType_balanced closes false).matched
  next => exact .pass_bind rfl (Balanced.expectKeyword.bind fun _ => element)
  next => exact .pass_bind rfl ((Balanced.eatOperator rfl).discard.bind fun _ => element)
  next => exact (mapType_balanced closes).matched
  next => exact .pass_bind rfl ((signature_balanced closes).bind fun _ => .done)
  next => exact (structType_balanced closes).matched
  next => exact (interfaceType_balanced closes).matched
  next => exact .unexpected

theorem typeList_balanced : Balanced origin (typeList deeper) := fun _ =>
  closes.type.discard.bind fun _ => commas_balanced closes.type.discard _

end

end

variable {origin : TokenStream} {opened : List Operator} {deeper : Deeper}

private theorem isPlain_of_precedence {operator : Operator} (binds : ¬ operator.precedence = 0) :
    (TokenKind.operator operator).isPlain = true := by
  cases operator <;> first | rfl | exact absurd rfl binds

private theorem isPlain_of_isUnary {operator : Operator} (unary : isUnary operator = true) :
    (TokenKind.operator operator).isPlain = true := by
  cases operator <;> first | rfl | cases unary

private theorem isPlain_of_operator? {token : Token} {operator : Operator} (found : token.operator? = some operator)
    (plain : (TokenKind.operator operator).isPlain = true) : token.kind.isPlain = true := by
  unfold Token.operator? at found
  cases kind : token.kind with
  | operator symbol =>
    rw [kind] at found
    cases found
    exact plain
  | identifier | keyword | literal | semicolon | illegal => rfl

private theorem isPlain_of_isSemicolon {kind : TokenKind} (separates : isSemicolon kind = true) :
    kind.isPlain = true := by
  cases kind <;> first | rfl | cases separates

section
variable (closes : deeper.Closes origin)
include closes

theorem statementList_balanced : Balanced origin (statementList deeper) := by
  refine .repeatUntil fun _ => .look_bind .endOfInput fun token => ?_
  dsimp only
  split
  next => exact .done
  next =>
    split
    next separates => exact .pass_bind (isPlain_of_isSemicolon separates) .done
    next =>
      refine .forget ((closes.statement .block).discard.bind fun _ => .kind_bind fun kind => ?_)
      split
      next => exact .pass_bind rfl .done
      next => exact .done
      next => exact .rejectNext

theorem block_balanced : Balanced origin (block deeper) := fun _ =>
  (Matched.expectOpen rfl).bind fun _ => (statementList_balanced closes).bind fun _ => .expectClose rfl

theorem optionalBlock_balanced : Balanced origin (optionalBlock deeper) := fun _ =>
  .atOperator_bind (block_balanced closes).matched .done

private theorem literalElement_balanced : Balanced origin (literalElement deeper) := fun _ =>
  .atOperator_bind closes.literalValue.matched (closes.expression .free).discard.matched

theorem literalValue_balanced : Balanced origin (literalValue deeper) := by
  have element : Balanced origin
      (do literalElement deeper; if ← eatOperator .colon then literalElement deeper) := fun _ =>
    (literalElement_balanced closes).bind fun _ => (Balanced.eatOperator rfl).bind fun keyed => by
      cases keyed with
      | true => exact literalElement_balanced closes _
      | false => exact .done
  exact fun _ => (Matched.expectOpen rfl).bind fun _ => (commaList_balanced _ element).bind fun _ => .expectClose rfl

private theorem selector_balanced (base : Shape) : Balanced origin (selector deeper base) := by
  refine fun opened => .kind_bind fun kind => ?_
  have closing : ∀ shape : Shape, Matched origin (Faces origin (.leftParen :: opened) [])
      (do expectOperator .rightParen; return shape) fun _ => Faces origin opened [] := fun _ =>
    (Matched.expectClose rfl).bind fun _ => .done
  split
  next => exact .pass_bind rfl .done
  next =>
    refine .open_bind rfl (.atKeyword_bind ?_ ?_)
    · exact .pass_bind rfl (closing .typeGuard)
    · exact closes.type.discard.bind fun _ => closing .other
  next => exact .rejectNext

private theorem sliceBounds_balanced : ∀ colons, Balanced origin (sliceBounds deeper colons)
  | 0, _ => .done
  | colons + 1, opened => by
    have rest := sliceBounds_balanced colons opened
    refine (Balanced.eatOperator rfl).bind fun eaten => ?_
    split
    next =>
      refine .atOperator_bind rest.forget (.atOperator_bind rest.forget ?_)
      exact (closes.expression .free).discard.bind fun _ => rest
    next => exact .done

private theorem indexOrSlice_balanced : Balanced origin (indexOrSlice deeper) := fun opened =>
  have bounds := sliceBounds_balanced closes 2 opened
  .atOperator_bind bounds.forget ((closes.expression .free).discard.bind fun _ => bounds)

private theorem callArguments_balanced : Balanced origin (callArguments deeper) :=
  commaList_balanced _ fun _ => (closes.expression .free).discard.bind fun _ => (Balanced.eatOperator rfl).discard _

private theorem suffix_matched (place : Place) (shape : Shape) (operator : Operator) :
    Matched origin (Faces origin opened [.operator operator]) (suffix deeper place shape operator) fun _ =>
    Faces origin opened [] := by
  unfold suffix
  split
  next => exact .pass_bind rfl ((selector_balanced closes shape).bind fun _ => .done)
  next => exact .open_bind rfl (.between rfl (indexOrSlice_balanced closes) .done)
  next => exact .open_bind rfl (.between rfl (callArguments_balanced closes) .done)
  next =>
    split
    next => exact .forget ((literalValue_balanced closes).bind fun _ => .done)
    next => exact .done
  next => exact .done

private theorem suffixes_balanced (place : Place) (operand : Expression) :
    Balanced origin (suffixes deeper place operand) := by
  refine .iterate (fun expression _ => .operator_bind .done fun operator => ?_) operand
  refine (suffix_matched closes place expression.shape operator).bind fun found => ?_
  cases found with
  | none => exact .done
  | some shape => exact .spanFrom_bind fun _ => .done

private theorem operandShape_matched (token : Token) :
    Matched origin (Faces origin opened [token.kind]) (operandShape deeper token) fun _ => Faces origin opened [] := by
  unfold operandShape
  generalize token.kind = kind
  split
  next => exact .pass_bind rfl .done
  next => exact .pass_bind rfl .done
  next => exact .open_bind rfl (.between rfl (closes.expression .free).discard .done)
  next => exact (arrayType_balanced closes true).matched
  next => exact (mapType_balanced closes).matched
  next => exact (structType_balanced closes).matched
  next => exact .forget (closes.type.discard.bind fun _ => .done)
  next => exact .forget (closes.type.discard.bind fun _ => .done)
  next => exact .pass_bind rfl ((signature_balanced closes).bind fun _ =>
    (optionalBlock_balanced closes).bind fun _ => .done)
  next => exact .unexpected

private theorem operand_balanced : Balanced origin (operand deeper) := fun _ =>
  .look_bind .endOfInput fun token => (operandShape_matched closes token).bind fun _ => .spanFrom_bind fun _ => .done

private theorem primary_balanced (place : Place) : Balanced origin (primary deeper place) := fun _ =>
  (operand_balanced closes).bind fun operand => suffixes_balanced closes place operand _

theorem unaryBody_balanced (place : Place) : Balanced origin (unaryBody deeper place) := by
  intro opened
  have operand : ∀ span : Span, Matched origin (Faces origin opened [])
      (do let operand ← deeper.unary place; return (⟨.other, span.merge operand.span⟩ : Expression)) fun _ =>
        Faces origin opened [] :=
    fun _ => (closes.unary place).bind fun _ => .done
  refine .look_bind .endOfInput fun token => ?_
  dsimp only
  split
  next isUnary =>
    cases found : token.operator? with
    | none => simp [found] at isUnary
    | some operator =>
      have unary : Grammar.isUnary operator = true := by simpa [found] using isUnary
      exact .pass_bind (isPlain_of_operator? found (isPlain_of_isUnary unary)) (operand _)
  next =>
    split
    next isArrow =>
      refine .pass_bind (isPlain_of_operator? isArrow rfl) (.atKeyword_bind ?_ (operand _))
      refine .pass_bind rfl (closes.type.discard.bind fun _ => .spanFrom_bind fun _ => ?_)
      exact suffixes_balanced closes place _ _
    next => exact (primary_balanced closes place).matched

private theorem binaryTail_balanced (place : Place) (tightness : Nat) (left : Expression) :
    Balanced origin (binaryTail deeper place tightness left) := by
  rw [binaryTail]
  refine .iterate (fun left _ => .operator_bind .done fun operator => ?_) left
  dsimp only
  split
  next => exact .done
  next binds =>
    refine .pass_bind (isPlain_of_precedence fun loose => binds (.inl loose))
      ((closes.unary place).bind fun operand => ?_)
    exact (binaryTail_balanced place (operator.precedence + 1) operand).bind fun _ => .done
termination_by 6 - tightness
decreasing_by
  have := operator.precedence_le
  omega

theorem binary_balanced (place : Place) (tightness : Nat) : Balanced origin (binary deeper place tightness) := fun _ =>
  (closes.unary place).bind fun operand => binaryTail_balanced closes place tightness operand _

theorem expressionFrom_balanced (place : Place) (operand : Expression) :
    Balanced origin (expressionFrom deeper place operand) :=
  fun _ => (suffixes_balanced closes place operand).bind fun left => binaryTail_balanced closes place 1 left _

theorem expressionListFrom_balanced (place : Place) (first : Expression) :
    Balanced origin (expressionListFrom deeper place first) := by
  refine .iterate (fun list _ => (Balanced.eatOperator rfl).bind fun more => ?_) _
  split
  next => exact (closes.expression place).bind fun _ => .done
  next => exact .done

theorem expressionList_balanced (place : Place) : Balanced origin (expressionList deeper place) := fun _ =>
  (closes.expression place).bind fun first => expressionListFrom_balanced closes place first _

end

end GoPrompt.Grammar
