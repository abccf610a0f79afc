import GoPrompt.Grammar.Statement
import GoPrompt.Proofs.Delimiters.Expressions

/-! Declarations and statements close the delimiters that they open, and so do the readers of every level. -/

namespace GoPrompt.Grammar

open Parse

variable {origin : TokenStream} {opened : List Operator} {deeper : Deeper}

private theorem isPlain_of_isAssignment {operator : Operator} (assigns : operator.isAssignment = true) :
    (TokenKind.operator operator).isPlain = true := by
  cases operator <;> first | rfl | cases assigns

private theorem group_balanced {item : Parse Unit} (items : Balanced origin item) : Balanced origin (group item) :=
  fun _ =>
  .eatOperator_bind (matchNext_opener rfl _)
    ((semicolonList_balanced _ items).bind fun _ => .expectClose rfl) (items _)

private theorem declaration_balanced (keyword : Keyword) (kind : StatementKind) {item : Parse Unit}
    (items : Balanced origin item) :
    Balanced origin (do expectKeyword keyword; group item; return kind) := fun _ =>
  Balanced.expectKeyword.bind fun _ => (group_balanced items).bind fun _ => .done

private theorem importItem_balanced : Balanced origin importItem := by
  intro opened
  have path : Matched origin (Faces origin opened [])
      (do if (← peekKind 0) = some (.literal .string) then bump else rejectNext ["import path"])
      fun _ => Faces origin opened [] := by
    refine .kind_bind fun kind => ?_
    split
    next same =>
      subst same
      exact .pass rfl
    next => exact .rejectNext
  refine .kind_bind fun kind => ?_
  split
  next => exact .pass_bind rfl path
  next => exact .pass_bind rfl path
  next => exact path.forget

private theorem loneExpression_balanced (left : ExpressionList) : Balanced origin (loneExpression left) := by
  unfold loneExpression
  split
  next => exact .pure
  next => exact fun _ => .rejectNext

section
variable (closes : deeper.Closes origin)
include closes

private theorem optionalValues_balanced : Balanced origin (optionalValues deeper) := fun _ =>
  .eatOperator_bind (matchNext_plain rfl _) ((expressionList_balanced closes .free).discard _) .done

private theorem constItem_balanced : Balanced origin (constItem deeper) := by
  intro opened
  have values := optionalValues_balanced closes opened
  refine nameList_balanced.bind fun _ => .atOperator_bind values.forget (atType_matched fun starts => ?_)
  cases starts with
  | true => exact closes.type.discard.bind fun _ => values
  | false => exact values

private theorem varItem_balanced : Balanced origin (varItem deeper) := fun _ =>
  nameList_balanced.bind fun _ =>
    .eatOperator_bind (matchNext_plain rfl _) ((expressionList_balanced closes .free).discard _)
      (closes.type.discard.bind fun _ => optionalValues_balanced closes _)

private theorem typeItem_balanced : Balanced origin (typeItem deeper) := fun _ =>
  Balanced.expectName.bind fun _ => (Balanced.eatOperator rfl).discard.bind fun _ => closes.type.discard _

private theorem labeledStatement_balanced : Balanced origin (labeledStatement deeper) := by
  refine fun _ => .kind_bind fun kind => ?_
  split
  next => exact .endOfInput
  next => exact .done
  next => exact .done
  next => exact (closes.statement .block).discard.matched

private theorem mayRange_matched (place : Place) (mayRange : Bool) {program : Parse SimpleStatement}
    (elsewhere : Balanced origin program) :
    Balanced origin (do
      let isRange ← if mayRange then atKeyword .range else pure false
      if isRange then rangeClause deeper place else program) := fun opened => by
  cases mayRange with
  | true =>
    refine .atKeyword_bind (.pass_bind rfl ?_) (elsewhere opened)
    exact (closes.expression place).discard.bind fun _ => .done
  | false => exact elsewhere opened

private theorem rightSide_balanced (place : Place) (mayRange : Bool) (kind : StatementKind) :
    Balanced origin (rightSide deeper place mayRange kind) :=
  mayRange_matched closes place mayRange fun _ => (expressionList_balanced closes place).bind fun _ => .done

private theorem simpleFrom_balanced (place : Place) (mode : SimpleMode) (left : ExpressionList) :
    Balanced origin (simpleFrom deeper place mode left) := by
  intro opened
  have lone : Matched origin (Faces origin opened []) (loneExpression left) fun _ => Faces origin opened [] :=
    loneExpression_balanced left opened
  refine .operator_bind lone fun operator => ?_
  split
  next => contradiction
  next found =>
    cases found
    exact .pass_bind rfl (rightSide_balanced closes _ _ _ opened)
  next found =>
    cases found
    split
    next assigns => exact .pass_bind (isPlain_of_isAssignment assigns) (rightSide_balanced closes _ _ _ opened)
    next =>
      split
      next isColon => exact .pass_bind (isColon.1 ▸ rfl) ((labeledStatement_balanced closes).bind fun _ => .done)
      next =>
        split
        next isArrow => exact .pass_bind (isArrow.1 ▸ rfl) ((closes.expression place).bind fun _ => .done)
        next =>
          split
          next steps => exact .pass_bind (by rcases steps.1 with rfl | rfl <;> rfl) .done
          next => exact lone.forget

private theorem simpleStatement_balanced (place : Place) (mode : SimpleMode) :
    Balanced origin (simpleStatement deeper place mode) := by
  have list : Balanced origin (do simpleFrom deeper place mode (← expressionList deeper place)) := fun _ =>
    (expressionList_balanced closes place).bind fun left => simpleFrom_balanced closes place mode left _
  have ranged := mayRange_matched closes place (mode = .forClause) list
  unfold simpleStatement
  simpa using ranged

private theorem ifHeader_balanced : Balanced origin (ifHeader deeper) := by
  intro opened
  have simple : Balanced origin (some <$> simpleStatement deeper .header .clause) :=
    (simpleStatement_balanced closes _ _).map
  have checked : ∀ condition : Option SimpleStatement, Matched origin (Faces origin opened [])
      (do if condition.any (·.kind = .expression) then return else rejectNext ["condition expression"])
      fun (_ : Unit) => Faces origin opened [] := by
    intro condition
    split
    next => exact .done
    next => exact .rejectNext
  have behind : ∀ initial : Option SimpleStatement, Matched origin (Faces origin opened [])
      (do
        let condition ←
          if ← atSemicolon then do
            bump
            if ← atOperator .leftBrace then rejectNext ["condition"]
            else some <$> simpleStatement deeper .header .clause
          else pure initial
        if condition.any (·.kind = .expression) then return else rejectNext ["condition expression"])
      fun (_ : Unit) => Faces origin opened [] := by
    intro initial
    refine .atSemicolon_bind (fun _ => .pass_bind rfl (.atOperator_bind ?_ ?_)) (checked initial)
    · exact Matched.rejectNext.bind checked
    · exact simple.bind checked
  refine .atOperator_bind .rejectNext (.atSemicolon_bind (fun _ => (behind none).forget) ?_)
  exact simple.bind behind

private theorem ifBody_balanced : Balanced origin (ifBody deeper) := by
  intro opened
  refine Balanced.expectKeyword.bind fun _ => (ifHeader_balanced closes).bind fun _ =>
      (block_balanced closes).bind fun _ =>
    .atKeyword_bind (.pass_bind rfl (.kind_bind fun kind => ?_)) .done
  split
  next => exact closes.ifStatement.matched
  next => exact (block_balanced closes).matched
  next => exact .rejectNext

private theorem forClauses_matched {written : SemicolonKind} :
    Matched origin (Faces origin opened [.semicolon written]) (forClauses deeper) fun _ => Faces origin opened [] := by
  have simple := simpleStatement_balanced closes .header .clause
  have rest : Matched origin (Faces origin opened [])
      (do
        expectSemicolon [";"]
        if !(← atOperator .leftBrace) then discard (simpleStatement deeper .header .clause))
      fun _ => Faces origin opened [] :=
    Balanced.expectSemicolon.bind fun _ => .atOperator_bind .done (simple.discard _)
  refine .pass_bind rfl (.atSemicolon_bind (fun _ => rest.forget) (simple.bind fun condition => ?_))
  split
  next => exact Matched.rejectNext.bind fun _ => rest
  next => exact rest

private theorem forHeader_balanced : Balanced origin (forHeader deeper) := by
  refine fun opened => .atOperator_bind .done (.atSemicolon_bind (fun _ => forClauses_matched closes) ?_)
  refine (simpleStatement_balanced closes .header .forClause).bind fun initial => ?_
  split
  next => exact .done
  next =>
    refine .atSemicolon_bind (fun _ => forClauses_matched closes) ?_
    simp only [Bool.false_eq_true, ↓reduceIte]
    split
    next => exact .done
    next => exact .rejectNext

private theorem forStatement_balanced : Balanced origin (forStatement deeper) := fun _ =>
  Balanced.expectKeyword.bind fun _ => (forHeader_balanced closes).bind fun _ =>
    (block_balanced closes).bind fun _ => .done

private theorem switchTag_balanced : Balanced origin (switchTag deeper) := by
  intro opened
  have simple : Balanced origin (some <$> simpleStatement deeper .header .clause) :=
    (simpleStatement_balanced closes _ _).map
  have behind : ∀ initial : Option SimpleStatement, Matched origin (Faces origin opened [])
      (do
        if ← atSemicolon then
          bump
          if ← atOperator .leftBrace then return none
          else some <$> simpleStatement deeper .header .clause
        else return initial)
      fun _ => Faces origin opened [] := fun _ =>
    .atSemicolon_bind (fun _ => .pass_bind rfl (.atOperator_bind .done (simple _))) .done
  exact .atSemicolon_bind (fun _ => (behind none).forget) (simple.bind behind)

private theorem switchHeader_balanced : Balanced origin (switchHeader deeper) := by
  refine fun opened => .atOperator_bind .done ((switchTag_balanced closes).bind fun tag => ?_)
  cases tag with
  | none => exact .done
  | some tag =>
    dsimp only
    split
    next => exact .done
    next =>
      split
      next => exact .done
      next => exact .rejectNext

private theorem clauses_balanced {cases : Parse Unit} (balanced : Balanced origin cases) :
    Balanced origin (clauses deeper cases) := by
  have body : Balanced origin (do expectOperator .colon; statementList deeper; return false) := fun _ =>
    (Balanced.expectOperator rfl).bind fun _ => (statementList_balanced closes).bind fun _ => .done
  refine .repeatUntil fun opened => .kind_bind fun kind => ?_
  split
  next => exact .done
  next => exact .pass_bind rfl (balanced.bind fun _ => body opened)
  next => exact .pass_bind rfl (body opened)
  next => exact .rejectNext

private theorem switchStatement_balanced : Balanced origin (switchStatement deeper) := by
  refine fun _ => Balanced.expectKeyword.bind fun _ => (switchHeader_balanced closes).bind fun onType => ?_
  have cases : Balanced origin (if onType then typeList deeper else discard (expressionList deeper .free)) := by
    cases onType with
    | true => exact typeList_balanced closes
    | false => exact (expressionList_balanced closes .free).discard
  exact (Matched.expectOpen rfl).bind fun _ => .between rfl (clauses_balanced closes cases) .done

private theorem communication_balanced : Balanced origin (communication deeper) := by
  refine fun _ => (simpleStatement_balanced closes .free .clause).bind fun statement => ?_
  split
  next => exact .done
  next => exact .rejectNext

private theorem selectStatement_balanced : Balanced origin (selectStatement deeper) := fun _ =>
  Balanced.expectKeyword.bind fun _ => (Matched.expectOpen rfl).bind fun _ =>
    .between rfl (clauses_balanced closes (communication_balanced closes)) .done

private theorem functionTail_balanced (start : Span) : Balanced origin
    (do
      optionalBlock deeper
      let first ← expressionFrom deeper .free ⟨.other, ← spanFrom start⟩
      let left ← expressionListFrom deeper .free first
      return (← simpleFrom deeper .free .statement left).kind) := fun _ =>
  (optionalBlock_balanced closes).bind fun _ => .spanFrom_bind fun _ =>
  (expressionFrom_balanced closes .free _).bind fun first =>
    (expressionListFrom_balanced closes .free first).bind fun left =>
      (simpleFrom_balanced closes .free .statement left).bind fun _ => .done

private theorem functionStatement_balanced (start : Span) : Balanced origin (functionStatement deeper start) := by
  have body : ∀ kind : StatementKind,
      Balanced origin (do signature deeper; optionalBlock deeper; return kind) := fun _ _ =>
    (signature_balanced closes).bind fun _ => (optionalBlock_balanced closes).bind fun _ => .done
  refine fun opened => Balanced.expectKeyword.bind fun _ => .kind_bind fun kind => ?_
  split
  next => exact .pass_bind rfl (body _ opened)
  next =>
    have rest := (result_balanced closes opened).bind fun _ => functionTail_balanced closes start opened
    refine .forget ((parameters_balanced closes).bind fun _ => .kind_bind fun kind => ?_)
    split
    next isName =>
      subst isName
      refine .operatorAt_bind rfl rest.forget fun operator => ?_
      simp only [pure_bind]
      split
      next => exact .pass_bind rfl (body _ opened).forget
      next => exact rest.forget
    next => exact rest.forget
  next => exact .rejectNext

private theorem statementKind_matched (context : Context) (token : Token) :
    Matched origin (Faces origin opened [token.kind]) (statementKind deeper context token) fun _ =>
    Faces origin opened [] := by
  have expression : ∀ kind : StatementKind, Matched origin (Faces origin opened [])
      (do discard (deeper.expression .free); return kind) fun _ => Faces origin opened [] := fun _ =>
    (closes.expression .free).discard.bind fun _ => .done
  have simple : Matched origin (Faces origin opened []) (do return (← simpleStatement deeper .free .statement).kind)
      fun _ => Faces origin opened [] := (simpleStatement_balanced closes .free .statement).bind fun _ => .done
  have label : ∀ kind : StatementKind, Matched origin (Faces origin opened [])
      (do
        if (← peekKind 0) = some .identifier then bump
        return kind) fun _ => Faces origin opened [] := by
    refine fun kind => .kind_bind fun found => ?_
    split
    next isName =>
      subst isName
      exact .pass_bind rfl .done
    next => exact .done
  have ofDeclaration : ∀ (keyword : Keyword) (kind : StatementKind) {item : Parse Unit}, Balanced origin item →
      Matched origin (Faces origin opened [token.kind]) (do expectKeyword keyword; group item; return kind)
        fun _ => Faces origin opened [] := fun keyword kind _ items => (declaration_balanced keyword kind items).matched
  unfold statementKind
  generalize token.kind = kind at ofDeclaration
  split
  next => exact ofDeclaration _ _ (constItem_balanced closes)
  next => exact ofDeclaration _ _ (varItem_balanced closes)
  next => exact ofDeclaration _ _ (typeItem_balanced closes)
  next =>
    split
    next => exact ofDeclaration _ _ importItem_balanced
    next => exact .unexpected
  next =>
    split
    next => exact (functionStatement_balanced closes _).matched
    next => exact simple.forget
  next => exact .pass_bind rfl (expression .go)
  next => exact .pass_bind rfl (expression .defer)
  next =>
    refine .pass_bind rfl (.kind_bind fun kind => ?_)
    split
    next => exact .done
    next => exact .done
    next => exact .done
    next => exact .forget ((expressionList_balanced closes .free).discard.bind fun _ => .done)
  next => exact .pass_bind rfl (label .break)
  next => exact .pass_bind rfl (label .continue)
  next => exact .pass_bind rfl (Balanced.expectName.bind fun _ => .done)
  next => exact .pass_bind rfl .done
  next => exact .forget ((ifBody_balanced closes).bind fun _ => .done)
  next => exact (forStatement_balanced closes).matched
  next => exact (switchStatement_balanced closes).matched
  next => exact (selectStatement_balanced closes).matched
  next => exact .forget ((block_balanced closes).bind fun _ => .done)
  next => exact simple.forget

private theorem statementBody_balanced (context : Context) : Balanced origin (statementBody deeper context) := fun _ =>
  .look_bind .endOfInput fun token => (statementKind_matched closes context token).bind fun _ =>
    .spanFrom_bind fun _ => .done

end

private theorem none_closes (limit : Nat) : (Deeper.none limit).Closes origin :=
  ⟨fun _ _ => .beyondLimit, fun _ _ => .beyondLimit, fun _ => .beyondLimit, fun _ =>
    .beyondLimit, fun _ _ => .beyondLimit, fun _ => .beyondLimit⟩

private theorem levels_close (limit : Nat) : ∀ left, (levels limit left).Closes origin
  | 0 => none_closes limit
  | left + 1 =>
    have closes := levels_close limit left
    { expression := fun place => binary_balanced closes place 1
      unary := unaryBody_balanced closes
      type := typeBody_balanced closes
      literalValue := literalValue_balanced closes
      statement := statementBody_balanced closes
      ifStatement := ifBody_balanced closes }

theorem topLevelStatement_balanced (limit : Nat) : Balanced origin (topLevelStatement limit) :=
  fun opened state faces =>
  (levels_close limit (limit - state.depth)).statement .topLevel opened state faces

end GoPrompt.Grammar
