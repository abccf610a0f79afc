import GoPrompt.Proofs.Calls.Expressions
import GoPrompt.Proofs.Calls.MarkedTexts

/-! How deep the calls go that read declarations, simple statements and control statements, and with them statements of
all kinds. -/

namespace GoPrompt.Metered

open Parse Marked
open Grammar (Place ExpressionList SimpleMode)

section declarations

variable {bound : Nat}

private theorem group_proceeds {item : Metered Unit} {other : Parse Unit} (items : Proceeds bound item other) :
    Proceeds (bound + 2) (group item) (group other) := by
  refine .call (.look (proceeds_eatOperator _) fun grouped => ?_)
  split
  next => exact .bind (semicolonList_proceeds _ items) fun _ => .step (consumes_expect _ _).advances
  next => exact items.mono (by omega)

private theorem importItem_proceeds : Proceeds 1 importItem importItem := by
  have path : ∀ _ : Unit, Proceeds 0
      (do if (← peekKind 0) = some (.literal .string) then bump else rejectNext ["import path"])
      (do if (← peekKind 0) = some (.literal .string) then bump else rejectNext ["import path"]) := by
    refine fun _ => .look (proceeds_peekKind 0) fun kind => ?_
    split
    next => exact .step consumes_bump.advances
    next => exact .step (advances_rejectNext _)
  refine .call (.look (proceeds_peekKind 0) fun kind => ?_)
  split
  next => exact .take consumes_bump path
  next => exact .take consumes_bump path
  next => exact path ()

variable {readers : Readers Metered} {others : Readers Parse} (measure : readers.Measure bound others)

private theorem importDeclaration_proceeds : Proceeds 4 importDeclaration importDeclaration :=
  .call (.take (consumes_expect _ _) fun _ => .bind (group_proceeds importItem_proceeds) fun _ => .idle)

include measure

private theorem optionalValues_proceeds : Proceeds (bound + 3) (optionalValues readers) (optionalValues others) := by
  refine .call (.look (proceeds_eatOperator _) fun assigned => ?_)
  split
  next => exact (expressionList_consumes measure .free).discard.proceeds
  next => exact .idle

private theorem constItem_proceeds : Proceeds (bound + 4) (constItem readers) (constItem others) := by
  have values := optionalValues_proceeds measure
  refine .call (.bind (nameList_consumes.mono (by omega)) fun _ => .look (proceeds_atOperator _) fun assigned => ?_)
  split
  next =>
    refine .bind (atType_proceeds.mono (by omega)) fun typed => ?_
    split
    next => exact .bind (measure.type.discard.mono (by omega)) fun _ => values
    next => exact values
  next => exact values

private theorem varItem_proceeds : Proceeds (bound + 4) (varItem readers) (varItem others) := by
  refine .call (.bind (nameList_consumes.mono (by omega)) fun _ => .look (proceeds_eatOperator _) fun assigned => ?_)
  split
  next => exact (expressionList_consumes measure .free).discard.proceeds.mono (by omega)
  next => exact .bind (measure.type.discard.mono (by omega)) fun _ => optionalValues_proceeds measure

private theorem typeItem_proceeds : Proceeds (bound + 1) (typeItem readers) (typeItem others) :=
  .call (.take (consumes_expect _ _) fun _ => .bind (.discard (.step (proceeds_eatOperator _))) fun _ =>
    measure.type.discard.proceeds)

private theorem constDeclaration_proceeds : Proceeds (bound + 7) (constDeclaration readers) (constDeclaration others) :=
  .call (.take (consumes_expect _ _) fun _ => .bind (group_proceeds (constItem_proceeds measure)) fun _ => .idle)

private theorem varDeclaration_proceeds : Proceeds (bound + 7) (varDeclaration readers) (varDeclaration others) :=
  .call (.take (consumes_expect _ _) fun _ => .bind (group_proceeds (varItem_proceeds measure)) fun _ => .idle)

private theorem typeDeclaration_proceeds : Proceeds (bound + 4) (typeDeclaration readers) (typeDeclaration others) :=
  .call (.take (consumes_expect _ _) fun _ => .bind (group_proceeds (typeItem_proceeds measure)) fun _ => .idle)

end declarations

section simple

variable {bound : Nat} {readers : Readers Metered} {others : Readers Parse} (measure : readers.Measure bound others)

private theorem loneExpression_proceeds (left : ExpressionList) :
    Proceeds 1 (loneExpression left) (loneExpression left) := by
  refine .call ?_
  split
  next => exact .idle
  next => exact .step (advances_rejectNext _)

include measure

private theorem labeledStatement_proceeds :
    Proceeds (bound + 1) (labeledStatement readers) (labeledStatement others) := by
  refine .call (.look (proceeds_peekKind 0) fun kind => ?_)
  split
  next => exact .step (advances_endOfInput _)
  next => exact .idle
  next => exact .idle
  next => exact (measure.statement .block).discard

private theorem rangeClause_proceeds (place : Place) :
    Proceeds (bound + 1) (rangeClause readers place) (rangeClause others place) :=
  .call (.take consumes_bump fun _ => .bind (measure.expression place).discard fun _ => .idle)

private theorem rightSide_proceeds (place : Place) (mayRange : Bool) (kind : StatementKind) :
    Proceeds (bound + 3) (rightSide readers place mayRange kind) (rightSide others place mayRange kind) := by
  have rest : ∀ isRange : Bool, Proceeds (bound + 2)
      (if isRange then rangeClause readers place
      else do
        let values ← expressionList readers place
        return { kind := kind, last := some values.last.shape })
      (if isRange then rangeClause others place
      else do
        let values ← expressionList others place
        return { kind := kind, last := some values.last.shape }) := by
    intro isRange
    split
    next => exact (rangeClause_proceeds measure place).mono (by omega)
    next => exact .bind (expressionList_consumes measure place) fun _ => .idle
  refine .call ?_
  split
  next => exact .look (proceeds_atKeyword _) rest
  next => exact rest false

private theorem simpleFrom_proceeds (place : Place) (mode : SimpleMode) (left : ExpressionList) :
    Proceeds (bound + 4) (simpleFrom readers place mode left) (simpleFrom others place mode left) := by
  have lone := (loneExpression_proceeds left).mono (Nat.le_add_left 1 (bound + 2))
  refine .call (.look (proceeds_peekOperator 0) fun found => ?_)
  split
  next => exact lone
  next => exact .take consumes_bump fun _ => rightSide_proceeds measure place _ _
  next =>
    split
    next => exact .take consumes_bump fun _ => rightSide_proceeds measure place _ _
    next =>
      split
      next => exact .take consumes_bump fun _ => .bind ((labeledStatement_proceeds measure).mono (by omega)) fun _ => .idle
      next =>
        split
        next => exact .take consumes_bump fun _ => .bind ((measure.expression place).mono (by omega)) fun _ => .idle
        next =>
          split
          next => exact .take consumes_bump fun _ => .idle
          next => exact lone

private theorem simpleStatement_proceeds (place : Place) (mode : SimpleMode) :
    Proceeds (bound + 5) (simpleStatement readers place mode) (simpleStatement others place mode) := by
  have rest : ∀ isRange : Bool, Proceeds (bound + 4)
      (if isRange then rangeClause readers place
      else do simpleFrom readers place mode (← expressionList readers place))
      (if isRange then rangeClause others place
      else do simpleFrom others place mode (← expressionList others place)) := by
    intro isRange
    split
    next => exact (rangeClause_proceeds measure place).mono (by omega)
    next =>
      exact .bind ((expressionList_consumes measure place).mono (by omega)) fun left =>
        simpleFrom_proceeds measure place mode left
  refine .call ?_
  split
  next => exact .look (proceeds_atKeyword _) rest
  next => exact rest false

end simple

open Grammar (Place Context SimpleMode SimpleStatement)

variable {bound : Nat} {readers : Readers Metered} {others : Readers Parse} (measure : readers.Measure bound others)
include measure

private theorem clause_proceeds : Proceeds (bound + 5) (some <$> simpleStatement readers .header .clause)
    (some <$> simpleStatement others .header .clause) := (simpleStatement_proceeds measure .header .clause).map

private theorem conditionFrom_proceeds (first : Option SimpleStatement) :
    Proceeds (bound + 5) (conditionFrom readers first) (conditionFrom others first) := by
  have checked : ∀ condition : Option SimpleStatement, Proceeds (bound + 5)
      (if condition.any (·.kind = .expression) then return else rejectNext ["condition expression"])
      (if condition.any (·.kind = .expression) then return else rejectNext ["condition expression"]) := by
    intro condition
    split
    next => exact .idle
    next => exact .step (advances_rejectNext _)
  refine .look proceeds_atSemicolon fun more => ?_
  split
  next =>
    refine .take consumes_bump fun _ => .look (proceeds_atOperator _) fun empty => ?_
    split
    next => exact .look (advances_rejectNext _) checked
    next => exact .bind (clause_proceeds measure) checked
  next => exact .bind .idle checked

private theorem ifHeader_proceeds : Proceeds (bound + 6) (ifHeader readers) (ifHeader others) := by
  refine .call (.look (proceeds_atOperator _) fun empty => ?_)
  split
  next => exact .step (advances_rejectNext _)
  next =>
    refine .look proceeds_atSemicolon fun omitted => ?_
    split
    next => exact .bind .idle (conditionFrom_proceeds measure)
    next => exact .bind (clause_proceeds measure) (conditionFrom_proceeds measure)

theorem ifBody_proceeds : Proceeds (bound + 7) (ifBody readers) (ifBody others) := by
  have body : Proceeds (bound + 6) (block readers) (block others) := (block_consumes measure).proceeds.mono (by omega)
  refine .call (.take (consumes_expect _ _) fun _ => .bind (ifHeader_proceeds measure) fun _ => .bind body fun _ =>
    .look (proceeds_atKeyword _) fun otherwise => ?_)
  split
  next =>
    refine .take consumes_bump fun _ => .look (proceeds_peekKind 0) fun kind => ?_
    split
    next => exact measure.ifStatement.mono (by omega)
    next => exact body
    next => exact .step (advances_rejectNext _)
  next => exact .idle

private theorem forClauses_proceeds : Proceeds (bound + 6) (forClauses readers) (forClauses others) := by
  have last : ∀ _ : Unit, Proceeds (bound + 5)
      (do
        expectSemicolon [";"]
        if !(← atOperator .leftBrace) then discard (simpleStatement readers .header .clause))
      (do
        expectSemicolon [";"]
        if !(← atOperator .leftBrace) then discard (simpleStatement others .header .clause)) := by
    refine fun _ => .take (consumes_expect _ _) fun _ => .look (proceeds_atOperator _) fun omitted => ?_
    split
    next => exact (simpleStatement_proceeds measure .header .clause).discard
    next => exact .idle
  refine .call (.take consumes_bump fun _ => .look proceeds_atSemicolon fun omitted => ?_)
  split
  next =>
    refine .bind (simpleStatement_proceeds measure .header .clause) fun condition => ?_
    split
    next => exact .look (advances_rejectNext _) last
    next => exact last ()
  next => exact last ()

private theorem forHeader_proceeds : Proceeds (bound + 7) (forHeader readers) (forHeader others) := by
  refine .call (.look (proceeds_atOperator _) fun empty => ?_)
  split
  next => exact .idle
  next =>
    refine .look proceeds_atSemicolon fun omitted => ?_
    split
    next => exact forClauses_proceeds measure
    next =>
      refine .bind ((simpleStatement_proceeds measure .header .forClause).mono (by omega)) fun first => ?_
      split
      next => exact .idle
      next =>
        refine .look proceeds_atSemicolon fun more => ?_
        split
        next => exact forClauses_proceeds measure
        next =>
          split
          next => exact .idle
          next => exact .step (advances_rejectNext _)

private theorem forStatement_proceeds : Proceeds (bound + 8) (forStatement readers) (forStatement others) :=
  .call (.take (consumes_expect _ _) fun _ => .bind (forHeader_proceeds measure) fun _ =>
    .bind ((block_consumes measure).mono (by omega)) fun _ => .idle)

private theorem tagFrom_proceeds (first : Option SimpleStatement) :
    Proceeds (bound + 5) (tagFrom readers first) (tagFrom others first) := by
  refine .look proceeds_atSemicolon fun more => ?_
  split
  next =>
    refine .take consumes_bump fun _ => .look (proceeds_atOperator _) fun empty => ?_
    split
    next => exact .idle
    next => exact clause_proceeds measure
  next => exact .idle

private theorem switchTag_proceeds : Proceeds (bound + 6) (switchTag readers) (switchTag others) := by
  refine .call (.look proceeds_atSemicolon fun omitted => ?_)
  split
  next => exact .bind .idle (tagFrom_proceeds measure)
  next => exact .bind (clause_proceeds measure) (tagFrom_proceeds measure)

private theorem switchHeader_proceeds : Proceeds (bound + 7) (switchHeader readers) (switchHeader others) := by
  refine .call (.look (proceeds_atOperator _) fun empty => ?_)
  split
  next => exact .idle
  next =>
    refine .bind (switchTag_proceeds measure) fun tag => ?_
    split
    next => exact .idle
    next =>
      split
      next => exact .idle
      next =>
        split
        next => exact .idle
        next => exact .step (advances_rejectNext _)

private theorem clauses_proceeds {cases : Metered Unit} {other : Parse Unit} {within : Nat}
    (labels : Proceeds within cases other) (deeper : bound < within) :
    Proceeds (within + 1) (clauses readers cases) (clauses others other) := by
  have body : ∀ _ : Unit,
      Proceeds within (do statementList readers; return false) (do statementList others; return false) :=
    fun _ => .bind ((statementList_proceeds measure).mono deeper) fun _ => .idle
  refine .call (.repeatUntil (.look (proceeds_peekKind 0) fun kind => ?_))
  split
  next => exact .leave
  next => exact .take consumes_bump fun _ => .bind labels fun _ => .take (consumes_expect _ _) body
  next => exact .take consumes_bump fun _ => .take (consumes_expect _ _) body
  next => exact .step (advances_rejectNext _)

private theorem switchStatement_proceeds : Proceeds (bound + 8) (switchStatement readers) (switchStatement others) := by
  refine .call (.take (consumes_expect _ _) fun _ => .bind (switchHeader_proceeds measure) fun onType =>
    .take (consumes_expect _ _) fun _ =>
    .bind (.mono (clauses_proceeds measure ?_ (show bound < bound + 2 by omega)) (by omega)) fun _ =>
    .take (consumes_expect _ _) fun _ => .idle)
  split
  next => exact (typeList_consumes measure).proceeds.mono (by omega)
  next => exact (expressionList_consumes measure .free).discard.proceeds

private theorem communication_proceeds : Proceeds (bound + 6) (communication readers) (communication others) := by
  refine .call (.bind (simpleStatement_proceeds measure .free .clause) fun statement => ?_)
  split
  next => exact .idle
  next => exact .step (advances_rejectNext _)

private theorem selectStatement_proceeds : Proceeds (bound + 8) (selectStatement readers) (selectStatement others) :=
  .call (.take (consumes_expect _ _) fun _ => .take (consumes_expect _ _) fun _ =>
    .bind (clauses_proceeds measure (communication_proceeds measure) (by omega)) fun _ =>
    .take (consumes_expect _ _) fun _ => .idle)

private theorem functionFrom_proceeds (start : Span) (isMethod : Bool) :
    Proceeds (bound + 12) (functionFrom readers start isMethod) (functionFrom others start isMethod) := by
  have body : Proceeds (bound + 12) (optionalBlock readers) (optionalBlock others) :=
    (optionalBlock_proceeds measure).mono (by omega)
  unfold functionFrom
  split
  next =>
    exact .take consumes_bump fun _ => .bind ((signature_consumes measure).mono (by omega)) fun _ =>
      .bind body fun _ => .idle
  next =>
    exact .bind ((result_proceeds measure).mono (by omega)) fun _ => .bind body fun _ =>
        .look (proceeds_spanFrom _) fun _ =>
      .bind (expressionFrom_proceeds measure .free _) fun first =>
      .bind ((expressionListFrom_proceeds measure .free first).mono (by omega)) fun left =>
      .bind ((simpleFrom_proceeds measure .free .statement left).mono (by omega)) fun _ => .idle

private theorem functionStatement_proceeds (start : Span) :
    Proceeds (bound + 13) (functionStatement readers start) (functionStatement others start) := by
  refine .call (.take (consumes_expect _ _) fun _ => .look (proceeds_peekKind 0) fun kind => ?_)
  split
  next =>
    exact .take consumes_bump fun _ => .bind ((signature_consumes measure).mono (by omega)) fun _ =>
      .bind ((optionalBlock_proceeds measure).mono (by omega)) fun _ => .idle
  next =>
    refine .bind ((parameters_consumes measure).mono (by omega)) fun _ => .look (proceeds_peekKind 0) fun kind => ?_
    split
    next => exact .look (proceeds_peekOperator 1) fun _ => .bind .idle (functionFrom_proceeds measure start)
    next => exact .bind .idle (functionFrom_proceeds measure start)
  next => exact .step (advances_rejectNext _)

private theorem statementKind_proceeds (context : Context) (token : Token) :
    Proceeds (bound + 14) (statementKind readers context token) (statementKind others context token) := by
  have simple : Proceeds (bound + 13) (do return (← simpleStatement readers .free .statement).kind)
      (do return (← simpleStatement others .free .statement).kind) :=
    .bind ((simpleStatement_proceeds measure .free .statement).mono (by omega)) fun _ => .idle
  have called : Proceeds (bound + 13) (discard (readers.expression .free)) (discard (others.expression .free)) :=
    (measure.expression .free).discard.proceeds.mono (by omega)
  refine .call ?_
  generalize token.kind = kind
  split
  next => exact (constDeclaration_proceeds measure).mono (by omega)
  next => exact (varDeclaration_proceeds measure).mono (by omega)
  next => exact (typeDeclaration_proceeds measure).mono (by omega)
  next =>
    split
    next => exact importDeclaration_proceeds.mono (by omega)
    next => exact .step (advances_unexpected _ _)
  next =>
    split
    next => exact functionStatement_proceeds measure token.span
    next => exact simple
  next => exact .take consumes_bump fun _ => .bind called fun _ => .idle
  next => exact .take consumes_bump fun _ => .bind called fun _ => .idle
  next =>
    refine .take consumes_bump fun _ => .look (proceeds_peekKind 0) fun kind => ?_
    split
    next => exact .idle
    next => exact .idle
    next => exact .idle
    next => exact .bind ((expressionList_consumes measure .free).discard.mono (by omega)) fun _ => .idle
  next =>
    refine .take consumes_bump fun _ => .look (proceeds_peekKind 0) fun kind => ?_
    split
    next => exact .take consumes_bump fun _ => .idle
    next => exact .idle
  next =>
    refine .take consumes_bump fun _ => .look (proceeds_peekKind 0) fun kind => ?_
    split
    next => exact .take consumes_bump fun _ => .idle
    next => exact .idle
  next => exact .take consumes_bump fun _ => .take (consumes_expect _ _) fun _ => .idle
  next => exact .take consumes_bump fun _ => .idle
  next => exact .bind ((ifBody_proceeds measure).mono (by omega)) fun _ => .idle
  next => exact (forStatement_proceeds measure).mono (by omega)
  next => exact (switchStatement_proceeds measure).mono (by omega)
  next => exact (selectStatement_proceeds measure).mono (by omega)
  next => exact .bind ((block_consumes measure).mono (by omega)) fun _ => .idle
  next => exact simple

theorem statementBody_proceeds (context : Context) :
    Proceeds (bound + 15) (statementBody readers context) (statementBody others context) := by
  refine .call (.look (proceeds_peek 0) fun found => ?_)
  cases found with
  | none => exact .step (advances_endOfInput _)
  | some token => exact .bind (statementKind_proceeds measure context token) fun _ => .look (proceeds_spanFrom _) fun _ => .idle

end GoPrompt.Metered
