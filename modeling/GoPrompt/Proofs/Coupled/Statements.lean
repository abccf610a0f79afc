import GoPrompt.Proofs.Coupled.Expressions

/-! Declarations, simple statements, control statements and with them statements of all kinds are read alike by two
coupled runs, and so is a whole text, from the first token to the end. -/

namespace GoPrompt.Grammar

open Parse Coupling

section

variable {C : Coupling} (lawful : C.Lawful) {first second : Deeper} (deep : C.Deep first second) {number : Nat}

section
include lawful

private theorem group_steady {item other : Parse Unit} (items : C.Steady item other) :
    C.Steady (group item) (group other) := by
  intro number
  refine (lawful.eatOperator_steady _).bind fun grouped _ same => ?_
  cases same
  split
  next => exact (semicolonList_steady lawful _ items).bind fun _ _ _ => lawful.expectOperator_steady _ _
  next => exact items number

private theorem declaration_steady (keyword : Keyword) (kind : StatementKind) {item other : Parse Unit}
    (items : C.Steady item other) :
    C.Steady (do expectKeyword keyword; group item; return kind) (do expectKeyword keyword; group other; return kind) :=
  fun _ => (lawful.expectKeyword_steady _).bind fun _ _ _ => (group_steady lawful items).bind fun _ _ _ =>
    .pureAfter (Alike.refl kind) (Nat.le_refl _)

private theorem importItem_steady : C.Steady importItem importItem := by
  intro number
  have path : C.Coupled (C.after number)
      (do if (← peekKind 0) = some (.literal .string) then bump else rejectNext ["import path"])
      (do if (← peekKind 0) = some (.literal .string) then bump else rejectNext ["import path"])
      (fun _ _ => C.after number) := lawful.string_bind (lawful.rejectNext_after _)
  refine lawful.kind_bind (.of (fun _ _ => rfl) fun _ => rfl) fun kind => ?_
  split
  next => exact lawful.passKind_bind (by simp) path
  next => exact lawful.passKind_bind (by simp) path
  next => exact lawful.forget path

private theorem loneExpression_coupled {one other : ExpressionList} (same : Alike.alike one other) :
    C.Steady (loneExpression one) (loneExpression other) := by
  intro number
  unfold loneExpression
  rw [show other.count = one.count from Eq.symm same.1]
  split
  next => exact .pureAfter (by rw [show one.last.shape = other.last.shape from same.2.2]; rfl) (Nat.le_refl _)
  next => exact lawful.rejectNext_after _

end

section
include lawful deep

private theorem optionalValues_steady : C.Steady (optionalValues first) (optionalValues second) := fun _ =>
  lawful.eatOperator_bind ((expressionList_steady lawful deep .free).discard.reaching (Nat.le_succ _))
    (.pureAfter rfl (Nat.le_refl _))

private theorem constItem_steady : C.Steady (constItem first) (constItem second) := by
  intro number
  have values := optionalValues_steady lawful deep number
  refine (nameList_steady lawful).bind fun _ _ _ => lawful.atOperator_bind (lawful.forget values) ?_
  refine atType_bind lawful fun starts => ?_
  cases starts with
  | true => exact deep.type.discard.bind fun _ _ _ => values
  | false => exact values

private theorem varItem_steady : C.Steady (varItem first) (varItem second) := fun _ =>
  (nameList_steady lawful).bind fun _ _ _ =>
    lawful.eatOperator_bind ((expressionList_steady lawful deep .free).discard.reaching (Nat.le_succ _))
      (deep.type.discard.bind fun _ _ _ => optionalValues_steady lawful deep _)

private theorem typeItem_steady : C.Steady (typeItem first) (typeItem second) := fun _ =>
  lawful.expectName_steady.bind fun _ _ _ => (lawful.eatOperator_steady _).discard.bind fun _ _ _ =>
    deep.type.discard _

private theorem labeledStatement_steady : C.Steady (labeledStatement first) (labeledStatement second) := by
  intro number
  refine lawful.kind_bind (.of (fun _ _ => rfl) fun _ => rfl) fun kind => ?_
  split
  next => exact lawful.endOfInput_kind _
  next => exact lawful.forget (.pureAfter rfl (Nat.le_refl _))
  next => exact lawful.forget (.pureAfter rfl (Nat.le_refl _))
  next => exact lawful.forget ((deep.statement .block).discard number)

private theorem rangeRest_coupled (place : Place) : C.Coupled (C.afterKind number (some (.keyword .range)))
    (rangeClause first place) (rangeClause second place) (fun _ _ => C.after number) :=
  lawful.passKind_bind (by simp) ((deep.expression place).discard.bind fun _ _ _ => .pureAfter rfl (Nat.le_refl _))

private theorem mayRange_bind (place : Place) (mayRange : Bool) {one other : Parse SimpleStatement}
    (elsewhere : C.Coupled (C.after number) one other (fun _ _ => C.after number)) :
    C.Coupled (C.after number)
      (do
        let isRange ← if mayRange then atKeyword .range else pure false
        if isRange then rangeClause first place else one)
      (do
        let isRange ← if mayRange then atKeyword .range else pure false
        if isRange then rangeClause second place else other)
      (fun _ _ => C.after number) := by
  cases mayRange with
  | true => exact lawful.atKeyword_bind (rangeRest_coupled lawful deep place) elsewhere
  | false => exact elsewhere

private theorem rightSide_steady (place : Place) (mayRange : Bool) (kind : StatementKind) :
    C.Steady (rightSide first place mayRange kind) (rightSide second place mayRange kind) := by
  intro number
  refine mayRange_bind lawful deep place mayRange ?_
  refine (expressionList_steady lawful deep place).bind fun one other same => ?_
  exact .pureAfter (by rw [show one.last.shape = other.last.shape from same.2.2]; rfl) (Nat.le_refl _)

private theorem simpleFrom_coupled (place : Place) (mode : SimpleMode) {one other : ExpressionList}
    (same : Alike.alike one other) :
    C.Steady (simpleFrom first place mode one) (simpleFrom second place mode other) := by
  intro number
  have lone := loneExpression_coupled lawful same number
  refine lawful.operator_bind lone fun operator => ?_
  rw [show other.count = one.count from Eq.symm same.1, show other.first.shape = one.first.shape from Eq.symm same.2.1]
  split
  next => contradiction
  next found =>
    cases found
    exact lawful.passKind_bind (by simp) (rightSide_steady lawful deep _ _ _ number)
  next found =>
    cases found
    split
    next => exact lawful.passKind_bind (by simp) (rightSide_steady lawful deep _ _ _ number)
    next =>
      split
      next =>
        refine lawful.passKind_bind (by simp) ((labeledStatement_steady lawful deep).bind fun _ _ _ => ?_)
        exact .pureAfter rfl (Nat.le_refl _)
      next =>
        split
        next =>
          refine lawful.passKind_bind (by simp) ((deep.expression place).bind fun one other same => ?_)
          exact .pureAfter (by rw [show one.shape = other.shape from same]; rfl) (Nat.le_refl _)
        next =>
          split
          next => exact lawful.passKind_bind (by simp) (.pureAfter rfl (Nat.le_refl _))
          next => exact lawful.forget lone

private theorem simpleStatement_steady (place : Place) (mode : SimpleMode) :
    C.Steady (simpleStatement first place mode) (simpleStatement second place mode) := by
  intro number
  have list : C.Coupled (C.after number) (do simpleFrom first place mode (← expressionList first place))
      (do simpleFrom second place mode (← expressionList second place)) (fun _ _ => C.after number) :=
    (expressionList_steady lawful deep place).bind fun _ _ same => simpleFrom_coupled lawful deep place mode same _
  have ranged := mayRange_bind lawful deep place (mode = .forClause) list
  unfold simpleStatement
  simpa using ranged

end

end

section

variable {C : Coupling} (lawful : C.Lawful) {first second : Deeper} (deep : C.Deep first second) {number : Nat}
  {origin : SemicolonKind}

section
include lawful deep

private theorem someSimple_steady : C.Steady (some <$> simpleStatement first .header .clause)
    (some <$> simpleStatement second .header .clause) := fun _ =>
  (simpleStatement_steady lawful deep .header .clause _).map (fun _ _ same => congrArg some same)
    fun _ _ _ _ holds => holds

theorem ifHeader_steady : C.Steady (ifHeader first) (ifHeader second) := by
  intro number
  have simple := someSimple_steady lawful deep number
  have checked : ∀ condition : Option SimpleStatement, C.Coupled (C.after number)
      (do if condition.any (·.kind = .expression) then return else rejectNext ["condition expression"])
      (do if condition.any (·.kind = .expression) then return else rejectNext ["condition expression"])
      (fun (_ _ : Unit) => C.after number) := by
    intro condition
    split
    next => exact .pureAfter rfl (Nat.le_refl _)
    next => exact lawful.rejectNext_after _
  have rejected : C.Coupled (C.after number) (rejectNext ["condition"]) (rejectNext ["condition"])
      (fun (_ _ : Option SimpleStatement) => C.after number) := lawful.rejectNext_after _
  have behind : ∀ initial : Option SimpleStatement, C.Coupled (C.after number)
      (do
        let condition ←
          if ← atSemicolon then do
            bump
            if ← atOperator .leftBrace then rejectNext ["condition"]
            else some <$> simpleStatement first .header .clause
          else pure initial
        if condition.any (·.kind = .expression) then return else rejectNext ["condition expression"])
      (do
        let condition ←
          if ← atSemicolon then do
            bump
            if ← atOperator .leftBrace then rejectNext ["condition"]
            else some <$> simpleStatement second .header .clause
          else pure initial
        if condition.any (·.kind = .expression) then return else rejectNext ["condition expression"])
      (fun (_ _ : Unit) => C.after number) := by
    intro initial
    refine lawful.atSemicolon_bind (fun _ => lawful.passKind_bind (by simp) ?_) (checked initial)
    refine lawful.atOperator_bind (lawful.forget (rejected.bind fun condition _ same => ?_)) ?_
    · cases same
      exact checked condition
    · refine simple.bind fun condition _ same => ?_
      cases same
      exact checked condition
  refine lawful.atOperator_bind (lawful.forget (lawful.rejectNext_after _)) ?_
  refine lawful.atSemicolon_bind (fun _ => lawful.forget (behind none)) (simple.bind fun initial _ same => ?_)
  cases same
  exact behind initial

private theorem ifBody_steady : C.Steady (ifBody first) (ifBody second) := by
  intro number
  have blocks := block_steady lawful deep
  refine (lawful.expectKeyword_steady _).bind fun _ _ _ => (ifHeader_steady lawful deep).bind fun _ _ _ =>
    blocks.bind fun _ _ _ => lawful.atKeyword_bind ?_ (.pureAfter rfl (Nat.le_refl _))
  refine lawful.passKind_bind (by simp) (lawful.kind_bind (.of (fun _ _ => rfl) fun _ => rfl) fun kind => ?_)
  split
  next => exact lawful.forget (deep.ifStatement _)
  next => exact lawful.forget (blocks _)
  next => exact lawful.forget (lawful.rejectNext_after _)

private theorem forClauses_coupled :
    C.Coupled (C.afterKind number (some (.semicolon origin))) (forClauses first) (forClauses second)
    (fun _ _ => C.after number) := by
  have rest : C.Coupled (C.after number)
      (do
        expectSemicolon [";"]
        if !(← atOperator .leftBrace) then discard (simpleStatement first .header .clause))
      (do
        expectSemicolon [";"]
        if !(← atOperator .leftBrace) then discard (simpleStatement second .header .clause))
      (fun _ _ => C.after number) :=
    (lawful.expectSemicolon_steady _).bind fun _ _ _ =>
      lawful.atOperator_bind (lawful.forget (.pureAfter rfl (Nat.le_refl _)))
      ((simpleStatement_steady lawful deep .header .clause).discard _)
  refine lawful.passKind_bind (by simp) (lawful.atSemicolon_bind (fun _ => lawful.forget rest) ?_)
  refine (simpleStatement_steady lawful deep .header .clause).bind fun condition _ same => ?_
  cases same
  split
  next => exact (lawful.rejectNext_after _).bind fun _ _ _ => rest
  next => exact rest

theorem forHeader_steady : C.Steady (forHeader first) (forHeader second) := by
  intro number
  have clauses : ∀ origin, C.Coupled (C.afterKind number (some (.semicolon origin))) (forClauses first)
      (forClauses second) (fun _ _ => C.after number) := fun _ => forClauses_coupled lawful deep
  refine lawful.atOperator_bind (lawful.forget (.pureAfter rfl (Nat.le_refl _))) (lawful.atSemicolon_bind clauses ?_)
  refine (simpleStatement_steady lawful deep .header .forClause).bind fun initial _ same => ?_
  cases same
  split
  next => exact .pureAfter rfl (Nat.le_refl _)
  next =>
    refine lawful.atSemicolon_bind clauses ?_
    simp only [Bool.false_eq_true, ↓reduceIte]
    split
    next => exact .pureAfter rfl (Nat.le_refl _)
    next => exact lawful.rejectNext_after _

private theorem forStatement_steady : C.Steady (forStatement first) (forStatement second) := fun _ =>
  (lawful.expectKeyword_steady _).bind fun _ _ _ => (forHeader_steady lawful deep).bind fun _ _ _ =>
    (block_steady lawful deep).bind fun _ _ _ => .pureAfter rfl (Nat.le_refl _)

private theorem switchTag_steady : C.Steady (switchTag first) (switchTag second) := by
  intro number
  have simple := someSimple_steady lawful deep number
  have behind : ∀ initial : Option SimpleStatement, C.Coupled (C.after number)
      (do
        if ← atSemicolon then
          bump
          if ← atOperator .leftBrace then return none
          else some <$> simpleStatement first .header .clause
        else return initial)
      (do
        if ← atSemicolon then
          bump
          if ← atOperator .leftBrace then return none
          else some <$> simpleStatement second .header .clause
        else return initial)
      (fun _ _ => C.after number) := fun initial =>
    lawful.atSemicolon_bind (fun _ => lawful.passKind_bind (by simp)
      (lawful.atOperator_bind (lawful.forget (.pureAfter rfl (Nat.le_refl _))) simple)) (.pureAfter rfl (Nat.le_refl _))
  refine lawful.atSemicolon_bind (fun _ => lawful.forget (behind none)) (simple.bind fun initial _ same => ?_)
  cases same
  exact behind initial

theorem switchHeader_steady : C.Steady (switchHeader first) (switchHeader second) := by
  intro number
  refine lawful.atOperator_bind (lawful.forget (.pureAfter rfl (Nat.le_refl _))) ?_
  refine (switchTag_steady lawful deep).bind fun tag _ same => ?_
  cases same
  cases tag with
  | none => exact .pureAfter rfl (Nat.le_refl _)
  | some tag =>
    dsimp only
    split
    next => exact .pureAfter rfl (Nat.le_refl _)
    next =>
      split
      next => exact .pureAfter rfl (Nat.le_refl _)
      next => exact lawful.rejectNext_after _

private theorem clauses_steady {cases other : Parse Unit} (same : C.Steady cases other) :
    C.Steady (clauses first cases) (clauses second other) := by
  have body : ∀ number, C.Coupled (C.after (number + 1))
      (do expectOperator .colon; statementList first; return false)
      (do expectOperator .colon; statementList second; return false)
      (fun isDone _ => if isDone then C.after number else C.after (number + 1)) := fun _ =>
    (lawful.expectOperator_steady _).bind fun _ _ _ => (statementList_steady lawful deep).bind fun _ _ _ =>
      .pure rfl fun _ _ holds => holds
  refine lawful.repeatUntil_steady fun number => lawful.kind_bind (.of (fun _ _ => rfl) fun _ => rfl) fun kind => ?_
  split
  next => exact lawful.forget (.pure rfl fun _ _ holds => holds)
  next => exact lawful.takeKind_bind (by simp) (same.bind fun _ _ _ => body number)
  next => exact lawful.takeKind_bind (by simp) (body number)
  next => exact lawful.forget (lawful.rejectNext_after _)

private theorem switchStatement_steady : C.Steady (switchStatement first) (switchStatement second) := by
  intro number
  refine (lawful.expectKeyword_steady _).bind fun _ _ _ =>
    (switchHeader_steady lawful deep).bind fun onType _ same => ?_
  cases same
  have cases : C.Steady (if onType then typeList first else discard (expressionList first .free))
      (if onType then typeList second else discard (expressionList second .free)) := by
    cases onType with
    | true => exact typeList_steady lawful deep
    | false => exact (expressionList_steady lawful deep .free).discard
  refine (lawful.expectOperator_steady _).bind fun _ _ _ => (clauses_steady lawful deep cases).bind fun _ _ _ => ?_
  exact (lawful.expectOperator_steady _).bind fun _ _ _ => .pureAfter (Alike.refl _) (Nat.le_refl _)

private theorem communication_steady : C.Steady (communication first) (communication second) := by
  intro number
  refine (simpleStatement_steady lawful deep .free .clause).bind fun statement _ same => ?_
  cases same
  split
  next => exact .pureAfter rfl (Nat.le_refl _)
  next => exact lawful.rejectNext_after _

private theorem selectStatement_steady : C.Steady (selectStatement first) (selectStatement second) := fun _ =>
  (lawful.expectKeyword_steady _).bind fun _ _ _ => (lawful.expectOperator_steady _).bind fun _ _ _ =>
    (clauses_steady lawful deep (communication_steady lawful deep)).bind fun _ _ _ =>
      (lawful.expectOperator_steady _).bind fun _ _ _ => .pureAfter rfl (Nat.le_refl _)

private theorem functionTail_coupled (one other : Span) : C.Coupled (C.after number)
    (do
      optionalBlock first
      let operand ← expressionFrom first .free ⟨.other, ← spanFrom one⟩
      let left ← expressionListFrom first .free operand
      return (← simpleFrom first .free .statement left).kind)
    (do
      optionalBlock second
      let operand ← expressionFrom second .free ⟨.other, ← spanFrom other⟩
      let left ← expressionListFrom second .free operand
      return (← simpleFrom second .free .statement left).kind)
    (fun (_ _ : StatementKind) => C.after number) := by
  refine (optionalBlock_steady lawful deep).bind fun _ _ _ => (Lawful.spanFrom_coupled _ _).bind fun _ _ _ => ?_
  refine (expressionFrom_coupled lawful deep .free (by rfl)).bind fun _ _ same => ?_
  refine (expressionListFrom_coupled lawful deep .free same).bind fun _ _ same => ?_
  refine (simpleFrom_coupled lawful deep .free .statement same).bind fun statement _ same => ?_
  exact .pureAfter (congrArg SimpleStatement.kind same) (Nat.le_refl _)

private theorem functionStatement_coupled (one other : Span) :
    C.Steady (functionStatement first one) (functionStatement second other) := by
  intro number
  have body : ∀ kind : StatementKind, C.Coupled (C.after number)
      (do signature first; optionalBlock first; return kind) (do signature second; optionalBlock second; return kind)
      (fun _ _ => C.after number) := fun kind =>
    (signature_steady lawful deep).bind fun _ _ _ => (optionalBlock_steady lawful deep).bind fun _ _ _ =>
      Coupled.pureAfter (Alike.refl kind) (Nat.le_refl number)
  refine (lawful.expectKeyword_steady _).bind fun _ _ _ =>
    lawful.kind_bind (.of (fun _ _ => rfl) fun _ => rfl) fun kind => ?_
  split
  next => exact lawful.passKind_bind (by simp) (body _)
  next =>
    refine lawful.forget ((parameters_steady lawful deep).bind fun _ _ _ =>
      lawful.kind_bind (.of (fun _ _ => rfl) fun _ => rfl) fun kind => ?_)
    split
    next isName =>
      subst isName
      refine lawful.operatorBeyond_bind fun following => ?_
      simp only [pure_bind]
      split
      next => exact lawful.passName_bind (body _)
      next => exact (result_name lawful deep following).bind fun _ _ _ => functionTail_coupled lawful deep one other
    next => exact lawful.forget ((result_steady lawful deep).bind fun _ _ _ =>
      functionTail_coupled lawful deep one other)
  next => exact lawful.forget (lawful.rejectNext_after _)

private theorem statementKind_coupled (context : Context) {one other : Token} (same : one.kind.Resembles other.kind) :
    C.Coupled (C.afterSeen number (some one) (some other)) (statementKind first context one)
      (statementKind second context other) (fun _ _ => C.after number) := by
  have expression : ∀ kind : StatementKind, C.Coupled (C.after number)
      (do discard (first.expression .free); return kind) (do discard (second.expression .free); return kind)
      (fun _ _ => C.after number) := fun kind =>
    (deep.expression .free).discard.bind fun _ _ _ => .pureAfter (Alike.refl kind) (Nat.le_refl _)
  have simple : C.Coupled (C.after number) (do return (← simpleStatement first .free .statement).kind)
      (do return (← simpleStatement second .free .statement).kind) (fun _ _ => C.after number) :=
    (simpleStatement_steady lawful deep .free .statement).bind fun _ _ same =>
      .pureAfter (congrArg SimpleStatement.kind same) (Nat.le_refl _)
  have label : ∀ kind : StatementKind, C.Coupled (C.after number)
      (do
        if (← peekKind 0) = some .identifier then bump
        return kind)
      (do
        if (← peekKind 0) = some .identifier then bump
        return kind) (fun _ _ => C.after number) := by
    intro kind
    refine lawful.kind_bind (.of (fun _ _ => rfl) fun _ => rfl) fun found => ?_
    split
    next isName =>
      subst isName
      exact lawful.passKind_bind (by simp) (.pureAfter (Alike.refl kind) (Nat.le_refl _))
    next => exact lawful.forget (.pureAfter (Alike.refl kind) (Nat.le_refl _))
  unfold statementKind
  rcases same.cases with kinds | ⟨_, _, isOne, isOther⟩ | ⟨_, isOne, isOther⟩
  · simp only [← kinds]
    split
    next => exact lawful.forgetSeen (declaration_steady lawful _ _ (constItem_steady lawful deep) number)
    next => exact lawful.forgetSeen (declaration_steady lawful _ _ (varItem_steady lawful deep) number)
    next => exact lawful.forgetSeen (declaration_steady lawful _ _ (typeItem_steady lawful deep) number)
    next =>
      split
      next => exact lawful.forgetSeen (declaration_steady lawful _ _ (importItem_steady lawful) number)
      next => exact lawful.unexpected_seen same _
    next =>
      split
      next => exact lawful.forgetSeen (functionStatement_coupled lawful deep _ _ number)
      next => exact lawful.forgetSeen simple
    next found => exact lawful.passFound_bind kinds found (by simp) (expression .go)
    next found => exact lawful.passFound_bind kinds found (by simp) (expression .defer)
    next found =>
      refine lawful.passFound_bind kinds found (by simp)
        (lawful.kind_bind (.of (fun _ _ => rfl) fun _ => rfl) fun kind => ?_)
      split
      next => exact lawful.forget (.pureAfter rfl (Nat.le_refl _))
      next => exact lawful.forget (.pureAfter rfl (Nat.le_refl _))
      next => exact lawful.forget (.pureAfter rfl (Nat.le_refl _))
      next =>
        refine lawful.forget ((expressionList_steady lawful deep .free).discard.bind fun _ _ _ => ?_)
        exact .pureAfter rfl (Nat.le_refl _)
    next found => exact lawful.passFound_bind kinds found (by simp) (label .break)
    next found => exact lawful.passFound_bind kinds found (by simp) (label .continue)
    next found =>
      refine lawful.passFound_bind kinds found (by simp) (lawful.expectName_steady.bind fun _ _ _ => ?_)
      exact .pureAfter rfl (Nat.le_refl _)
    next found => exact lawful.passFound_bind kinds found (by simp) (.pureAfter rfl (Nat.le_refl _))
    next => exact lawful.forgetSeen ((ifBody_steady lawful deep).bind fun _ _ _ => .pureAfter rfl (Nat.le_refl _))
    next => exact lawful.forgetSeen (forStatement_steady lawful deep number)
    next => exact lawful.forgetSeen (switchStatement_steady lawful deep number)
    next => exact lawful.forgetSeen (selectStatement_steady lawful deep number)
    next => exact lawful.forgetSeen ((block_steady lawful deep).bind fun _ _ _ => .pureAfter rfl (Nat.le_refl _))
    next => exact lawful.forgetSeen simple
  · simp only [isOne, isOther]
    exact lawful.forgetSeen simple
  · simp only [isOne, isOther]
    exact lawful.forgetSeen simple

private theorem statementBody_steady (context : Context) :
    C.Steady (statementBody first context) (statementBody second context) := by
  intro number
  refine lawful.look_bind (lawful.endOfInput_seen _) fun one other same => ?_
  refine (statementKind_coupled lawful deep context same).bind fun kind _ alike => ?_
  cases alike
  exact (Lawful.spanFrom_coupled _ _).bind fun _ _ _ => Coupled.pure rfl fun _ _ holds => holds

end

section
include lawful

private theorem none_deep (limit : Nat) : C.Deep (Deeper.none limit) (Deeper.none limit) := by
  have stop : ∀ {α : Type} [Alike α], C.Steady (beyondLimit limit : Parse α) (beyondLimit limit) := by
    intro α _ number
    exact Lawful.of_settled fun reached _ => (lawful.stop reached limit).weaken (fun _ _ => lawful.settled_marks)
      fun _ _ _ _ _ never => never.elim
  refine ⟨fun _ => stop, fun _ => stop, stop, fun number following => ?_, stop, fun _ => stop, stop⟩
  exact Lawful.of_window fun reached _ _ _ _ _ _ _ _ _ =>
    (lawful.stop reached limit).weaken (fun _ _ => lawful.window_marks)
    fun _ _ _ _ _ never => never.elim

private theorem levels_succ_deep {limit limit' left left' : Nat}
    (deep : C.Deep (levels limit left) (levels limit' left')) :
    C.Deep (levels limit (left + 1)) (levels limit' (left' + 1)) where
  expression place := binary_steady lawful deep place 1
  unary := unaryBody_steady lawful deep
  type := typeBody_steady lawful deep
  typeFromName _ following := typeBody_name lawful deep following
  literalValue := literalValue_steady lawful deep
  statement := statementBody_steady lawful deep
  ifStatement := ifBody_steady lawful deep

theorem levels_deep (limit : Nat) : ∀ left, C.Deep (levels limit left) (levels limit left)
  | 0 => none_deep lawful limit
  | left + 1 => levels_succ_deep lawful (levels_deep limit left)

/-- Readers couple with readers that have more levels, where a run beyond the limit is lost and nothing is said of
the other one. -/
theorem levels_deep_of_le (free : C.free) {limit : Nat} (limit' : Nat)
    (lost : ∀ {α : Type} (state : ParseState), C.Lost ((beyondLimit limit : Parse α) state)) :
    ∀ {left left' : Nat}, left ≤ left' → C.Deep (levels limit left) (levels limit' left')
  | 0, left', _ => by
    have stop : ∀ {α : Type} [Alike α] (pre : ParseState → ParseState → Prop) (other : Parse α)
        (post : α → α → ParseState → ParseState → Prop), C.Coupled pre (beyondLimit limit) other post := by
      intro α _ pre other post
      exact ⟨fun state _ => lost state, fun before _ _ => .inl ((lost before).alone free)⟩
    exact ⟨fun _ _ => stop _ _ _, fun _ _ => stop _ _ _, fun _ => stop _ _ _, fun _ _ =>
      stop _ _ _, fun _ => stop _ _ _, fun _ _ => stop _ _ _, fun _ => stop _ _ _⟩
  | left + 1, left' + 1, within =>
    levels_succ_deep lawful (levels_deep_of_le free limit' lost (Nat.le_of_succ_le_succ within))

end

end

/-- A text that is one statement, read by the given reader. -/
def textOf (statement : Parse Statement) : Parse Statement := do
  match ← peek 0 with
  | none => endOfInput ["statement"]
  | some first =>
    if isSemicolon first.kind then unexpected first ["statement"]
    else
      let statement ← statement
      if ← atSemicolon then bump
      match ← peek 0 with
      | none => return statement
      | some token => unexpected token ["end of statement"]

theorem peek_depth {index : Nat} {state reached : ParseState} {found : Option Token}
    (ran : peek index state = .ok found reached) : reached.depth = state.depth := by
  unfold peek onStream at ran
  split at ran
  next =>
    cases ran
    rfl
  next => cases ran

private theorem wholeText_eq {limit : Nat} {state : ParseState} (shallow : state.depth = 0) :
    wholeText limit state = textOf ((levels limit limit).statement .topLevel) state := by
  cases looked : peek 0 state with
  | error failure reached =>
    unfold wholeText textOf
    rw [bind_error looked, bind_error looked]
  | ok found reached =>
    unfold wholeText textOf
    rw [bind_ok looked, bind_ok looked]
    cases found with
    | none => rfl
    | some token =>
      dsimp only
      split
      next => rfl
      next =>
        have statement : topLevelStatement limit reached = (levels limit limit).statement .topLevel reached := by
          simp only [topLevelStatement, peek_depth looked, shallow, Nat.sub_zero]
        exact bind_congr_left statement

section

variable {C : Coupling} (lawful : C.Lawful)
include lawful

theorem textOf_coupled {first second : Parse Statement} (statement : C.Steady first second) (number : Nat) :
    C.Coupled (C.after number) (textOf first) (textOf second) (fun _ _ => C.afterSeen number none none) := by
  have ending : ∀ one other : Statement, Alike.alike one other → C.Coupled (C.after number)
      (do
        match ← peek 0 with
        | none => return one
        | some token => unexpected token ["end of statement"])
      (do
        match ← peek 0 with
        | none => return other
        | some token => unexpected token ["end of statement"])
      (fun _ _ => C.afterSeen number none none) := fun _ _ alike =>
    lawful.look_bind (.pure alike fun _ _ holds => holds) fun _ _ same => lawful.unexpected_seen same _
  refine lawful.look_bind (lawful.endOfInput_seen _) fun one other same => ?_
  simp only [blind_isSemicolon _ _ same]
  split
  next => exact lawful.unexpected_seen same _
  next =>
    refine lawful.forgetSeen (statement.bind fun one other alike => ?_)
    exact lawful.atSemicolon_bind
      (fun _ => lawful.passKind_bind (by simp) (ending one other alike)) (ending one other alike)

theorem topLevelStatement_outcome (limit : Nat) {number : Nat} {before after : ParseState}
    (start : C.settled number before after) (shallow : before.depth = 0) (shallow' : after.depth = 0) :
    (C.Lost (topLevelStatement limit before) ∧ C.Strays (topLevelStatement limit after)) ∨
      C.Matches (fun _ _ => C.after number) (topLevelStatement limit before) (topLevelStatement limit after) := by
  unfold topLevelStatement
  rw [shallow, shallow']
  exact ((levels_deep lawful limit (limit - 0)).statement .topLevel number).outcome before after
    ⟨number, Nat.le_refl _, start⟩

theorem wholeText_outcome_of_deep {limit limit' : Nat} (deep : C.Deep (levels limit limit) (levels limit' limit'))
    {before after : ParseState} (start : C.settled 0 before after) (shallow : before.depth = 0)
    (shallow' : after.depth = 0) :
    (C.Lost (wholeText limit before) ∧ C.Strays (wholeText limit' after)) ∨
      C.Matches (fun _ _ => C.afterSeen 0 none none) (wholeText limit before) (wholeText limit' after) := by
  rw [wholeText_eq shallow, wholeText_eq shallow']
  exact (textOf_coupled lawful (deep.statement .topLevel) 0).outcome before after ⟨0, Nat.le_refl _, start⟩

theorem wholeText_outcome (limit : Nat) {before after : ParseState} (start : C.settled 0 before after)
    (shallow : before.depth = 0) (shallow' : after.depth = 0) :
    (C.Lost (wholeText limit before) ∧ C.Strays (wholeText limit after)) ∨
      C.Matches (fun _ _ => C.afterSeen 0 none none) (wholeText limit before) (wholeText limit after) :=
  wholeText_outcome_of_deep lawful (levels_deep lawful limit limit) start shallow shallow'

theorem wholeText_keeps (limit : Nat) {state : ParseState} (shallow : state.depth = 0) (gone : C.gone state) :
    C.Lost (wholeText limit state) := by
  rw [wholeText_eq shallow]
  exact (textOf_coupled lawful ((levels_deep lawful limit limit).statement .topLevel) 0).keeps state gone

end

end GoPrompt.Grammar
