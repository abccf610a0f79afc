import GoPrompt.Proofs.Completion.Expressions

/-! Simple statements can be finished wherever the text ends. Where a clause of a control statement is not an
expression, some of its kinds is decisive. -/

namespace GoPrompt

open Parse Grammar

/-- What is known of a simple statement where the kinds run out. -/
def EndsClause (mode : SimpleMode) (decisive : Prop) (statement : SimpleStatement) : Prop :=
  mode = .statement ∨ statement.kind = .expression ∨ (mode = .forClause ∧ statement.isRange = true) ∨ decisive

theorem endsPiece_of_endsSimple {place : Place} {mode : SimpleMode} {next : Option TokenKind}
    (ends : endsSimple place mode next = true) : endsPiece place next = true := by
  cases next with
  | none => rfl
  | some kind =>
    cases kind with
    | operator operator => revert ends; cases place <;> cases mode <;> cases operator <;> decide
    | semicolon => rfl
    | identifier | keyword | literal | illegal => cases ends

theorem simpleName_passes {ι : Type} (place : Place) (mode : SimpleMode) :
    Passes (fun deeper (_ : ι) => simpleStatement deeper place mode)
    [.identifier] [] (endsSimple place mode) { kind := .expression, last := some .identifier } := by
  refine ⟨2, fun supply left _ enough rest ends => ?_⟩
  apply simpleStatement_runs (by simp)
  apply Runs.bind
  apply (name_reads left enough).run (endsExpression_of_endsSimple ends)
  intro operand isName
  apply expressionListFrom_single (noComma_of_endsSimple ends)
  apply simpleFrom_lone rfl ends
  rw [isName]
  exact ⟨rfl, rfl⟩

variable {ι : Type} {bound : Nat} (known : Known bound)
include known

private theorem rangeClause_prospect (place : Place) {kinds : List TokenKind} (inside : kinds.length < bound) :
    Prospect [] (fun deeper (_ : ι) => rangeClause deeper place)
      (fun _ statement => statement.isRange = true) (endsPiece place) 0
      (.keyword .range :: kinds) := by
  have passes : Passes (fun _ (_ : Following ι ()) => return { kind := .for, isRange := true }) [] [] (endsPiece place)
      ({ kind := .for, isRange := true } : SimpleStatement) := ⟨0, fun _ _ _ _ _ _ => Runs.pure ⟨rfl, rfl⟩⟩
  exact .bump (((known.expression _ place).discard.prospect kinds inside).bind (fun _ _ _ _ _ =>
    .answer (fun _ => rfl) fun _ => rfl)
    (fun _ _ => .finishes _ rfl [] (List.nil_subset _) (Nat.le_refl 0) (fun _ => id) passes) (by decide))

private theorem rightSide_completable (place : Place) (mayRange : Bool) (kind : StatementKind) :
    Completable (fun deeper (_ : ι) => rightSide deeper place mayRange kind) (endsPiece place) 3
      (bound + 1) [.identifier] := by
  have listed : ∀ ι : Type, Completable (fun deeper (_ : ι) => do
      let values ← expressionList deeper place
      return { kind := kind, last := some values.last.shape } : Programs ι SimpleStatement)
        (endsPiece place) 3 (bound + 1)
      [.identifier] := by
    intro ι
    refine (expressionList_completable known place).answering (fun values =>
      { kind := kind, last := some values.last.shape })
      fun values found _ same => ?_
    rw [same.2.2]
    exact Alike.refl _
  cases mayRange with
  | false => exact listed ι
  | true =>
    refine (listed ι).like (.atKeyword_no nofun) (Nat.le_refl _) fun kind kinds inside => ?_
    refine .atKeyword (fun ranges => .ite_pos rfl ?_) fun _ => .ite_neg Bool.false_ne_true
      ((listed ι).on inside (fun _ => id) (Nat.le_refl _))
    rw [ranges]
    exact (rangeClause_prospect known place (Nat.lt_of_succ_lt_succ inside)).weaken (fun _ _ _ => trivial) (fun _ => id)
      (Nat.zero_le _)

private theorem labeledStatement_completable :
    Completable (fun deeper (_ : ι) => labeledStatement deeper) endsStatement 8 bound [.identifier] := by
  have statement : ∀ ι : Type,
    Completable (fun deeper (_ : ι) => discard (deeper.statement .block)) endsStatement 8 bound
      [.identifier] := fun ι => (known.statement ι .block).discard
  refine (statement ι).like .peekKind_cons (Nat.le_refl _) fun kind kinds inside => .peekKind ?_
  have whole := (statement ι).prospect (kind :: kinds) inside
  cases kind with
  | semicolon => exact .pure fun _ => rfl
  | operator operator =>
    cases operator with
    | rightBrace => exact .pure fun _ => rfl
    | _ => exact whole
  | identifier | keyword | literal | illegal => exact whole

private theorem simpleFrom_closed (place : Place) (mode : SimpleMode) {value : ExpressionList}
    {values : ι → ExpressionList} (alike : ∀ index, Alike.alike value (values index)) {decisive : Prop}
    (counted : value.count = 1 ∨ decisive) :
    ∃ result more, EndsClause mode decisive result ∧ more ⊆ finishing ∧ more.length ≤ 2 ∧
      (∀ rest : List TokenKind, endsSimple place mode rest.head? = true → endsPiece place (more ++ rest).head? = true) ∧
      Passes (fun deeper index => simpleFrom deeper place mode (values index)) more []
        (endsSimple place mode) result := by
  by_cases single : value.count = 1
  · refine ⟨{ kind := .expression, last := some value.last.shape }, [], .inr (.inl rfl),
      List.nil_subset _, Nat.zero_le _, fun _ => endsPiece_of_endsSimple, 0, fun supply left index _ rest ends => ?_⟩
    obtain ⟨count, -, last⟩ := alike index
    apply simpleFrom_lone (count ▸ single) ends
    rw [last]
    exact ⟨rfl, rfl⟩
  · obtain ⟨result, level, passes⟩ := (rightSide_completable known (ι := ι) place
      (mode = .forClause && Operator.assign = .assign) .assignment).closes
    refine ⟨result, [.operator .assign, .identifier],
      .inr (.inr (.inr (counted.resolve_left single))), by decide, Nat.le_refl _, fun _ _ => by cases place <;> rfl,
      level, fun supply left index enough rest ends => ?_⟩
    apply Runs.bind
    apply Runs.peekOperator_cons
    apply Runs.ite_pos rfl
    apply Runs.bind
    apply Runs.bump
    exact passes supply left index enough rest (endsPiece_of_endsSimple ends)

/-- Behind expressions, an operator that makes more of the statement than an expression is decisive. -/
private theorem simpleFrom_prospect {place : Place} {mode : SimpleMode} (standing : mode = .statement → place = .free)
    {value : ExpressionList} {values : ι → ExpressionList} (alike : ∀ index, Alike.alike value (values index))
    {decisive : Prop} {kinds : List TokenKind} (inside : kinds.length < bound + 1)
    (counted : kinds = [] → value.count = 1 ∨ decisive) (decides : SomeDecisive kinds → decisive) :
    Prospect [] (fun deeper index => simpleFrom deeper place mode (values index)) (fun _ => EndsClause mode decisive)
      (endsSimple place mode) 2 kinds := by
  cases kinds with
  | nil =>
    obtain ⟨result, more, isEnd, plain, short, -, passes⟩ := simpleFrom_closed known place mode alike (counted rfl)
    exact .nil isEnd plain short passes
  | cons kind kinds =>
    have below := Nat.lt_of_succ_lt_succ inside
    have count : ∀ index, (values index).count = value.count := fun index => (alike index).1.symm
    have first : ∀ index, (values index).first.shape = value.first.shape := fun index => (alike index).2.1.symm
    have last : ∀ index, (values index).last.shape = value.last.shape := fun index => (alike index).2.2.symm
    have lone : Prospect [] (fun _ index => loneExpression (values index)) (fun _ => EndsClause mode decisive)
        (endsSimple place mode) 2 (kind :: kinds) := by
      simp only [loneExpression, count, last]
      by_cases single : value.count = 1
      · exact .ite_pos single (.answer nofun fun _ => rfl)
      · exact .ite_neg single .rejectNext
    have ended : isDecisive kind = true → ∀ (_ : Bool) (statement : SimpleStatement), True →
        EndsClause mode decisive statement :=
      fun isDecisive _ _ _ => .inr (.inr (.inr (decides ⟨kind, List.mem_cons_self, isDecisive⟩)))
    have assigned : ∀ mayRange statementKind, isDecisive kind = true → Prospect [] (fun deeper (_ : ι) =>
        rightSide deeper place mayRange statementKind) (fun _ => EndsClause mode decisive)
          (endsSimple place mode) (share + 2) kinds :=
      fun mayRange statementKind isDecisive =>
        ((rightSide_completable known place mayRange statementKind).prospect kinds (Nat.lt_succ_of_lt below)).weaken
          (ended isDecisive) (fun _ => endsPiece_of_endsSimple) (by decide)
    simp only [simpleFrom, count, first]
    refine .peekOperator ?_
    cases kind with
    | operator operator =>
      have other : Prospect [] (fun deeper index => do
          if operator.isAssignment then
            bump
            rightSide deeper place (mode = .forClause && operator = .assign) .assignment
          else if operator = .colon ∧ mode = .statement ∧ value.count = 1 ∧ value.first.shape = .identifier then
            bump
            labeledStatement deeper
            return { kind := .labeled }
          else if operator = .arrow ∧ value.count = 1 then
            bump
            let sent ← deeper.expression place
            return { kind := .send, last := some sent.shape }
          else if (operator = .inc ∨ operator = .dec) ∧ value.count = 1 then
            bump
            return { kind := .incDec }
          else loneExpression (values index)) (fun _ => EndsClause mode decisive) (endsSimple place mode) 2
          (.operator operator :: kinds) := by
        by_cases assigns : operator.isAssignment = true
        · exact .ite_pos assigns (.bump (assigned _ _ (by simp [isDecisive, assigns])))
        refine .ite_neg assigns ?_
        by_cases label : operator = .colon ∧ mode = .statement ∧ value.count = 1 ∧ value.first.shape = .identifier
        · obtain ⟨-, rfl, -⟩ := id label
          obtain rfl := standing rfl
          exact .ite_pos label (.bump ((((labeledStatement_completable known).answering (fun _ => { kind := .labeled })
            fun _ _ _ _ => rfl).prospect kinds below).weaken (fun _ _ _ => .inl rfl) (fun _ => id) (by decide)))
        refine .ite_neg label ?_
        by_cases sends : operator = .arrow ∧ value.count = 1
        · refine .ite_pos sends (.bump ?_)
          exact (((known.expression ι place).answering (fun sent => { kind := .send, last := some sent.shape })
            fun _ _ _ same => congrArg (SimpleStatement.mk .send · false)
              (congrArg some same)).prospect kinds below).weaken
            (ended (by simp [isDecisive, sends.1])) (fun _ => endsPiece_of_endsSimple) (by decide)
        refine .ite_neg sends ?_
        by_cases counts : (operator = .inc ∨ operator = .dec) ∧ value.count = 1
        · have decisive : isDecisive (.operator operator) = true := by
            rcases counts.1 with rfl | rfl <;> rfl
          exact .ite_pos counts (.bump (.answer (fun _ => ended decisive true _ trivial) fun _ => rfl))
        · exact .ite_neg counts lone
      cases operator with
      | define => exact .bump (assigned _ _ rfl)
      | _ => exact other
    | identifier | keyword | literal | semicolon | illegal => exact lone

theorem listedFrom_completable {value : Expression} {values : ι → Expression}
    (alike : ∀ index, Alike.alike value (values index)) :
    Completable (fun deeper index =>
      do simpleFrom deeper .free .statement (← expressionListFrom deeper .free (values index)))
      endsStatement 2 (bound + 1) [] := by
  have closes : Passes (fun deeper (pair : Following ι (⟨1, value, value⟩ : ExpressionList)) =>
      simpleFrom deeper .free .statement pair.1.2) [] [] endsStatement { kind := .expression, last := some value.shape } := by
    refine ⟨0, fun supply left pair _ rest ends => ?_⟩
    obtain ⟨single, -, last⟩ := pair.2
    apply simpleFrom_lone single.symm ends
    exact ⟨rfl, congrArg (SimpleStatement.mk .expression · false) (congrArg some last)⟩
  have joins : ∀ next, endsStatement next = true → endsPiece .free next = true := fun _ => endsPiece_of_endsSimple
  refine ⟨fun kinds inside => ?_, List.nil_subset _, Nat.zero_le _, _, ((expressionListFrom_closed .free alike).shift []
    fun _ => joins _).bind closes⟩
  refine (expressionListFrom_prospect known .free alike inside).bind
    (fun list used rest parts counted => ?_) (fun list counted => ?_)
    (by decide : 0 + 2 ≤ 2)
  · have fewer := (List.suffix_append used rest).length_le
    rw [← parts] at fewer
    have counted : rest = [] → list.count = 1 ∨ True := fun _ => .inr trivial
    exact ((simpleFrom_prospect known (by simp) (fun pair => pair.2) (Nat.lt_of_le_of_lt fewer inside) counted fun _ =>
      trivial).weaken
      (fun _ _ _ => trivial) (fun _ => id) (Nat.le_refl _)).behind
  · obtain ⟨result, more, -, plain, short, joins, passes⟩ := simpleFrom_closed known .free .statement
      (fun pair : Following ι list => pair.2) counted
    exact .finishes result trivial more plain short joins passes

private theorem listed_prospect {place : Place} {mode : SimpleMode} (standing : mode = .statement → place = .free)
    {kinds : List TokenKind} (inside : kinds.length < bound + 1) : Prospect [] (fun deeper (_ : ι) => do
      simpleFrom deeper place mode (← expressionList deeper place)) (fun _ => EndsClause mode (SomeDecisive kinds))
      (endsSimple place mode) 5 kinds := by
  refine (expressionList_prospect known place inside).bind (fun value used rest parts counted => ?_)
    (fun value counted => ?_)
    (Nat.le_refl (3 + 2))
  · subst parts
    have fewer := (List.suffix_append used rest).length_le
    refine ((simpleFrom_prospect known standing (fun pair => pair.2) (Nat.lt_of_le_of_lt fewer inside) counted
      fun ⟨kind, member, decisive⟩ => ?_).weaken (fun _ _ => id) (fun _ => id) (by decide)).behind
    exact ⟨kind, List.mem_append_right used member, decisive⟩
  · obtain ⟨result, more, isEnd, plain, short, joins, passes⟩ := simpleFrom_closed known place mode
      (fun pair : Following ι value => pair.2) counted
    exact .finishes result isEnd more plain short joins passes

theorem simpleStatement_prospect {place : Place} {mode : SimpleMode} (standing : mode = .statement → place = .free)
    {kinds : List TokenKind} (inside : kinds.length < bound + 1) :
    Prospect [] (fun deeper (_ : ι) => simpleStatement deeper place mode) (fun _ =>
      EndsClause mode (SomeDecisive kinds))
      (endsSimple place mode) 5 kinds := by
  cases kinds with
  | nil => exact .nil (.inr (.inl rfl)) (by decide) (by decide) (simpleName_passes place mode)
  | cons kind kinds =>
    have listed := listed_prospect known (ι := ι) standing inside
    cases mode with
    | statement | clause =>
      simp only [simpleStatement, reduceCtorEq, ↓reduceIte, pure_bind, Bool.false_eq_true]
      exact listed
    | forClause =>
      simp only [simpleStatement, ↓reduceIte]
      refine .atKeyword (fun ranges => .ite_pos rfl ?_) fun _ => .ite_neg Bool.false_ne_true listed
      rw [ranges]
      exact (rangeClause_prospect known place (Nat.lt_of_succ_lt_succ inside)).weaken
        (fun _ _ isRange => .inr (.inr (.inl ⟨rfl, isRange⟩))) (fun _ => endsPiece_of_endsSimple) (Nat.zero_le _)

theorem simpleStatement_completable {place : Place} {mode : SimpleMode} (standing : mode = .statement → place = .free) :
    Completable (fun deeper (_ : ι) => simpleStatement deeper place mode) (endsSimple place mode) 5
      (bound + 1) [.identifier] where
  prospect kinds inside :=
    (simpleStatement_prospect known standing inside).weaken (fun _ _ _ => trivial) (fun _ => id) (Nat.le_refl _)
  plain := by decide
  short := by decide
  closes := ⟨_, simpleName_passes place mode⟩

end GoPrompt
