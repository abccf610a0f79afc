import GoPrompt.Grammar.Simple
import GoPrompt.Proofs.Acceptance.Expressions

/-! Simple statements, ranges and guards are read to their end. A simple statement is its first expression and a
tail that tells of which kind the statement is. -/

namespace GoPrompt

open Parse Grammar

/-- What may follow a simple statement. -/
def endsSimple (place : Place) (mode : SimpleMode) : Option TokenKind → Bool
  | none | some (.semicolon _) | some (.operator .rightBrace) => true
  | some (.operator .leftBrace) => place == .header
  | some (.operator .colon) => mode != .statement
  | _ => false

/-- Whether an answer is that of a simple statement of the given kind without a range or a guard. -/
structure IsPlain (kind : StatementKind) (statement : SimpleStatement) : Prop where
  isKind : statement.kind = kind
  noRange : statement.isRange = false
  noGuard : statement.last ≠ some .typeGuard

/-- What stands behind the first expression of a simple statement. -/
structure IsSimpleTail (supply : Supply) (place : Place) (kind : StatementKind) (level : Nat)
    (kinds : List TokenKind) : Prop where
  reads : ∀ left, level ≤ left → ∀ mode rest, endsSimple place mode rest.head? = true → ∀ first : Expression,
    first.shape ≠ .typeGuard →
      Runs supply (kinds ++ rest) (expressionListFrom (levels supply.nesting left) place first) fun list after =>
        Runs supply after (simpleFrom (levels supply.nesting left) place mode list) fun statement after =>
          after = rest ∧ IsPlain kind statement
  starts : kinds = [] ∨ endsExpression place kinds.head? = true

structure IsSimple (supply : Supply) (place : Place) (kind : StatementKind) (level : Nat)
    (kinds : List TokenKind) : Prop where
  parts : ∃ first tail, kinds = first ++ tail ∧ IsExpression supply place level first ∧
    IsSimpleTail supply place kind level tail

/-- The first clause of a loop over a range. -/
structure IsRange (supply : Supply) (level : Nat) (kinds : List TokenKind) : Prop where
  reads : Reads supply level (fun deeper => simpleStatement deeper .header .forClause) kinds
    (endsSimple .header .forClause)
    (·.isRange = true)
  starts : ∀ rest, (kinds ++ rest).head? ≠ some (.operator .leftBrace) ∧ (kinds ++ rest).head?.any isSemicolon = false

structure IsGuard (supply : Supply) (level : Nat) (kinds : List TokenKind) : Prop where
  reads : Reads supply level (fun deeper => simpleStatement deeper .header .clause) kinds (endsSimple .header .clause)
    (·.isTypeSwitchGuard = true)
  starts : ∀ rest, (kinds ++ rest).head? ≠ some (.operator .leftBrace) ∧ (kinds ++ rest).head?.any isSemicolon = false

def AreExpressions (supply : Supply) (place : Place) (level : Nat) (kinds : List TokenKind) : Prop :=
  Separated (· = .operator .comma) (IsExpression supply place level) kinds

section

variable {supply : Supply} {place : Place} {kind : StatementKind} {level higher : Nat} {kinds : List TokenKind}

theorem IsSimpleTail.mono (isTail : IsSimpleTail supply place kind level kinds) (le : level ≤ higher) :
    IsSimpleTail supply place kind higher kinds where
  reads left enough := isTail.reads left (Nat.le_trans le enough)
  starts := isTail.starts

theorem IsSimple.mono (isSimple : IsSimple supply place kind level kinds) (le : level ≤ higher) :
    IsSimple supply place kind higher kinds := by
  obtain ⟨first, tail, rfl, isExpression, isTail⟩ := isSimple.parts
  exact ⟨first, tail, rfl, isExpression.mono le, isTail.mono le⟩

theorem IsRange.mono (isRange : IsRange supply level kinds) (le : level ≤ higher) : IsRange supply higher kinds :=
  ⟨isRange.reads.mono le, isRange.starts⟩

theorem IsGuard.mono (isGuard : IsGuard supply level kinds) (le : level ≤ higher) : IsGuard supply higher kinds :=
  ⟨isGuard.reads.mono le, isGuard.starts⟩

theorem AreExpressions.mono (areExpressions : AreExpressions supply place level kinds) (le : level ≤ higher) :
    AreExpressions supply place higher kinds :=
  areExpressions.imp fun _ isExpression => isExpression.mono le

end

section lists

variable {supply : Supply} {place : Place} {level : Nat} {kinds rest : List TokenKind}

theorem endsExpression_of_endsSimple {mode : SimpleMode} {next : Option TokenKind}
    (ends : endsSimple place mode next = true) :
    endsExpression place next = true := by
  unfold endsSimple at ends
  split at ends
  next => rfl
  next => rfl
  next => cases place <;> rfl
  next =>
    rw [beq_iff_eq] at ends
    rw [ends]
    rfl
  next => cases place <;> rfl
  next => cases ends

private theorem endsExpression_comma {item : List TokenKind → Prop}
    (trailing : Trailing (· = .operator .comma) item kinds) (ends : endsExpression place rest.head? = true) :
    endsExpression place (kinds ++ rest).head? = true := by
  cases trailing with
  | nil => exact ends
  | cons separated =>
    obtain rfl := separated
    rfl

/-- A list goes on to the last expression behind a comma. -/
private theorem expressionListFrom_trailing {left : Nat} {list : ExpressionList} (enough : level ≤ left)
    (trailing : Trailing (· = .operator .comma) (IsExpression supply place level) kinds)
    (ends : endsExpression place rest.head? = true) (noComma : rest.head? ≠ some (.operator .comma))
    (value : list.last.shape ≠ .typeGuard) {post : ExpressionList → List TokenKind → Prop}
    (holds : ∀ last : ExpressionList, last.last.shape ≠ .typeGuard → post last rest) :
    Runs supply (kinds ++ rest)
      (iterate (fun (list : ExpressionList) => do
        if ← eatOperator .comma then
          let last ← (levels supply.nesting left).expression place
          return .again { list with count := list.count + 1, last := last }
        else return .done list) list) post := by
  induction trailing generalizing list with
  | nil =>
    apply Runs.iterate_done
    apply Runs.bind
    apply Runs.eatOperator_no noComma
    apply Runs.ite_neg Bool.false_ne_true
    exact Runs.pure ⟨_, rfl, holds list value⟩
  | @cons separator expression later separated isExpression trailing ih =>
    obtain rfl := separated
    rw [List.cons_append, List.append_assoc]
    apply Runs.iterate_again
    apply Runs.bind
    apply Runs.eatOperator_yes
    apply Runs.ite_pos rfl
    apply Runs.bind
    apply (isExpression.reads left enough).run (endsExpression_comma trailing ends)
    intro last isValue
    apply Runs.pure
    refine ⟨_, rfl, ?_, ih isValue⟩
    simp only [List.length_append, List.length_cons]
    omega

theorem expressionListFrom_single {left : Nat} {first : Expression} (noComma : rest.head? ≠ some (.operator .comma))
    {post : ExpressionList → List TokenKind → Prop} (holds : post ⟨1, first, first⟩ rest) :
    Runs supply rest (expressionListFrom (levels supply.nesting left) place first) post := by
  apply Runs.iterate_done
  apply Runs.bind
  apply Runs.eatOperator_no noComma
  apply Runs.ite_neg Bool.false_ne_true
  exact Runs.pure ⟨_, rfl, holds⟩

theorem AreExpressions.run (areExpressions : AreExpressions supply place level kinds) {left : Nat}
    (enough : level ≤ left) (ends : endsExpression place rest.head? = true)
    (noComma : rest.head? ≠ some (.operator .comma)) {post : ExpressionList → List TokenKind → Prop}
    (holds : ∀ list : ExpressionList, list.last.shape ≠ .typeGuard → post list rest) :
    Runs supply (kinds ++ rest) (expressionList (levels supply.nesting left) place) post := by
  obtain ⟨first, later, rfl, isExpression, trailing⟩ := areExpressions
  rw [List.append_assoc]
  apply Runs.bind
  apply (isExpression.reads left enough).run (endsExpression_comma trailing ends)
  intro operand isValue
  exact expressionListFrom_trailing enough trailing ends noComma isValue holds

theorem AreExpressions.starts_append (areExpressions : AreExpressions supply place level kinds) (rest : List TokenKind) :
    (kinds ++ rest).head?.any startsExpression = true := by
  obtain ⟨first, later, rfl, isExpression, _⟩ := areExpressions
  rw [List.append_assoc]
  exact isExpression.starts_append _

end lists

section tails

variable {supply : Supply} {place : Place} {mode : SimpleMode} {level first second : Nat}
  {kinds later rest : List TokenKind}

theorem noComma_of_endsSimple (ends : endsSimple place mode rest.head? = true) : rest.head? ≠ some (.operator .comma) :=
  apart ends rfl

/-- In front of what ends a simple statement, a single expression is a statement. -/
theorem simpleFrom_lone {left : Nat} {list : ExpressionList} (single : list.count = 1)
    (ends : endsSimple place mode rest.head? = true) {post : SimpleStatement → List TokenKind → Prop}
    (holds : post { kind := .expression, last := some list.last.shape } rest) :
    Runs supply rest (simpleFrom (levels supply.nesting left) place mode list) post := by
  have lone : Runs supply rest (loneExpression list) post := Runs.ite_pos single (Runs.pure holds)
  apply Runs.bind
  apply Runs.peekOperator_head
  cases rest with
  | nil => exact lone
  | cons kind later =>
    cases kind with
    | operator operator =>
      cases operator with
      | leftBrace | rightBrace => exact lone
      | colon =>
        have noLabel : ¬ (Operator.colon = .colon ∧ mode = .statement ∧ list.count = 1 ∧
            list.first.shape = .identifier) := by
          rintro ⟨_, rfl, _⟩
          cases ends
        apply Runs.ite_neg (by decide)
        exact Runs.ite_neg noLabel lone
      | _ => cases ends
    | _ => exact lone

theorem IsSimpleTail.expression : IsSimpleTail supply place .expression 0 [] where
  reads left _ mode rest ends operand isValue := by
    apply expressionListFrom_single (noComma_of_endsSimple ends)
    apply simpleFrom_lone rfl ends
    exact ⟨rfl, rfl, rfl, by simpa using isValue⟩
  starts := .inl rfl

theorem IsSimpleTail.send (isValue : IsExpression supply place level kinds) :
    IsSimpleTail supply place .send level (.operator .arrow :: kinds) where
  reads left enough mode rest ends operand _ := by
    apply expressionListFrom_single (by simp)
    apply Runs.bind
    apply Runs.peekOperator_cons
    apply Runs.ite_neg (by decide)
    apply Runs.ite_neg (by simp)
    apply Runs.ite_pos ⟨rfl, rfl⟩
    apply Runs.bind
    apply Runs.bump
    apply Runs.bind
    apply (isValue.reads left enough).run (endsExpression_of_endsSimple ends)
    intro value noGuard
    exact Runs.pure ⟨rfl, rfl, rfl, by simpa using noGuard⟩
  starts := .inr (by cases place <;> rfl)

theorem IsSimpleTail.count {operator : Operator} (counts : operator = .inc ∨ operator = .dec) :
    IsSimpleTail supply place .incDec 0 [.operator operator] where
  reads left _ mode rest ends operand _ := by
    rcases counts with rfl | rfl
    all_goals
      apply expressionListFrom_single (by simp)
      apply Runs.bind
      apply Runs.peekOperator_cons
      apply Runs.ite_neg (by decide)
      apply Runs.ite_neg (by simp)
      apply Runs.ite_neg (by simp)
      apply Runs.ite_pos ⟨by decide, rfl⟩
      apply Runs.bind
      apply Runs.bump
      exact Runs.pure ⟨rfl, rfl, rfl, by simp⟩
  starts := .inr (by rcases counts with rfl | rfl <;> cases place <;> rfl)

private theorem rightSide_runs {left : Nat} {mayRange : Bool} {kind : StatementKind} (enough : level ≤ left)
    (values : AreExpressions supply place level kinds) (ends : endsExpression place rest.head? = true)
    (noComma : rest.head? ≠ some (.operator .comma)) :
    Runs supply (kinds ++ rest) (rightSide (levels supply.nesting left) place mayRange kind) fun statement after =>
      after = rest ∧ IsPlain kind statement := by
  have whole : Runs supply (kinds ++ rest)
      (do
        let values ← expressionList (levels supply.nesting left) place
        return { kind := kind, last := some values.last.shape } : Parse SimpleStatement)
      fun statement after => after = rest ∧ IsPlain kind statement := by
    apply Runs.bind
    apply values.run enough ends noComma
    intro list isValue
    exact Runs.pure ⟨rfl, rfl, rfl, by simpa using isValue⟩
  cases mayRange with
  | false =>
    apply Runs.bind
    apply Runs.pure
    exact Runs.ite_neg Bool.false_ne_true whole
  | true =>
    apply Runs.bind
    apply Runs.atKeyword_no (apart (values.starts_append rest) rfl)
    exact Runs.ite_neg Bool.false_ne_true whole

theorem IsSimpleTail.define (trailing : Trailing (· = .operator .comma) (IsExpression supply place first) kinds)
    (values : AreExpressions supply place second later) :
    IsSimpleTail supply place .shortVarDecl (max first second) (kinds ++ .operator .define :: later) where
  reads left enough mode rest ends operand isValue := by
    rw [List.append_assoc]
    apply expressionListFrom_trailing (show first ≤ left by omega) trailing (by cases place <;> rfl) (by simp) isValue
    intro list _
    apply Runs.bind
    apply Runs.peekOperator_cons
    apply Runs.bind
    apply Runs.bump
    exact rightSide_runs (show second ≤ left by omega) values (endsExpression_of_endsSimple ends)
      (noComma_of_endsSimple ends)
  starts := .inr (endsExpression_comma trailing (by cases place <;> rfl))

private theorem endsExpression_of_isAssignment {operator : Operator} (assigns : operator.isAssignment = true) :
    endsExpression place (some (.operator operator)) = true := by
  revert assigns
  cases operator <;> cases place <;> decide

theorem IsSimpleTail.assign {operator : Operator} (assigns : operator.isAssignment = true)
    (trailing : Trailing (· = .operator .comma) (IsExpression supply place first) kinds)
    (values : AreExpressions supply place second later) :
    IsSimpleTail supply place .assignment (max first second) (kinds ++ .operator operator :: later) where
  reads left enough mode rest ends operand isValue := by
    rw [List.append_assoc]
    apply expressionListFrom_trailing (show first ≤ left by omega) trailing
    · exact endsExpression_of_isAssignment assigns
    · simp only [List.cons_append, List.head?_cons, ne_eq, Option.some.injEq, TokenKind.operator.injEq]
      rintro rfl
      cases assigns
    · exact isValue
    · intro list _
      apply Runs.bind
      apply Runs.peekOperator_cons
      split
      next none => cases none
      next same =>
        obtain rfl := Option.some.inj same
        cases assigns
      next other _ same =>
        obtain rfl := Option.some.inj same
        apply Runs.ite_pos assigns
        apply Runs.bind
        apply Runs.bump
        exact rightSide_runs (show second ≤ left by omega) values (endsExpression_of_endsSimple ends)
          (noComma_of_endsSimple ends)
  starts := .inr (endsExpression_comma trailing (endsExpression_of_isAssignment assigns))

end tails

section statements

variable {supply : Supply} {place : Place} {mode : SimpleMode} {kind : StatementKind} {level first second : Nat}
  {kinds later rest : List TokenKind}

theorem IsSimple.expression (isExpression : IsExpression supply place level kinds) :
    IsSimple supply place .expression level kinds :=
  ⟨kinds, [], (List.append_nil _).symm, isExpression, IsSimpleTail.expression.mono (Nat.zero_le _)⟩

theorem IsSimple.send (channel : IsExpression supply place first kinds) (value : IsExpression supply place second later) :
    IsSimple supply place .send (max first second) (kinds ++ .operator .arrow :: later) :=
  ⟨kinds, _, rfl, channel.mono (Nat.le_max_left _ _), (IsSimpleTail.send value).mono (Nat.le_max_right _ _)⟩

theorem IsSimple.count {operator : Operator} (counts : operator = .inc ∨ operator = .dec)
    (operand : IsExpression supply place level kinds) :
    IsSimple supply place .incDec level (kinds ++ [.operator operator]) :=
  ⟨kinds, _, rfl, operand, (IsSimpleTail.count counts).mono (Nat.zero_le _)⟩

theorem IsSimple.define (targets : AreExpressions supply place first kinds)
    (values : AreExpressions supply place second later) :
    IsSimple supply place .shortVarDecl (max first second) (kinds ++ .operator .define :: later) := by
  obtain ⟨start, middle, rfl, isExpression, trailing⟩ := targets
  exact ⟨start, _, List.append_assoc .., isExpression.mono (Nat.le_max_left _ _), .define trailing values⟩

theorem IsSimple.assign {operator : Operator} (assigns : operator.isAssignment = true)
    (targets : AreExpressions supply place first kinds) (values : AreExpressions supply place second later) :
    IsSimple supply place .assignment (max first second) (kinds ++ .operator operator :: later) := by
  obtain ⟨start, middle, rfl, isExpression, trailing⟩ := targets
  exact ⟨start, _, List.append_assoc .., isExpression.mono (Nat.le_max_left _ _), .assign assigns trailing values⟩

theorem IsSimple.starts_append (isSimple : IsSimple supply place kind level kinds) (rest : List TokenKind) :
    (kinds ++ rest).head?.any startsExpression = true := by
  obtain ⟨first, tail, rfl, isExpression, _⟩ := isSimple.parts
  rw [List.append_assoc]
  exact isExpression.starts_append _

theorem IsSimpleTail.endsExpression_append (isTail : IsSimpleTail supply place kind level kinds)
    (ends : endsSimple place mode rest.head? = true) : endsExpression place (kinds ++ rest).head? = true := by
  rcases isTail.starts with rfl | starts
  · exact endsExpression_of_endsSimple ends
  · cases kinds with
    | nil => exact endsExpression_of_endsSimple ends
    | cons => exact starts

/-- No range is read where no keyword asks for it. -/
theorem simpleStatement_runs {left : Nat} {post : SimpleStatement → List TokenKind → Prop}
    (noRange : kinds.head? ≠ some (.keyword .range))
    (runs : Runs supply kinds (expressionList (levels supply.nesting left) place) fun list after =>
      Runs supply after (simpleFrom (levels supply.nesting left) place mode list) post) :
    Runs supply kinds (simpleStatement (levels supply.nesting left) place mode) post := by
  cases mode with
  | statement | clause =>
    apply Runs.bind
    apply Runs.pure
    exact Runs.ite_neg Bool.false_ne_true runs.bind
  | forClause =>
    apply Runs.bind
    apply Runs.atKeyword_no noRange
    exact Runs.ite_neg Bool.false_ne_true runs.bind

theorem IsSimple.reads (isSimple : IsSimple supply place kind level kinds) :
    Reads supply level (fun deeper => simpleStatement deeper place mode) kinds
      (endsSimple place mode) (IsPlain kind) := by
  intro left enough rest ends
  apply simpleStatement_runs (apart (isSimple.starts_append rest) rfl)
  obtain ⟨first, tail, rfl, isExpression, isTail⟩ := isSimple.parts
  rw [List.append_assoc]
  apply Runs.bind
  apply (isExpression.reads left enough).run (isTail.endsExpression_append ends)
  intro operand isValue
  exact isTail.reads left enough mode rest ends operand isValue

end statements

section headers

variable {supply : Supply} {level first second : Nat} {kinds later rest : List TokenKind}

theorem noSemicolon_of_startsExpression {next : Option TokenKind} (starts : next.any startsExpression = true) :
    next.any isSemicolon = false := by
  cases next with
  | none => rfl
  | some kind => cases kind <;> first | rfl | cases starts

private theorem rangeClause_runs {left : Nat} (ranged : IsExpression supply .header level kinds) (enough : level ≤ left)
    (ends : endsExpression .header rest.head? = true) :
    Runs supply (.keyword .range :: (kinds ++ rest))
      (rangeClause (levels supply.nesting left) .header) fun statement after =>
      after = rest ∧ statement.isRange = true := by
  apply Runs.bind
  apply Runs.bump
  apply Runs.bind
  apply ranged.run enough ends
  exact Runs.pure ⟨rfl, rfl⟩

theorem IsRange.bare (ranged : IsExpression supply .header level kinds) :
    IsRange supply level (.keyword .range :: kinds) where
  reads := by
    intro left enough rest ends
    apply Runs.bind
    apply Runs.atKeyword_yes
    apply Runs.ite_pos rfl
    exact rangeClause_runs ranged enough (endsExpression_of_endsSimple ends)
  starts rest := ⟨by simp, rfl⟩

theorem IsRange.assigning {operator : Operator} (assigns : operator = .define ∨ operator = .assign)
    (targets : AreExpressions supply .header first kinds) (ranged : IsExpression supply .header second later) :
    IsRange supply (max first second) (kinds ++ .operator operator :: .keyword .range :: later) where
  reads := by
    intro left enough rest ends
    have clause := rangeClause_runs ranged (show second ≤ left by omega) (endsExpression_of_endsSimple ends)
    rw [List.append_assoc]
    apply simpleStatement_runs (apart (targets.starts_append _) rfl)
    apply targets.run (show first ≤ left by omega)
    · rcases assigns with rfl | rfl <;> rfl
    · rcases assigns with rfl | rfl <;> simp
    · intro list _
      rcases assigns with rfl | rfl
      all_goals
        apply Runs.bind
        apply Runs.peekOperator_cons
        apply Runs.bind
        apply Runs.bump
        apply Runs.bind
        apply Runs.atKeyword_yes
        exact Runs.ite_pos rfl clause
  starts rest := by
    rw [List.append_assoc]
    exact ⟨apart (targets.starts_append _) rfl, noSemicolon_of_startsExpression (targets.starts_append _)⟩

theorem IsGuard.bare {shape : Shape} (isPrimary : IsPrimary supply .header shape level kinds) :
    IsGuard supply (level + 2)
      (kinds ++ [.operator .period, .operator .leftParen, .keyword .type, .operator .rightParen]) where
  reads := by
    intro left enough rest ends
    have starts := startsExpression_head (head?_append_of_any isPrimary.starts
      ([.operator .period, .operator .leftParen, .keyword .type, .operator .rightParen] ++ rest))
    rw [← List.append_assoc] at starts
    apply simpleStatement_runs (apart starts rfl)
    apply Runs.bind
    apply (isPrimary.guard_reads left enough).run (endsExpression_of_endsSimple ends)
    intro operand isGuard
    apply expressionListFrom_single (noComma_of_endsSimple ends)
    apply simpleFrom_lone rfl ends
    refine ⟨rfl, ?_⟩
    simp [SimpleStatement.isTypeSwitchGuard, isGuard]
  starts rest := by
    rw [List.append_assoc]
    have starts := startsExpression_head (head?_append_of_any isPrimary.starts
      ([.operator .period, .operator .leftParen, .keyword .type, .operator .rightParen] ++ rest))
    exact ⟨apart starts rfl, noSemicolon_of_startsExpression starts⟩

theorem IsGuard.bound {shape : Shape} (isPrimary : IsPrimary supply .header shape level kinds) :
    IsGuard supply (level + 2) (.identifier :: .operator .define ::
      (kinds ++ [.operator .period, .operator .leftParen, .keyword .type, .operator .rightParen])) where
  reads := by
    intro left enough rest ends
    apply simpleStatement_runs (by simp)
    apply Runs.bind
    apply (name_reads left (by omega)).run rfl
    intro name _
    apply expressionListFrom_single (by simp)
    apply Runs.bind
    apply Runs.peekOperator_cons
    apply Runs.bind
    apply Runs.bump
    apply Runs.bind
    apply Runs.pure
    apply Runs.ite_neg Bool.false_ne_true
    apply Runs.bind
    apply Runs.bind
    apply (isPrimary.guard_reads left enough).run (endsExpression_of_endsSimple ends)
    intro operand isGuard
    apply expressionListFrom_single (noComma_of_endsSimple ends)
    apply Runs.pure
    refine ⟨rfl, ?_⟩
    simp [SimpleStatement.isTypeSwitchGuard, isGuard]
  starts rest := ⟨by simp, rfl⟩

end headers

end GoPrompt
