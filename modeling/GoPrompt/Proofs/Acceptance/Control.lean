import GoPrompt.Grammar.Control
import GoPrompt.Proofs.Acceptance.Blocks

/-! Control statements are read to their end. Their headers end in front of the brace that opens the body, and their
clauses in front of the next clause or the closing brace. -/

namespace GoPrompt

open Parse Grammar

/-- A simple statement of any kind in a header. -/
def IsAction (supply : Supply) (level : Nat) (kinds : List TokenKind) : Prop :=
  ∃ kind, IsSimple supply .header kind level kinds

/-- A simple statement in front of the condition, tag or guard of a header. -/
def IsInitial (supply : Supply) (level : Nat) (kinds : List TokenKind) : Prop :=
  ∃ simple, kinds = simple ++ [.semicolon .explicit] ∧ IsAction supply level simple

/-- What stands between `for` and its body. -/
def IsForHeader (supply : Supply) (level : Nat) (kinds : List TokenKind) : Prop :=
  Reads supply level forHeader kinds (· == some (.operator .leftBrace)) fun _ => True

/-- What a `switch` statement switches on. -/
structure IsSubject (supply : Supply) (onType : Bool) (level : Nat) (kinds : List TokenKind) : Prop where
  reads : Reads supply level (fun deeper => simpleStatement deeper .header .clause) kinds (endsSimple .header .clause)
    fun statement => statement.isTypeSwitchGuard = onType ∧ (onType = false → statement.kind = .expression)
  starts : ∀ rest, (kinds ++ rest).head? ≠ some (.operator .leftBrace) ∧ (kinds ++ rest).head?.any isSemicolon = false

structure IsConditional (supply : Supply) (level : Nat) (kinds : List TokenKind) : Prop where
  reads : Reads supply level ifBody kinds endsStatement fun _ => True
  starts : kinds.head? = some (.keyword .if)

/-- What may stand behind the body of an `if` statement. -/
inductive IsOtherwise (supply : Supply) : Nat → List TokenKind → Prop
  | chained {level : Nat} {kinds : List TokenKind} (isConditional : IsConditional supply level kinds) :
      IsOtherwise supply (level + 1) (.keyword .else :: kinds)
  | block {level : Nat} {kinds : List TokenKind} (isBlock : IsBlock supply level kinds) :
      IsOtherwise supply level (.keyword .else :: kinds)

/-- What stands between `case` and the colon. -/
def IsLabel (supply : Supply) (program : Deeper → Parse Unit) (level : Nat) (kinds : List TokenKind) : Prop :=
  Reads supply level program kinds (· == some (.operator .colon)) fun _ => True

inductive IsClause (supply : Supply) (program : Deeper → Parse Unit) (level : Nat) : List TokenKind → Prop
  | case {label lines : List TokenKind} (isLabel : IsLabel supply program level label)
      (areLines : AreLines supply level lines) :
      IsClause supply program level (.keyword .case :: (label ++ .operator .colon :: lines))
  | default {lines : List TokenKind} (areLines : AreLines supply level lines) :
      IsClause supply program level (.keyword .default :: .operator .colon :: lines)

/-- The clauses of a `switch` or `select` statement. -/
def AreClauses (supply : Supply) (program : Deeper → Parse Unit) (level : Nat) (kinds : List TokenKind) : Prop :=
  Optionally (Separated (· = .semicolon .explicit) (IsClause supply program level)) kinds

section

variable {supply : Supply} {onType : Bool} {program : Deeper → Parse Unit} {level higher : Nat} {kinds : List TokenKind}

theorem IsAction.mono (isAction : IsAction supply level kinds) (le : level ≤ higher) :
    IsAction supply higher kinds := by
  obtain ⟨kind, isSimple⟩ := isAction
  exact ⟨kind, isSimple.mono le⟩

theorem IsInitial.mono (isInitial : IsInitial supply level kinds) (le : level ≤ higher) :
    IsInitial supply higher kinds := by
  obtain ⟨simple, rfl, isAction⟩ := isInitial
  exact ⟨simple, rfl, isAction.mono le⟩

theorem IsConditional.mono (isConditional : IsConditional supply level kinds) (le : level ≤ higher) :
    IsConditional supply higher kinds :=
  ⟨isConditional.reads.mono le, isConditional.starts⟩

theorem IsOtherwise.mono (isOtherwise : IsOtherwise supply level kinds) (le : level ≤ higher) :
    IsOtherwise supply higher kinds := by
  cases isOtherwise with
  | chained isConditional =>
    obtain ⟨below, rfl⟩ : ∃ below, higher = below + 1 := ⟨higher - 1, by omega⟩
    exact .chained (isConditional.mono (by omega))
  | block isBlock => exact .block (isBlock.mono le)

theorem IsClause.mono (isClause : IsClause supply program level kinds) (le : level ≤ higher) :
    IsClause supply program higher kinds := by
  cases isClause with
  | case isLabel areLines => exact .case (isLabel.mono le) (areLines.mono le)
  | default areLines => exact .default (areLines.mono le)

end

section headers

variable {supply : Supply} {onType : Bool} {level first second third left : Nat} {initial kinds rest : List TokenKind}

private theorem IsSimple.startsHeader {kind : StatementKind} (isSimple : IsSimple supply .header kind level kinds)
    (rest : List TokenKind) :
    (kinds ++ rest).head? ≠ some (.operator .leftBrace) ∧ (kinds ++ rest).head?.any isSemicolon = false :=
  ⟨apart (isSimple.starts_append rest) rfl, noSemicolon_of_startsExpression (isSimple.starts_append rest)⟩

theorem IsSubject.value (isExpression : IsExpression supply .header level kinds) :
    IsSubject supply false level kinds where
  reads := by
    intro left enough rest ends
    apply ((IsSimple.expression isExpression).reads left enough).run ends
    intro statement isPlain
    refine ⟨rfl, ?_, fun _ => isPlain.isKind⟩
    simp [SimpleStatement.isTypeSwitchGuard, isPlain.noGuard]
  starts := (IsSimple.expression isExpression).startsHeader

theorem IsSubject.guard (isGuard : IsGuard supply level kinds) : IsSubject supply true level kinds where
  reads := by
    intro left enough rest ends
    apply (isGuard.reads left enough).run ends
    intro statement isGuard
    exact ⟨rfl, isGuard, nofun⟩
  starts := isGuard.starts

theorem IsInitial.starts (isInitial : IsInitial supply level kinds) (rest : List TokenKind) :
    (kinds ++ rest).head? ≠ some (.operator .leftBrace) ∧ (kinds ++ rest).head?.any isSemicolon = false := by
  obtain ⟨simple, rfl, kind, isSimple⟩ := isInitial
  rw [List.append_assoc]
  exact isSimple.startsHeader _

/-- The first simple statement of a header. Without a semicolon in front of it, it is there. -/
private theorem firstStatement_runs {β : Type} {result : SimpleStatement → Prop} {next : Option SimpleStatement → Parse β}
    {post : β → List TokenKind → Prop} (noSemicolon : (kinds ++ rest).head?.any isSemicolon = false)
    (takes : Takes supply (simpleStatement (levels supply.nesting left) .header .clause) kinds (endsSimple .header .clause) result)
    (ends : endsSimple .header .clause rest.head? = true)
    (continues : ∀ statement, result statement → Runs supply rest (next (some statement)) post) :
    Runs supply (kinds ++ rest)
      (do
        if ← atSemicolon then
          let first ← pure none
          next first
        else
          let first ← some <$> simpleStatement (levels supply.nesting left) .header .clause
          next first) post := by
  apply Runs.bind
  apply Runs.atSemicolon
  apply Runs.ite_neg (Bool.eq_false_iff.mp noSemicolon)
  apply Runs.bind
  apply Runs.map
  exact takes.run ends continues

theorem ifHeader_runs (isInitial : Optionally (IsInitial supply first) initial)
    (condition : IsExpression supply .header second kinds) (enough : max first second ≤ left)
    {post : Unit → List TokenKind → Prop} (holds : post () (.operator .leftBrace :: rest)) :
    Runs supply (initial ++ (kinds ++ .operator .leftBrace :: rest)) (ifHeader (levels supply.nesting left)) post := by
  have subject := IsSubject.value condition
  have starts := subject.starts (.operator .leftBrace :: rest)
  have takes := subject.reads left (by omega)
  apply Runs.bind
  rcases isInitial with rfl | isInitial
  · apply Runs.atOperator_no starts.1
    apply Runs.ite_neg Bool.false_ne_true
    apply firstStatement_runs starts.2 takes rfl
    rintro statement ⟨_, isExpression⟩
    apply Runs.bind
    apply Runs.atSemicolon
    apply Runs.ite_neg (by simp [isSemicolon])
    apply Runs.bind
    apply Runs.pure
    apply Runs.ite_pos (by simp [isExpression])
    exact Runs.pure holds
  · have startsInitial := isInitial.starts (kinds ++ .operator .leftBrace :: rest)
    apply Runs.atOperator_no startsInitial.1
    apply Runs.ite_neg Bool.false_ne_true
    obtain ⟨simple, rfl, kind, isSimple⟩ := isInitial
    rw [List.append_assoc] at startsInitial ⊢
    apply firstStatement_runs startsInitial.2 (isSimple.reads left (by omega)) rfl
    intro _ _
    apply Runs.bind
    apply Runs.atSemicolon
    apply Runs.ite_pos rfl
    apply Runs.bind
    apply Runs.bump
    apply Runs.bind
    apply Runs.atOperator_no starts.1
    apply Runs.ite_neg Bool.false_ne_true
    apply Runs.bind
    apply Runs.map
    apply takes.run rfl
    rintro statement ⟨_, isExpression⟩
    apply Runs.ite_pos (by simp [isExpression])
    exact Runs.pure holds

theorem switchHeader_runs (isInitial : Optionally (IsInitial supply first) initial)
    (isSubject : kinds = [] ∧ onType = false ∨ IsSubject supply onType second kinds) (enough : max first second ≤ left)
    {post : Bool → List TokenKind → Prop} (holds : post onType (.operator .leftBrace :: rest)) :
    Runs supply (initial ++ (kinds ++ .operator .leftBrace :: rest))
      (switchHeader (levels supply.nesting left)) post := by
  -- What the header answers once its subject is read.
  have decided : ∀ statement : SimpleStatement,
      statement.isTypeSwitchGuard = onType ∧ (onType = false → statement.kind = .expression) →
      Runs supply (.operator .leftBrace :: rest)
        (if statement.isTypeSwitchGuard then return true
          else if statement.kind = .expression then return false
          else rejectNext ["switch expression"] : Parse Bool) post := by
    rintro statement ⟨isGuard, isExpression⟩
    rw [isGuard]
    cases onType with
    | true => exact Runs.ite_pos rfl (Runs.pure holds)
    | false => exact Runs.ite_neg Bool.false_ne_true (Runs.ite_pos (isExpression rfl) (Runs.pure holds))
  apply Runs.bind
  rcases isInitial with rfl | isInitial
  · rcases isSubject with ⟨rfl, rfl⟩ | isSubject
    · apply Runs.atOperator_yes
      exact Runs.ite_pos rfl (Runs.pure holds)
    · have starts := isSubject.starts (.operator .leftBrace :: rest)
      apply Runs.atOperator_no starts.1
      apply Runs.ite_neg Bool.false_ne_true
      apply Runs.bind
      apply firstStatement_runs starts.2 (isSubject.reads left (by omega)) rfl
      intro statement isSubject
      apply Runs.bind
      apply Runs.atSemicolon
      apply Runs.ite_neg (by simp [isSemicolon])
      exact Runs.pure (decided statement isSubject)
  · have startsInitial := isInitial.starts (kinds ++ .operator .leftBrace :: rest)
    apply Runs.atOperator_no startsInitial.1
    apply Runs.ite_neg Bool.false_ne_true
    obtain ⟨simple, rfl, kind, isSimple⟩ := isInitial
    rw [List.append_assoc] at startsInitial ⊢
    apply Runs.bind
    apply firstStatement_runs startsInitial.2 (isSimple.reads left (by omega)) rfl
    intro _ _
    apply Runs.bind
    apply Runs.atSemicolon
    apply Runs.ite_pos rfl
    apply Runs.bind
    apply Runs.bump
    apply Runs.bind
    rcases isSubject with ⟨rfl, rfl⟩ | isSubject
    · apply Runs.atOperator_yes
      exact Runs.ite_pos rfl (Runs.pure (Runs.pure holds))
    · apply Runs.atOperator_no (isSubject.starts _).1
      apply Runs.ite_neg Bool.false_ne_true
      apply Runs.map
      apply (isSubject.reads left (by omega)).run rfl
      exact decided

/-- The condition of a loop and what it does behind each turn, with the semicolons in front of them. -/
private theorem forClauses_runs {last : List TokenKind}
    (condition : Optionally (IsExpression supply .header first) kinds)
    (isLast : Optionally (IsAction supply second) last) (enough : max first second ≤ left)
    {post : Unit → List TokenKind → Prop} (holds : post () (.operator .leftBrace :: rest)) :
    Runs supply (.semicolon .explicit :: (kinds ++ .semicolon .explicit :: (last ++ .operator .leftBrace :: rest)))
      (forClauses (levels supply.nesting left)) post := by
  have finish : Runs supply (.semicolon .explicit :: (last ++ .operator .leftBrace :: rest))
      (do
        expectSemicolon [";"]
        if !(← atOperator .leftBrace) then discard (simpleStatement (levels supply.nesting left) .header .clause))
          post := by
    apply Runs.bind
    apply Runs.expect rfl
    apply Runs.bind
    rcases isLast with rfl | ⟨kind, isSimple⟩
    · apply Runs.atOperator_yes
      exact Runs.ite_neg (by decide) (Runs.pure holds)
    · apply Runs.atOperator_no (isSimple.startsHeader _).1
      apply Runs.ite_pos rfl
      apply Runs.discard
      apply (isSimple.reads left (by omega)).run rfl
      exact fun _ _ => holds
  apply Runs.bind
  apply Runs.bump
  apply Runs.bind
  apply Runs.atSemicolon
  rcases condition with rfl | condition
  · exact Runs.ite_neg Bool.false_ne_true finish
  · have starts := (IsSimple.expression condition).startsHeader
      (.semicolon .explicit :: (last ++ .operator .leftBrace :: rest))
    apply Runs.ite_pos (by rw [starts.2]; rfl)
    apply Runs.bind
    apply ((IsSimple.expression condition).reads left (by omega)).run rfl
    intro statement isPlain
    exact Runs.ite_neg (fun differs => differs isPlain.isKind) finish

theorem IsForHeader.forever : IsForHeader supply 0 [] := by
  intro left _ rest brace
  obtain ⟨later, rfl⟩ := List.head?_eq_some_iff.mp (beq_iff_eq.mp brace)
  apply Runs.bind
  apply Runs.atOperator_yes
  exact Runs.ite_pos rfl (Runs.pure ⟨rfl, trivial⟩)

private theorem forHeader_runs {result : SimpleStatement → Prop} {post : Unit → List TokenKind → Prop}
    (takes : Takes supply (simpleStatement (levels supply.nesting left) .header .forClause) kinds (endsSimple .header .forClause) result)
    (starts : (kinds ++ rest).head? ≠ some (.operator .leftBrace) ∧ (kinds ++ rest).head?.any isSemicolon = false)
    (ends : endsSimple .header .forClause rest.head? = true)
    (continues : ∀ first, result first → Runs supply rest
      (do
        if first.isRange then return
        else if ← atSemicolon then forClauses (levels supply.nesting left)
        else if first.kind = .expression then return
        else rejectNext [Operator.leftBrace.lexeme]) post) :
    Runs supply (kinds ++ rest) (forHeader (levels supply.nesting left)) post := by
  apply Runs.bind
  apply Runs.atOperator_no starts.1
  apply Runs.ite_neg Bool.false_ne_true
  apply Runs.bind
  apply Runs.atSemicolon
  apply Runs.ite_neg (Bool.eq_false_iff.mp starts.2)
  apply Runs.bind
  exact takes.run ends continues

theorem IsForHeader.condition (condition : IsExpression supply .header level kinds) :
    IsForHeader supply level kinds := by
  intro left enough rest brace
  obtain ⟨later, rfl⟩ := List.head?_eq_some_iff.mp (beq_iff_eq.mp brace)
  have isSimple := IsSimple.expression condition
  apply forHeader_runs (isSimple.reads left enough) (isSimple.startsHeader _) rfl
  intro statement isPlain
  apply Runs.ite_neg (Bool.eq_false_iff.mp isPlain.noRange)
  apply Runs.bind
  apply Runs.atSemicolon
  apply Runs.ite_neg (by simp [isSemicolon])
  apply Runs.ite_pos isPlain.isKind
  exact Runs.pure ⟨rfl, trivial⟩

theorem IsForHeader.range (isRange : IsRange supply level kinds) : IsForHeader supply level kinds := by
  intro left enough rest brace
  obtain ⟨later, rfl⟩ := List.head?_eq_some_iff.mp (beq_iff_eq.mp brace)
  apply forHeader_runs (isRange.reads left enough) (isRange.starts _) rfl
  intro statement ranges
  apply Runs.ite_pos ranges
  exact Runs.pure ⟨rfl, trivial⟩

theorem IsForHeader.clauses {last : List TokenKind} (isFirst : Optionally (IsAction supply first) initial)
    (condition : Optionally (IsExpression supply .header second) kinds)
    (isLast : Optionally (IsAction supply third) last) :
    IsForHeader supply (max first (max second third))
      (initial ++ .semicolon .explicit :: (kinds ++ .semicolon .explicit :: last)) := by
  intro left enough rest brace
  obtain ⟨later, rfl⟩ := List.head?_eq_some_iff.mp (beq_iff_eq.mp brace)
  rw [List.append_assoc, List.cons_append, List.append_assoc, List.cons_append]
  have clauses : Runs supply _ (forClauses (levels supply.nesting left)) fun _ after =>
      after = .operator .leftBrace :: later ∧ True :=
    forClauses_runs condition isLast (show max second third ≤ left by omega) ⟨rfl, trivial⟩
  rcases isFirst with rfl | ⟨kind, isSimple⟩
  · apply Runs.bind
    apply Runs.atOperator_no (by simp)
    apply Runs.ite_neg Bool.false_ne_true
    apply Runs.bind
    apply Runs.atSemicolon
    exact Runs.ite_pos rfl clauses
  · apply forHeader_runs (isSimple.reads left (by omega)) (isSimple.startsHeader _) rfl
    intro statement isPlain
    apply Runs.ite_neg (Bool.eq_false_iff.mp isPlain.noRange)
    apply Runs.bind
    apply Runs.atSemicolon
    exact Runs.ite_pos rfl clauses

end headers

section clauses

variable {supply : Supply} {program : Deeper → Parse Unit} {level first second third left : Nat}
  {initial kinds later rest after : List TokenKind}

theorem IsClause.starts (isClause : IsClause supply program level kinds) :
    ∃ kind later, kinds = kind :: later ∧ endsStatementList kind = true := by
  cases isClause with
  | case => exact ⟨_, _, rfl, rfl⟩
  | default => exact ⟨_, _, rfl, rfl⟩

/-- A clause is read together with the semicolon behind it, if there is one. -/
private theorem clauses_clause (isClause : IsClause supply program level kinds) (enough : level ≤ left)
    (closes : ClosesList rest after) {post : Unit → List TokenKind → Prop}
    (continues : Runs supply after (clauses (levels supply.nesting left) (program (levels supply.nesting left))) post) :
    Runs supply (kinds ++ rest) (clauses (levels supply.nesting left) (program (levels supply.nesting left))) post := by
  have shorter : after.length ≤ rest.length := by
    cases closes with
    | brace => exact Nat.le_refl _
    | clause => exact Nat.le_succ _
  cases isClause with
  | @case label lines isLabel areLines =>
    rw [List.cons_append, List.append_assoc]
    apply Runs.repeatUntil_again
    apply Runs.bind
    apply Runs.peekKind_cons
    apply Runs.bind
    apply Runs.bump
    apply Runs.bind
    apply (isLabel left enough).run rfl
    intro _ _
    apply Runs.bind
    apply Runs.expectOperator
    apply Runs.bind
    apply areLines.runs enough closes
    refine Runs.pure ⟨rfl, ?_, continues⟩
    simp only [List.length_append, List.length_cons]
    omega
  | @default lines areLines =>
    apply Runs.repeatUntil_again
    apply Runs.bind
    apply Runs.peekKind_cons
    apply Runs.bind
    apply Runs.bump
    apply Runs.bind
    apply Runs.expectOperator
    apply Runs.bind
    apply areLines.runs enough closes
    refine Runs.pure ⟨rfl, ?_, continues⟩
    simp only [List.length_append, List.length_cons]
    omega

theorem clauses_done {cases : Parse Unit} {post : Unit → List TokenKind → Prop}
    (holds : post () (.operator .rightBrace :: rest)) :
    Runs supply (.operator .rightBrace :: rest) (clauses (levels supply.nesting left) cases) post := by
  apply Runs.repeatUntil_done
  apply Runs.bind
  apply Runs.peekKind_cons
  exact Runs.pure ⟨rfl, holds⟩

theorem AreClauses.runs (areClauses : AreClauses supply program level kinds) (enough : level ≤ left)
    {post : Unit → List TokenKind → Prop} (holds : post () (.operator .rightBrace :: rest)) :
    Runs supply (kinds ++ .operator .rightBrace :: rest)
      (clauses (levels supply.nesting left) (program (levels supply.nesting left))) post := by
  rcases areClauses with rfl | ⟨first, later, rfl, isClause, trailing⟩
  · exact clauses_done holds
  · induction trailing generalizing first with
    | nil =>
      rw [List.append_nil]
      exact clauses_clause isClause enough (.brace rest) (clauses_done holds)
    | @cons separator kinds later separated isClause' _ ih =>
      obtain rfl := separated
      have continues := ih kinds isClause'
      obtain ⟨kind, tail, rfl, ends⟩ := isClause'.starts
      rw [List.append_assoc, List.cons_append]
      exact clauses_clause isClause enough (.clause ends _) continues

end clauses

section conditionals

variable {supply : Supply} {level first second third fourth : Nat} {initial condition body kinds : List TokenKind}

theorem IsConditional.intro (isInitial : Optionally (IsInitial supply first) initial)
    (isCondition : IsExpression supply .header second condition) (isBody : IsBlock supply third body)
    (isOtherwise : Optionally (IsOtherwise supply fourth) kinds) :
    IsConditional supply (max first (max second (max third fourth)))
      (.keyword .if :: (initial ++ (condition ++ (body ++ kinds)))) where
  reads := by
    intro left enough rest ends
    obtain ⟨later, brace⟩ := List.head?_eq_some_iff.mp isBody.starts
    have header : Runs supply (initial ++ (condition ++ (body ++ (kinds ++ rest))))
      (ifHeader (levels supply.nesting left))
        fun _ after => after = body ++ (kinds ++ rest) := by
      rw [brace]
      exact ifHeader_runs isInitial isCondition (by omega) rfl
    rw [List.cons_append, List.append_assoc, List.append_assoc, List.append_assoc]
    apply Runs.bind
    apply Runs.expectKeyword
    apply Runs.bind
    apply header.weaken
    rintro _ _ rfl
    apply Runs.bind
    apply (isBody.reads left (by omega)).run rfl
    intro _ _
    apply Runs.bind
    rcases isOtherwise with rfl | isOtherwise
    · apply Runs.atKeyword_no (apart ends rfl)
      apply Runs.ite_neg Bool.false_ne_true
      exact Runs.pure ⟨rfl, trivial⟩
    · cases isOtherwise with
      | @chained level kinds isConditional =>
        obtain ⟨below, rfl⟩ : ∃ below, left = below + 1 := ⟨left - 1, by omega⟩
        have chained := isConditional.reads below (by omega) rest ends
        obtain ⟨tail, rfl⟩ := List.head?_eq_some_iff.mp isConditional.starts
        apply Runs.atKeyword_yes
        apply Runs.ite_pos rfl
        apply Runs.bind
        apply Runs.bump
        apply Runs.bind
        apply Runs.peekKind_cons
        exact chained
      | @block _ kinds isBlock =>
        have block := isBlock.reads left (by omega) rest rfl
        obtain ⟨tail, rfl⟩ := List.head?_eq_some_iff.mp isBlock.starts
        apply Runs.atKeyword_yes
        apply Runs.ite_pos rfl
        apply Runs.bind
        apply Runs.bump
        apply Runs.bind
        apply Runs.peekKind_cons
        exact block
  starts := rfl

end conditionals

end GoPrompt
