import GoPrompt.Grammar.Statement
import GoPrompt.Proofs.Acceptance.Control
import GoPrompt.Proofs.Acceptance.Declarations

/-! Every statement is read to its end, and its kind is recognized. Each takes one level of nesting more than its
parts. -/

namespace GoPrompt

open Parse Grammar

section

variable {supply : Supply} {context : Context} {kind : StatementKind} {level first second third left : Nat}
  {kinds later initial body rest : List TokenKind}

theorem IsStatement.intro {start : TokenKind} (starts : startsStatement start = true)
    (reads : ∀ token : Token, token.kind = start →
      Reads supply level (fun deeper => statementKind deeper context token) (start :: later) endsStatement (· = kind)) :
    IsStatement supply context kind (level + 1) (start :: later) where
  reads := by
    intro left enough rest ends
    obtain ⟨below, rfl⟩ : ∃ below, left = below + 1 := ⟨left - 1, by omega⟩
    apply Runs.bind
    apply Runs.peek_cons
    intro token isKind
    apply Runs.bind
    apply (reads token isKind below (by omega)).run ends
    rintro _ rfl
    apply Runs.bind
    apply Runs.spanFrom
    intro span
    exact Runs.pure ⟨rfl, rfl⟩
  starts := starts

section jumps

private theorem called_runs (isCall : IsExpression supply .free level kinds) (enough : level ≤ left)
    (ends : endsStatement rest.head? = true) {keyword : Keyword} :
    Runs supply (.keyword keyword :: (kinds ++ rest))
      (do
        bump
        discard ((levels supply.nesting left).expression .free)
        return kind) fun found after => after = rest ∧ found = kind := by
  apply Runs.bind
  apply Runs.bump
  apply Runs.bind
  apply isCall.run enough (endsExpression_of_endsStatement ends)
  exact Runs.pure ⟨rfl, rfl⟩

theorem IsStatement.go (isCall : IsExpression supply .free level kinds) :
    IsStatement supply context .go (level + 1) (.keyword .go :: kinds) := by
  apply IsStatement.intro rfl
  intro token isKind left enough rest ends
  simp only [statementKind, isKind]
  exact called_runs isCall enough ends

theorem IsStatement.defer (isCall : IsExpression supply .free level kinds) :
    IsStatement supply context .defer (level + 1) (.keyword .defer :: kinds) := by
  apply IsStatement.intro rfl
  intro token isKind left enough rest ends
  simp only [statementKind, isKind]
  exact called_runs isCall enough ends

theorem IsStatement.return (areValues : Optionally (AreExpressions supply .free level) kinds) :
    IsStatement supply context .return (level + 1) (.keyword .return :: kinds) := by
  apply IsStatement.intro rfl
  intro token isKind left enough rest ends
  simp only [statementKind, isKind]
  apply Runs.bind
  apply Runs.bump
  apply Runs.bind
  apply Runs.peekKind_head
  rcases areValues with rfl | areValues
  · rw [List.append_eq, List.nil_append]
    rcases endsStatement_cases ends with next | ⟨_, next⟩ | next
    all_goals
      rw [next]
      exact Runs.pure ⟨rfl, rfl⟩
  · have starts := areValues.starts_append rest
    split
    next next => exact absurd next (apart starts rfl)
    next next => exact absurd next (apart starts rfl)
    next next => exact absurd next (apart starts rfl)
    next =>
      apply Runs.bind
      apply Runs.discard
      apply areValues.run enough (endsExpression_of_endsStatement ends) (apart ends rfl)
      exact fun _ _ => Runs.pure ⟨rfl, rfl⟩

theorem label_runs {label : List TokenKind} (isLabel : label = [] ∨ label = [.identifier])
    (ends : endsStatement rest.head? = true) {next : Parse StatementKind} {post : StatementKind → List TokenKind → Prop}
    (continues : Runs supply rest next post) :
    Runs supply (label ++ rest)
      (do
        if (← peekKind 0) = some .identifier then bump
        next) post := by
  apply Runs.bind
  apply Runs.peekKind_head
  rcases isLabel with rfl | rfl
  · exact Runs.ite_neg (apart ends rfl) continues
  · apply Runs.ite_pos rfl
    apply Runs.bind
    exact Runs.bump continues

theorem IsStatement.break (isLabel : kinds = [] ∨ kinds = [.identifier]) :
    IsStatement supply context .break 1 (.keyword .break :: kinds) := by
  apply IsStatement.intro rfl
  intro token isKind left enough rest ends
  simp only [statementKind, isKind]
  apply Runs.bind
  apply Runs.bump
  apply label_runs isLabel ends
  exact Runs.pure ⟨rfl, rfl⟩

theorem IsStatement.continue (isLabel : kinds = [] ∨ kinds = [.identifier]) :
    IsStatement supply context .continue 1 (.keyword .continue :: kinds) := by
  apply IsStatement.intro rfl
  intro token isKind left enough rest ends
  simp only [statementKind, isKind]
  apply Runs.bind
  apply Runs.bump
  apply label_runs isLabel ends
  exact Runs.pure ⟨rfl, rfl⟩

theorem IsStatement.goto : IsStatement supply context .goto 1 [.keyword .goto, .identifier] := by
  apply IsStatement.intro rfl
  intro token isKind left enough rest ends
  simp only [statementKind, isKind]
  apply Runs.bind
  apply Runs.bump
  apply Runs.bind
  apply Runs.expectName
  exact Runs.pure ⟨rfl, rfl⟩

theorem IsStatement.fallthrough : IsStatement supply context .fallthrough 1 [.keyword .fallthrough] := by
  apply IsStatement.intro rfl
  intro token isKind left enough rest ends
  simp only [statementKind, isKind]
  apply Runs.bind
  apply Runs.bump
  exact Runs.pure ⟨rfl, rfl⟩

end jumps

section declarations

private theorem declaration_runs {program : Deeper → Parse Unit} (isGroup : IsGroup supply program level kinds)
    (enough : level ≤ left) (ends : endsStatement rest.head? = true) {keyword : Keyword} {declared : DeclarationKind} :
    Runs supply (.keyword keyword :: (kinds ++ rest))
      (do
        expectKeyword keyword
        group (program (levels supply.nesting left))
        return StatementKind.declaration declared) fun found after => after = rest ∧ found = .declaration declared := by
  apply Runs.bind
  apply Runs.expectKeyword
  apply Runs.bind
  apply (isGroup.reads left enough).run ends
  exact fun _ _ => Runs.pure ⟨rfl, rfl⟩

theorem IsStatement.import (isGroup : IsGroup supply (fun _ => importItem) level kinds) :
    IsStatement supply .topLevel (.declaration .import) (level + 1) (.keyword .import :: kinds) := by
  apply IsStatement.intro rfl
  intro token isKind left enough rest ends
  simp only [statementKind, isKind]
  apply Runs.ite_pos trivial
  exact declaration_runs isGroup enough ends

theorem IsStatement.const (isGroup : IsGroup supply constItem level kinds) :
    IsStatement supply context (.declaration .const) (level + 1) (.keyword .const :: kinds) := by
  apply IsStatement.intro rfl
  intro token isKind left enough rest ends
  simp only [statementKind, isKind]
  exact declaration_runs isGroup enough ends

theorem IsStatement.var (isGroup : IsGroup supply varItem level kinds) :
    IsStatement supply context (.declaration .var) (level + 1) (.keyword .var :: kinds) := by
  apply IsStatement.intro rfl
  intro token isKind left enough rest ends
  simp only [statementKind, isKind]
  exact declaration_runs isGroup enough ends

theorem IsStatement.type (isGroup : IsGroup supply typeItem level kinds) :
    IsStatement supply context (.declaration .type) (level + 1) (.keyword .type :: kinds) := by
  apply IsStatement.intro rfl
  intro token isKind left enough rest ends
  simp only [statementKind, isKind]
  exact declaration_runs isGroup enough ends

end declarations

section simple

/-- In a block every simple statement is one. At the prompt a statement that starts with a function literal is read like
the declaration of a function at first. -/
theorem IsStatement.simple (isSimple : IsSimple supply .free kind level kinds)
    (allowed : context = .topLevel → kinds.head? ≠ some (.keyword .func)) :
    IsStatement supply context kind (level + 1) kinds := by
  have starts := isSimple.starts_append []
  rw [List.append_nil] at starts
  cases kinds with
  | nil => cases starts
  | cons start later =>
    have program : ∀ deeper (token : Token), token.kind = start →
        statementKind deeper context token = do return (← simpleStatement deeper .free .statement).kind := by
      intro deeper token isKind
      unfold statementKind
      rw [isKind]
      cases start with
      | identifier | literal => rfl
      | operator operator => cases operator <;> first | rfl | cases starts
      | keyword keyword =>
        cases keyword with
        | map | struct => rfl
        | func => exact if_neg fun top => allowed top rfl
        | _ => cases starts
      | semicolon | illegal => cases starts
    apply IsStatement.intro (startsStatement_of_startsExpression starts)
    intro token isKind left enough rest ends
    simp only [program _ token isKind]
    apply Runs.bind
    apply (isSimple.reads left enough).run ends
    intro statement isPlain
    exact Runs.pure ⟨rfl, isPlain.isKind⟩

/-- A label is read as an expression at first, which takes two levels. -/
theorem IsStatement.labeled (isStatement : IsStatement supply .block kind level kinds) :
    IsStatement supply context .labeled (max 2 level + 1) (.identifier :: .operator .colon :: kinds) := by
  apply IsStatement.intro rfl
  intro token isKind left enough rest ends
  simp only [statementKind, isKind]
  apply Runs.bind
  apply simpleStatement_runs (by simp)
  apply Runs.bind
  apply (name_reads left (by omega)).run rfl
  intro label isName
  apply expressionListFrom_single (by simp)
  apply Runs.bind
  apply Runs.peekOperator_cons
  apply Runs.ite_neg (by decide)
  apply Runs.ite_pos ⟨rfl, rfl, rfl, isName⟩
  apply Runs.bind
  apply Runs.bump
  apply Runs.bind
  apply Runs.bind
  apply Runs.peekKind_head
  have starts := head?_append_of_any isStatement.starts rest
  split
  next next => exact absurd next (apart starts rfl)
  next next => exact absurd next (apart starts rfl)
  next next => exact absurd next (apart starts rfl)
  next =>
    apply Runs.discard
    apply (isStatement.reads left (by omega)).run ends
    exact fun _ _ => Runs.pure (Runs.pure ⟨rfl, rfl⟩)

end simple

section control

theorem IsStatement.block (isBlock : IsBlock supply level kinds) :
    IsStatement supply context .block (level + 1) kinds := by
  obtain ⟨later, rfl⟩ := List.head?_eq_some_iff.mp isBlock.starts
  apply IsStatement.intro rfl
  intro token isKind left enough rest ends
  simp only [statementKind, isKind]
  apply Runs.bind
  apply (isBlock.reads left enough).run rfl
  exact fun _ _ => Runs.pure ⟨rfl, rfl⟩

theorem IsStatement.if (isConditional : IsConditional supply level kinds) :
    IsStatement supply context .if (level + 1) kinds := by
  obtain ⟨later, rfl⟩ := List.head?_eq_some_iff.mp isConditional.starts
  apply IsStatement.intro rfl
  intro token isKind left enough rest ends
  simp only [statementKind, isKind]
  apply Runs.bind
  apply (isConditional.reads left enough).run ends
  exact fun _ _ => Runs.pure ⟨rfl, rfl⟩

theorem IsStatement.for (isHeader : IsForHeader supply first kinds) (isBody : IsBlock supply second body) :
    IsStatement supply context .for (max first second + 1) (.keyword .for :: (kinds ++ body)) := by
  apply IsStatement.intro rfl
  intro token isKind left enough rest ends
  simp only [statementKind, isKind]
  have brace : (body ++ rest).head? = some (.operator .leftBrace) := by
    rw [List.head?_append, isBody.starts]
    rfl
  rw [List.cons_append, List.append_assoc]
  apply Runs.bind
  apply Runs.expectKeyword
  apply Runs.bind
  apply (isHeader left (by omega)).run (by rw [brace]; rfl)
  intro _ _
  apply Runs.bind
  apply (isBody.reads left (by omega)).run rfl
  exact fun _ _ => Runs.pure ⟨rfl, rfl⟩

/-- What stands between `case` and the colon of a `switch` statement. -/
def switchLabel (onType : Bool) (deeper : Deeper) : Parse Unit :=
  if onType then typeList deeper else discard (expressionList deeper .free)

theorem IsLabel.values (areValues : AreExpressions supply .free level kinds) :
    IsLabel supply (switchLabel false) level kinds := by
  intro left enough rest colon
  obtain ⟨later, rfl⟩ := List.head?_eq_some_iff.mp (beq_iff_eq.mp colon)
  apply Runs.discard
  apply areValues.run enough rfl (by simp)
  exact fun _ _ => ⟨rfl, trivial⟩

theorem IsLabel.types (areTypes : Separated (· = .operator .comma) (IsType supply level) kinds) :
    IsLabel supply (switchLabel true) level kinds := by
  intro left enough rest colon
  obtain ⟨later, rfl⟩ := List.head?_eq_some_iff.mp (beq_iff_eq.mp colon)
  obtain ⟨first, more, rfl, isType, trailing⟩ := areTypes
  have ends : endsType (more ++ .operator .colon :: later).head? = true := by
    cases trailing with
    | nil => rfl
    | cons separated =>
      obtain rfl := separated
      rfl
  rw [List.append_assoc]
  apply Runs.bind
  apply isType.run enough ends
  apply trailing_runs endsType rfl _ trailing rfl (by simp) ⟨rfl, trivial⟩
  intro kinds isType rest ends
  exact isType.run enough ends ⟨rfl, trivial⟩

theorem IsLabel.communication
    (allowed : [StatementKind.send, .expression, .shortVarDecl, .assignment].contains kind = true)
    (isSimple : IsSimple supply .free kind level kinds) : IsLabel supply communication level kinds := by
  intro left enough rest colon
  obtain ⟨later, rfl⟩ := List.head?_eq_some_iff.mp (beq_iff_eq.mp colon)
  apply Runs.bind
  apply (isSimple.reads left enough).run rfl
  intro statement isPlain
  apply Runs.ite_pos (by rw [isPlain.isKind]; exact allowed)
  exact Runs.pure ⟨rfl, trivial⟩

theorem IsStatement.switch (onType : Bool) (isInitial : Optionally (IsInitial supply first) initial)
    (isSubject : kinds = [] ∧ onType = false ∨ IsSubject supply onType second kinds)
    (areClauses : AreClauses supply (switchLabel onType) third later) :
    IsStatement supply context (if onType then .typeSwitch else .switch) (max first (max second third) + 1)
      (.keyword .switch :: (initial ++ (kinds ++ .operator .leftBrace :: (later ++ [.operator .rightBrace])))) := by
  apply IsStatement.intro rfl
  intro token isKind left enough rest ends
  simp only [statementKind, isKind]
  rw [List.cons_append, List.append_assoc, List.append_assoc, List.cons_append, List.append_assoc]
  apply Runs.bind
  apply Runs.expectKeyword
  apply Runs.bind
  apply switchHeader_runs isInitial isSubject (by omega)
  apply Runs.bind
  apply Runs.expectOperator
  apply Runs.bind
  apply areClauses.runs (by omega)
  apply Runs.bind
  apply Runs.expectOperator
  exact Runs.pure ⟨rfl, rfl⟩

theorem IsStatement.select (areClauses : AreClauses supply communication level kinds) :
    IsStatement supply context .select (level + 1)
      (.keyword .select :: .operator .leftBrace :: (kinds ++ [.operator .rightBrace])) := by
  apply IsStatement.intro rfl
  intro token isKind left enough rest ends
  simp only [statementKind, isKind]
  rw [List.cons_append, List.cons_append, List.append_assoc]
  apply Runs.bind
  apply Runs.expectKeyword
  apply Runs.bind
  apply Runs.expectOperator
  apply Runs.bind
  apply areClauses.runs enough
  apply Runs.bind
  apply Runs.expectOperator
  exact Runs.pure ⟨rfl, rfl⟩

end control

end

end GoPrompt
