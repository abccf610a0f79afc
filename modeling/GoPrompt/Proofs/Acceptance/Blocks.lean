import GoPrompt.Grammar.Statement
import GoPrompt.Proofs.Acceptance.Simple

/-! Lists of statements are read to their end, and so are blocks. A statement ends in front of a semicolon, a closing
brace, or nothing. -/

namespace GoPrompt

open Parse Grammar

/-- What may follow a statement. -/
def endsStatement (next : Option TokenKind) : Bool := endsSimple .free .statement next

def startsStatement (kind : TokenKind) : Bool := !endsStatementList kind && !isSemicolon kind

structure IsStatement (supply : Supply) (context : Context) (kind : StatementKind) (level : Nat)
    (kinds : List TokenKind) : Prop where
  reads : Reads supply level (fun deeper => deeper.statement context) kinds endsStatement (·.kind = kind)
  starts : kinds.head?.any startsStatement = true

/-- A statement of any kind in a block. -/
def IsLine (supply : Supply) (level : Nat) (kinds : List TokenKind) : Prop :=
  ∃ kind, IsStatement supply .block kind level kinds

def AreLines (supply : Supply) (level : Nat) (kinds : List TokenKind) : Prop :=
  Optionally (Separated (· = .semicolon .explicit) (IsLine supply level)) kinds

/-- What stands behind the statements of a list, and what is left of it: a closing brace, or a semicolon and the next
clause. -/
inductive ClosesList : List TokenKind → List TokenKind → Prop
  | brace (rest : List TokenKind) : ClosesList (.operator .rightBrace :: rest) (.operator .rightBrace :: rest)
  | clause {kind : TokenKind} (ends : endsStatementList kind = true) (rest : List TokenKind) :
      ClosesList (.semicolon .explicit :: kind :: rest) (kind :: rest)

section

variable {supply : Supply} {context : Context} {kind : StatementKind} {level higher : Nat}
  {kinds rest after : List TokenKind}

theorem IsStatement.mono (isStatement : IsStatement supply context kind level kinds) (le : level ≤ higher) :
    IsStatement supply context kind higher kinds :=
  ⟨isStatement.reads.mono le, isStatement.starts⟩

theorem IsLine.mono (isLine : IsLine supply level kinds) (le : level ≤ higher) : IsLine supply higher kinds := by
  obtain ⟨kind, isStatement⟩ := isLine
  exact ⟨kind, isStatement.mono le⟩

theorem AreLines.mono (areLines : AreLines supply level kinds) (le : level ≤ higher) : AreLines supply higher kinds :=
  areLines.imp_right fun separated => separated.imp fun _ isLine => isLine.mono le

theorem startsStatement_of_startsExpression {next : Option TokenKind} (starts : next.any startsExpression = true) :
    next.any startsStatement = true := by
  cases next with
  | none => cases starts
  | some kind =>
    cases kind with
    | operator operator => revert starts; cases operator <;> decide
    | keyword keyword => revert starts; cases keyword <;> decide
    | _ => first | rfl | cases starts

theorem endsStatement_cases {next : Option TokenKind} (ends : endsStatement next = true) :
    next = none ∨ (∃ origin, next = some (.semicolon origin)) ∨ next = some (.operator .rightBrace) := by
  unfold endsStatement endsSimple at ends
  split at ends
  next => exact .inl rfl
  next origin => exact .inr (.inl ⟨origin, rfl⟩)
  next => exact .inr (.inr rfl)
  next => cases ends
  next => cases ends
  next => cases ends

theorem endsExpression_of_endsStatement {next : Option TokenKind} (ends : endsStatement next = true) :
    endsExpression .free next = true := endsExpression_of_endsSimple ends

end

section lists

variable {supply : Supply} {level left : Nat} {kinds rest after : List TokenKind} {post : Unit → List TokenKind → Prop}

theorem statementList_done {kind : TokenKind} (ends : endsStatementList kind = true) (holds : post () (kind :: rest)) :
    Runs supply (kind :: rest) (statementList (levels supply.nesting left)) post := by
  apply Runs.repeatUntil_done
  apply Runs.bind
  apply Runs.peek_cons
  intro token isKind
  apply Runs.ite_pos (by rw [isKind]; exact ends)
  exact Runs.pure ⟨rfl, holds⟩

private theorem statementList_closed (closes : ClosesList rest after) (holds : post () after) :
    Runs supply rest (statementList (levels supply.nesting left)) post := by
  cases closes with
  | brace rest => exact statementList_done rfl holds
  | clause ends rest =>
    apply Runs.repeatUntil_again
    apply Runs.bind
    apply Runs.peek_cons
    intro token isKind
    apply Runs.ite_neg (by rw [isKind]; decide)
    apply Runs.ite_pos (by rw [isKind]; rfl)
    apply Runs.bind
    apply Runs.bump
    exact Runs.pure ⟨rfl, Nat.lt_succ_self _, statementList_done ends holds⟩

/-- A statement of a list; what follows it tells whether there are more. -/
private theorem statementList_line (isLine : IsLine supply level kinds) (enough : level ≤ left)
    (next : (∃ after, rest = .semicolon .explicit :: after ∧ Runs supply after (statementList (levels supply.nesting left)) post) ∨
      rest.head? = some (.operator .rightBrace) ∧ post () rest) :
    Runs supply (kinds ++ rest) (statementList (levels supply.nesting left)) post := by
  obtain ⟨kind, isStatement⟩ := isLine
  have ends : endsStatement rest.head? = true := by
    rcases next with ⟨_, rfl, _⟩ | ⟨brace, _⟩
    · rfl
    · rw [brace]
      rfl
  have starts := head?_append_of_any isStatement.starts rest
  cases front : kinds ++ rest with
  | nil =>
    rw [front] at starts
    cases starts
  | cons first later =>
    rw [front, List.head?_cons, Option.any_some, startsStatement, Bool.and_eq_true, Bool.not_eq_true',
      Bool.not_eq_true'] at starts
    apply Runs.repeatUntil_turn
    apply Runs.bind
    apply Runs.peek_cons
    intro token isKind
    apply Runs.ite_neg (by rw [isKind, starts.1]; decide)
    apply Runs.ite_neg (by rw [isKind, starts.2]; decide)
    rw [← front]
    apply Runs.bind
    apply Runs.discard
    apply (isStatement.reads left enough).run ends
    intro _ _
    apply Runs.bind
    apply Runs.peekKind_head
    rcases next with ⟨after, rfl, continues⟩ | ⟨brace, holds⟩
    · apply Runs.bind
      apply Runs.bump
      refine Runs.pure ⟨?_, continues⟩
      rw [List.length_append, List.length_cons]
      omega
    · rw [brace]
      exact Runs.pure holds

theorem AreLines.runs (areLines : AreLines supply level kinds) (enough : level ≤ left) (closes : ClosesList rest after)
    (holds : post () after) : Runs supply (kinds ++ rest) (statementList (levels supply.nesting left)) post := by
  rcases areLines with rfl | ⟨first, later, rfl, isLine, trailing⟩
  · exact statementList_closed closes holds
  · induction trailing generalizing first with
    | nil =>
      rw [List.append_nil]
      cases closes with
      | brace rest => exact statementList_line isLine enough (.inr ⟨rfl, holds⟩)
      | clause ends rest => exact statementList_line isLine enough (.inl ⟨_, rfl, statementList_done ends holds⟩)
    | @cons separator kinds later separated isLine' _ ih =>
      obtain rfl := separated
      rw [List.append_assoc]
      exact statementList_line isLine enough (.inl ⟨_, rfl, ih kinds isLine'⟩)

theorem IsBlock.intro (areLines : AreLines supply level kinds) :
    IsBlock supply level (.operator .leftBrace :: (kinds ++ [.operator .rightBrace])) where
  reads := by
    intro left enough rest _
    rw [List.cons_append, List.append_assoc]
    apply Runs.bind
    apply Runs.expectOperator
    apply Runs.bind
    apply areLines.runs enough (.brace rest)
    exact Runs.expectOperator ⟨rfl, trivial⟩
  starts := rfl

end lists

end GoPrompt
