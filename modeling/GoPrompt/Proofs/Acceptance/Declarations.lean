import GoPrompt.Grammar.Declaration
import GoPrompt.Proofs.Acceptance.Blocks

/-! The items of declarations are read to their end, alone or grouped in parentheses. -/

namespace GoPrompt

open Parse Grammar

/-- What may follow an item of a declaration. -/
def endsItem (next : Option TokenKind) : Bool := endsStatement next || next == some (.operator .rightParen)

def startsItem : TokenKind → Bool
  | .identifier | .literal .string | .operator .period => true
  | _ => false

structure IsItem (supply : Supply) (program : Deeper → Parse Unit) (level : Nat) (kinds : List TokenKind) : Prop where
  reads : Reads supply level program kinds endsItem fun _ => True
  starts : kinds.head?.any startsItem = true

/-- One item without parentheses, or any number of them in parentheses. -/
inductive IsGroup (supply : Supply) (program : Deeper → Parse Unit) (level : Nat) : List TokenKind → Prop
  | single {kinds : List TokenKind} (isItem : IsItem supply program level kinds) : IsGroup supply program level kinds
  | grouped {kinds : List TokenKind}
      (items : Optionally (Separated (· = .semicolon .explicit) (IsItem supply program level)) kinds) :
      IsGroup supply program level (.operator .leftParen :: (kinds ++ [.operator .rightParen]))

/-- The values of a declaration, behind their sign. -/
def AreValues (supply : Supply) (level : Nat) (kinds : List TokenKind) : Prop :=
  ∃ values, kinds = .operator .assign :: values ∧ AreExpressions supply .free level values

section

variable {supply : Supply} {program : Deeper → Parse Unit} {level higher first second left : Nat}
  {kinds names values rest : List TokenKind}

theorem IsItem.mono (isItem : IsItem supply program level kinds) (le : level ≤ higher) :
    IsItem supply program higher kinds :=
  ⟨isItem.reads.mono le, isItem.starts⟩

theorem IsGroup.mono (isGroup : IsGroup supply program level kinds) (le : level ≤ higher) :
    IsGroup supply program higher kinds := by
  cases isGroup with
  | single isItem => exact .single (isItem.mono le)
  | grouped items => exact .grouped (items.imp_right fun separated => separated.imp fun _ isItem => isItem.mono le)

theorem AreValues.mono (areValues : AreValues supply level kinds) (le : level ≤ higher) :
    AreValues supply higher kinds := by
  obtain ⟨values, rfl, areExpressions⟩ := areValues
  exact ⟨values, rfl, areExpressions.mono le⟩

theorem endsItem_cases {p : Option TokenKind → Bool} {next : Option TokenKind} (ends : endsItem next = true)
    (statement : ∀ next, endsStatement next = true → p next = true) (paren : p (some (.operator .rightParen)) = true) :
    p next = true := by
  rw [endsItem, Bool.or_eq_true, beq_iff_eq] at ends
  rcases ends with ends | rfl
  · exact statement next ends
  · exact paren

private theorem endsExpression_of_endsItem {next : Option TokenKind} (ends : endsItem next = true) :
    endsExpression .free next = true :=
  endsItem_cases ends (fun _ => endsExpression_of_endsStatement) rfl

theorem endsType_of_endsStatement {next : Option TokenKind} (ends : endsStatement next = true) :
    endsType next = true := by
  rcases endsStatement_cases ends with rfl | ⟨_, rfl⟩ | rfl <;> rfl

theorem endsType_of_endsItem {next : Option TokenKind} (ends : endsItem next = true) : endsType next = true :=
  endsItem_cases ends (fun _ => endsType_of_endsStatement) rfl

theorem IsGroup.reads (isGroup : IsGroup supply program level kinds) :
    Reads supply level (fun deeper => group (program deeper)) kinds endsStatement fun _ => True := by
  intro left enough rest ends
  cases isGroup with
  | single isItem =>
    apply Runs.bind
    apply Runs.eatOperator_no (apart (head?_append_of_any isItem.starts rest) rfl)
    apply Runs.ite_neg Bool.false_ne_true
    exact isItem.reads left enough rest (by rw [endsItem, ends, Bool.true_or])
  | grouped items =>
    rw [List.cons_append, List.append_assoc]
    apply Runs.bind
    apply Runs.eatOperator_yes
    apply Runs.ite_pos rfl
    apply Runs.bind
    apply semicolonList_runs endsItem rfl rfl (fun _ isItem => isItem.reads left enough) _ items
    · exact Runs.expectOperator ⟨rfl, trivial⟩
    · intro kinds isItem rest
      have starts := head?_append_of_any isItem.starts rest
      exact ⟨apart starts rfl, fun origin => apart starts rfl⟩

private theorem IsNames.startsItem_append (isNames : IsNames names) (rest : List TokenKind) :
    (names ++ rest).head?.any startsItem = true := by
  obtain ⟨later, rfl, _⟩ := isNames
  rfl

private theorem AreExpressions.runItem (values : AreExpressions supply .free level kinds) (enough : level ≤ left)
    (ends : endsItem rest.head? = true) :
    Runs supply (kinds ++ rest) (discard (expressionList (levels supply.nesting left) .free)) fun _ after =>
    after = rest ∧ True := by
  apply Runs.discard
  apply values.run enough (endsExpression_of_endsItem ends) (apart ends rfl)
  exact fun _ _ => ⟨rfl, trivial⟩

theorem optionalValues_runs (areValues : Optionally (AreValues supply level) kinds) (enough : level ≤ left)
    (ends : endsItem rest.head? = true) :
    Runs supply (kinds ++ rest) (optionalValues (levels supply.nesting left)) fun _ after => after = rest ∧ True := by
  rcases areValues with rfl | ⟨values, rfl, areExpressions⟩
  · apply Runs.bind
    apply Runs.eatOperator_no (apart ends rfl)
    apply Runs.ite_neg Bool.false_ne_true
    exact Runs.pure ⟨rfl, trivial⟩
  · apply Runs.bind
    apply Runs.eatOperator_yes
    apply Runs.ite_pos rfl
    exact areExpressions.runItem enough ends

private theorem endsType_values (areValues : Optionally (AreValues supply level) kinds)
    (ends : endsItem rest.head? = true) :
    endsType (kinds ++ rest).head? = true := by
  rcases areValues with rfl | ⟨values, rfl, _⟩
  · exact endsType_of_endsItem ends
  · rfl

theorem IsItem.const {type : List TokenKind} (isNames : IsNames names) (isType : Optionally (IsType supply first) type)
    (areValues : Optionally (AreValues supply second) values) :
    IsItem supply constItem (max first second) (names ++ (type ++ values)) where
  reads := by
    intro left enough rest ends
    have behind := endsType_values areValues ends
    have last := optionalValues_runs areValues (show second ≤ left by omega) ends
    rw [List.append_assoc, List.append_assoc]
    apply Runs.bind
    rcases isType with rfl | isType
    · have noComma : (values ++ rest).head? ≠ some (.operator .comma) := by
        rcases areValues with rfl | ⟨values, rfl, _⟩
        · exact apart ends rfl
        · simp
      apply nameList_runs isNames noComma
      apply Runs.bind
      by_cases assigns : (values ++ rest).head? = some (.operator .assign)
      · obtain ⟨later, same⟩ := List.head?_eq_some_iff.mp assigns
        rw [same] at last ⊢
        apply Runs.atOperator_yes
        exact Runs.ite_neg (by decide) last
      · apply Runs.atOperator_no assigns
        apply Runs.ite_pos rfl
        apply Runs.bind
        apply atType_runs
        exact Runs.ite_neg (Bool.eq_false_iff.mp (startsType_of_endsType behind)) last
    · have starts := isType.opens_append (values ++ rest)
      apply nameList_runs isNames (apart starts rfl)
      apply Runs.bind
      apply Runs.atOperator_no (apart starts rfl)
      apply Runs.ite_pos rfl
      apply Runs.bind
      apply atType_runs
      apply Runs.ite_pos (isType.startsType_append _)
      apply Runs.bind
      exact isType.run (show first ≤ left by omega) behind last
  starts := isNames.startsItem_append _

theorem IsItem.var {type : List TokenKind} (isNames : IsNames names) (isType : IsType supply first type)
    (areValues : Optionally (AreValues supply second) values) :
    IsItem supply varItem (max first second) (names ++ (type ++ values)) where
  reads := by
    intro left enough rest ends
    rw [List.append_assoc, List.append_assoc]
    have starts := isType.opens_append (values ++ rest)
    apply Runs.bind
    apply nameList_runs isNames (apart starts rfl)
    apply Runs.bind
    apply Runs.eatOperator_no (apart starts rfl)
    apply Runs.ite_neg Bool.false_ne_true
    apply Runs.bind
    apply isType.run (show first ≤ left by omega) (endsType_values areValues ends)
    exact optionalValues_runs areValues (show second ≤ left by omega) ends
  starts := isNames.startsItem_append _

theorem IsItem.varValues (isNames : IsNames names) (areValues : AreValues supply level values) :
    IsItem supply varItem level (names ++ values) where
  reads := by
    intro left enough rest ends
    obtain ⟨values, rfl, areExpressions⟩ := areValues
    rw [List.append_assoc]
    apply Runs.bind
    apply nameList_runs isNames (by simp)
    apply Runs.bind
    apply Runs.eatOperator_yes
    apply Runs.ite_pos rfl
    exact areExpressions.runItem enough ends
  starts := isNames.startsItem_append _

theorem IsItem.type (isType : IsType supply level kinds) : IsItem supply typeItem level (.identifier :: kinds) where
  reads := by
    intro left enough rest ends
    apply Runs.bind
    apply Runs.expectName
    apply Runs.bind
    apply Runs.discard
    apply Runs.eatOperator_no (apart (isType.opens_append rest) rfl)
    exact isType.run enough (endsType_of_endsItem ends) ⟨rfl, trivial⟩
  starts := rfl

theorem IsItem.typeAlias (isType : IsType supply level kinds) :
    IsItem supply typeItem level (.identifier :: .operator .assign :: kinds) where
  reads := by
    intro left enough rest ends
    apply Runs.bind
    apply Runs.expectName
    apply Runs.bind
    apply Runs.discard
    apply Runs.eatOperator_yes
    exact isType.run enough (endsType_of_endsItem ends) ⟨rfl, trivial⟩
  starts := rfl

theorem importPath_runs :
    Runs supply (.literal .string :: rest)
      (do if (← peekKind 0) = some (.literal .string) then bump else rejectNext ["import path"])
      fun _ after => after = rest ∧ True := by
  apply Runs.bind
  apply Runs.peekKind_cons
  apply Runs.ite_pos rfl
  exact Runs.bump ⟨rfl, trivial⟩

theorem IsItem.import : IsItem supply (fun _ => importItem) 0 [.literal .string] where
  reads left _ rest _ := by
    apply Runs.bind
    apply Runs.peekKind_cons
    exact importPath_runs
  starts := rfl

theorem IsItem.importAs {kind : TokenKind} (isRename : kind = .identifier ∨ kind = .operator .period) :
    IsItem supply (fun _ => importItem) 0 [kind, .literal .string] where
  reads left _ rest _ := by
    rcases isRename with rfl | rfl
    all_goals
      apply Runs.bind
      apply Runs.peekKind_cons
      apply Runs.bind
      apply Runs.bump
      exact importPath_runs
  starts := by rcases isRename with rfl | rfl <;> rfl

end

end GoPrompt
