import GoPrompt.Proofs.Completion.Types

/-! Blocks, lists of statements, operands and what is appended to operands can be finished wherever the text ends. An
array, map or struct type that stands as an operand is finished as a composite literal. -/

namespace GoPrompt

open Parse Grammar

section

variable {ι : Type} {bound : Nat} (known : Known bound)
include known

omit known in
private theorem separator_completable : Completable (fun _ (_ : ι) => do
    match ← peekKind 0 with
    | some (.semicolon _) =>
      bump
      return false
    | some (.operator .rightBrace) => return true
    | _ => rejectNext [";", Operator.rightBrace.lexeme]) (· == some (.operator .rightBrace)) 0 bound [] := by
  refine .intro true (List.nil_subset _) (Nat.le_refl _) ?_ fun kind kinds inside => .peekKind ?_
  · refine ⟨0, fun supply left _ _ rest ends => ?_⟩
    apply Runs.bind
    apply Runs.peekKind_head
    rw [List.nil_append, beq_iff_eq.mp ends]
    exact Runs.pure ⟨rfl, rfl⟩
  · cases kind with
    | semicolon => exact .bump (.pure fun _ => rfl)
    | operator operator =>
      cases operator with
      | rightBrace => exact .pure fun _ => rfl
      | _ => exact .rejectNext
    | identifier | keyword | literal | illegal => exact .rejectNext

theorem statementList_completable :
    Completable (fun deeper (_ : ι) => statementList deeper) (· == some (.operator .rightBrace)) 8 bound [] := by
  refine .repeatUntil (fun ι kind kinds inside => .peek ?_) (List.nil_subset _) (Nat.zero_le 0)
    (fun ι => ?_) (fun _ => id)
    (fun _ => id) (Nat.le_refl _)
  · have isKind : ∀ pair : ι × { token : Token // token.kind = kind }, pair.2.1.kind = kind := fun pair => pair.2.2
    simp only [isKind]
    by_cases ended : endsStatementList kind = true
    · exact .ite_pos ended (.pure fun _ => rfl)
    · refine .ite_neg ended ?_
      by_cases semicolon : isSemicolon kind = true
      · exact .ite_pos semicolon (.bump (.pure fun _ => rfl))
      · refine .ite_neg semicolon ?_
        refine ((known.statement _ .block).discard.prospect (kind :: kinds) inside).followed
          (fun _ => separator_completable)
          (fun _ rest ends => ?_) inside (Nat.le_refl _)
        rw [List.nil_append, beq_iff_eq.mp ends]
        rfl
  · refine ⟨0, fun supply left _ _ rest ends => ?_⟩
    obtain ⟨later, rfl⟩ := List.head?_eq_some_iff.mp (beq_iff_eq.mp ends)
    exact statementList_done rfl ⟨rfl, rfl⟩

theorem block_completable :
    Completable (fun deeper (_ : ι) => block deeper) anything 2 (bound + 1)
      [.operator .leftBrace, .operator .rightBrace] := by
  have closed : Completable (fun deeper (_ : ι) => do
      statementList deeper
      expectOperator .rightBrace) anything 9 bound [.operator .rightBrace] :=
    (statementList_completable known).bind (fun _ => Completable.expectOperator (by decide))
      (fun _ _ => rfl) (Nat.le_refl _)
  exact .expecting (beq_self_eq_true _) (by decide) closed (Nat.le_refl _) (by decide)

theorem optionalBlock_completable :
    Completable (fun deeper (_ : ι) => optionalBlock deeper) anything 2 (bound + 1)
      [.operator .leftBrace, .operator .rightBrace] := by
  have whole : ∀ ι : Type, Completable (fun deeper (_ : ι) => block deeper) anything 2 (bound + 1) _ := fun _ =>
    block_completable known
  refine (whole _).like .atOperator_yes (Nat.le_refl _) fun kind kinds inside => ?_
  exact .atOperator (fun _ => (whole _).on inside (fun _ => id) (Nat.le_refl _)) fun _ => .pure fun _ => rfl

end

/-- An expression of a shape, for which it does not matter where it stands. -/
def anywhere (shape : Shape) : Expression := ⟨shape, 0, 0, 0, Nat.le_refl 0⟩

/-- What finishes an operand of a shape. -/
def literalBody (shape : Shape) : List TokenKind :=
  if shape = .literalType then [.operator .leftBrace, .operator .rightBrace] else []

private theorem literalBody_plain (shape : Shape) : literalBody shape ⊆ finishing := by cases shape <;> decide

private theorem literalBody_short (shape : Shape) : (literalBody shape).length ≤ 2 := by cases shape <;> decide

private theorem literalBody_joins {place : Place} (shape : Shape) {rest : List TokenKind}
    (ends : endsPiece place rest.head? = true) :
    endsPiece .header (literalBody shape ++ rest).head? = true := by
  cases shape with
  | literalType => rfl
  | identifier | qualifiedName | typeGuard | other => exact endsPiece_header ends

private theorem suffixes_closed {ι : Type} (place : Place) {value : Expression} {values : ι → Expression}
    (alike : ∀ index, Alike.alike value (values index)) : ∃ result,
      Passes (fun deeper index => suffixes deeper place (values index)) (literalBody value.shape) []
        (endsPiece place) result := by
  by_cases isType : value.shape = .literalType
  · refine ⟨⟨.other, value.span⟩, 0, fun supply left index enough rest ends => ?_⟩
    have takes : Shape.takesLiteralBody .literalType = true ∧
        (place = .free ∨ ¬ Shape.isTypeName .literalType = true) :=
      ⟨rfl, .inr Bool.false_ne_true⟩
    have operand : values index = ⟨.literalType, (values index).span⟩ := by
      rw [← isType, alike index]
    rw [isType]
    dsimp only
    rw [operand]
    apply AreSuffixes.body takes (IsLiteralValue.intro (.inl rfl)) left enough
    exact fun span => suffixes_done (by simp) (endsOperand_of_endsPiece ends) ⟨rfl, rfl⟩
  · refine ⟨value, 0, fun supply left index _ rest ends => ?_⟩
    rw [literalBody, if_neg isType]
    exact suffixes_done (alike index ▸ isType) (endsOperand_of_endsPiece ends) ⟨rfl, alike index⟩

variable {ι : Type} {bound : Nat} (known : Known bound)
include known

private theorem literalElement_completable :
    Completable (fun deeper (_ : ι) => literalElement deeper) (endsPiece .free) 3 bound [.identifier] := by
  have value : ∀ ι : Type,
    Completable (fun deeper (_ : ι) => discard (deeper.expression .free)) (endsPiece .free) 3 bound
      [.identifier] := fun ι => (known.expression ι .free).discard
  refine (value _).like (.atOperator_no nofun) (Nat.le_refl _) fun kind kinds inside => ?_
  exact .atOperator (fun _ => .ite_pos rfl ((known.literalValue _).on inside (fun _ _ => rfl) (by decide))) fun _ =>
    .ite_neg Bool.false_ne_true ((value _).on inside (fun _ => id) (Nat.le_refl _))

private theorem literalElements_completable : Completable (fun deeper (_ : ι) => do
    commaList .rightBrace do
      literalElement deeper
      if ← eatOperator .colon then literalElement deeper
    expectOperator .rightBrace) anything 4 bound [.operator .rightBrace] := by
  have keyed : ∀ ι : Type, Completable (fun deeper (_ : ι) => do if ← eatOperator .colon then literalElement deeper)
      (· == some (.operator .rightBrace)) 0 bound [] := by
    intro ι
    refine .intro () (List.nil_subset _) (Nat.le_refl _) ?_ fun kind kinds inside => ?_
    · refine ⟨0, fun supply left _ _ rest ends => ?_⟩
      obtain ⟨later, rfl⟩ := List.head?_eq_some_iff.mp (beq_iff_eq.mp ends)
      apply Runs.bind
      apply Runs.eatOperator_no (by simp)
      exact Runs.pure ⟨rfl, rfl⟩
    · refine .eatOperator (fun _ => .ite_pos rfl ?_) fun _ => .ite_neg Bool.false_ne_true (.pure fun _ => rfl)
      refine (literalElement_completable known).on (Nat.lt_of_succ_lt inside) (fun _ ends => ?_) (by decide)
      rw [beq_iff_eq.mp ends]
      rfl
  have element : ∀ ι : Type, Completable (fun deeper (_ : ι) => do
      literalElement deeper
      if ← eatOperator .colon then literalElement deeper) (· == some (.operator .rightBrace)) 3
        bound [.identifier] := by
    intro ι
    refine (literalElement_completable known).bind (fun _ => keyed _) (fun rest ends => ?_) (Nat.le_refl _)
    rw [List.nil_append, beq_iff_eq.mp ends]
    rfl
  exact (commaList_completable element rfl (by decide)).bind
    (fun _ => Completable.expectOperator (by decide)) (fun _ _ => rfl)
    (Nat.le_refl _)

theorem literalValue_completable : Completable (fun deeper (_ : ι) => literalValue deeper) anything 2 (bound + 1)
    [.operator .leftBrace, .operator .rightBrace] :=
  .expecting (beq_self_eq_true _) (by decide) (literalElements_completable known) (Nat.le_refl _) (by decide)

private theorem selector_completable (base : Shape) :
    Completable (fun deeper (_ : ι) => selector deeper base) anything 1 bound [.identifier] := by
  refine .intro (if base = .identifier then .qualifiedName
      else .other) (by decide) (Nat.le_refl _) ?_ fun kind kinds inside =>
    .peekKind ?_
  · refine ⟨0, fun supply left _ _ rest _ => ?_⟩
    apply Runs.bind
    apply Runs.peekKind_cons
    apply Runs.bind
    apply Runs.bump
    exact Runs.pure ⟨rfl, rfl⟩
  · cases kind with
    | identifier => exact .bump (.pure fun _ => rfl)
    | operator operator =>
      cases operator with
      | leftParen =>
        have closed : ∀ (ι : Type) (shape : Shape), Completable (fun _ (_ : ι) => do
            expectOperator .rightParen
            return shape) anything 1 bound [.operator .rightParen] :=
          fun ι shape => (Completable.expectOperator (by decide)).returning fun _ _ _ _ => rfl
        have typed : ∀ ι : Type, Completable (fun deeper (_ : ι) => do
            discard deeper.type
            expectOperator .rightParen
            return Shape.other) anything 2 bound [.identifier, .operator .rightParen] := fun ι =>
          (known.type ι).discard.bind (fun _ => closed _ .other) (fun _ _ => rfl) (Nat.le_refl _)
        have asserted : ∀ ι : Type, Completable (fun deeper (_ : ι) => do
            if ← atKeyword .type then
              bump
              expectOperator .rightParen
              return Shape.typeGuard
            else
              discard deeper.type
              expectOperator .rightParen
              return Shape.other) anything 2 bound [.identifier, .operator .rightParen] := by
          intro ι
          refine (typed ι).like (.atKeyword_no nofun) (Nat.le_refl _) fun kind kinds inside => ?_
          refine .atKeyword (fun _ => .ite_pos rfl (.bump ?_)) fun _ =>
            .ite_neg Bool.false_ne_true ((typed ι).on inside (fun _ => id) (Nat.le_refl _))
          exact (closed _ .typeGuard).on (Nat.lt_of_succ_lt inside) (fun _ => id) (by decide)
        simp only [pure_bind]
        exact .bump ((asserted _).on (Nat.lt_of_succ_lt inside) (fun _ => id) (by decide))
      | _ => exact .rejectNext
    | keyword | literal | semicolon | illegal => exact .rejectNext

private theorem sliceBounds_completable (colons : Nat) :
    Completable (fun deeper (_ : ι) => sliceBounds deeper colons) (· == some (.operator .rightBracket)) 0 bound [] := by
  induction colons generalizing ι with
  | zero => exact .pure fun _ => rfl
  | succ colons ih =>
    have bounded : ∀ {ι : Type} {kinds : List TokenKind}, kinds.length < bound → Prospect [] (fun deeper (_ : ι) => do
        discard (deeper.expression .free)
        sliceBounds deeper colons) (fun _ _ => True) (· == some (.operator .rightBracket)) (share + 0) kinds := by
      intro ι kinds inside
      refine (known.expression ι .free).discard.prospect kinds inside |>.followed (fun _ => ih)
        (fun _ rest ends => ?_) inside
        (by decide)
      rw [List.nil_append, beq_iff_eq.mp ends]
      rfl
    refine .intro () (List.nil_subset _) (Nat.le_refl _) ?_ fun kind kinds inside => ?_
    · refine ⟨0, fun supply left _ _ rest ends => ?_⟩
      obtain ⟨later, rfl⟩ := List.head?_eq_some_iff.mp (beq_iff_eq.mp ends)
      exact sliceBounds_done ⟨rfl, rfl⟩
    · refine .eatOperator (fun _ => .ite_pos rfl ?_) fun _ => .ite_neg Bool.false_ne_true (.pure fun _ => rfl)
      cases kinds with
      | nil =>
        refine .finishes () trivial [] (List.nil_subset _) (Nat.zero_le _) ⟨0, fun supply left _ _ rest ends => ?_⟩
        obtain ⟨later, rfl⟩ := List.head?_eq_some_iff.mp (beq_iff_eq.mp ends)
        apply Runs.bind
        apply Runs.atOperator_no (by simp)
        apply Runs.ite_pos rfl
        apply Runs.bind
        apply Runs.atOperator_yes
        apply Runs.ite_neg Bool.false_ne_true
        exact sliceBounds_done ⟨rfl, rfl⟩
      | cons kind kinds =>
        have inside := Nat.lt_of_succ_lt inside
        have done : Prospect [] (fun deeper (_ : ι) => sliceBounds deeper colons) (fun _ _ => True)
          (· == some (.operator .rightBracket)) (share + 0) (kind :: kinds) := ih.on inside (fun _ => id) (by decide)
        refine .atOperator (fun _ => .ite_neg Bool.false_ne_true done) fun _ => .ite_pos rfl ?_
        exact .atOperator (fun _ => .ite_neg Bool.false_ne_true done) fun _ => .ite_pos rfl (bounded inside)

private theorem indexOrSlice_completable :
    Completable (fun deeper (_ : ι) => indexOrSlice deeper) (· == some (.operator .rightBracket)) 3
      bound [.identifier] := by
  have value : ∀ ι : Type, Completable (fun deeper (_ : ι) => do
      discard (deeper.expression .free)
      sliceBounds deeper 2) (· == some (.operator .rightBracket)) 3 bound [.identifier] := by
    intro ι
    refine (known.expression ι .free).discard.bind (fun _ => sliceBounds_completable known 2)
      (fun rest ends => ?_) (Nat.le_refl _)
    rw [List.nil_append, beq_iff_eq.mp ends]
    rfl
  refine (value ι).like (.atOperator_no nofun) (Nat.le_refl _) fun kind kinds inside => ?_
  exact .atOperator (fun _ =>
    .ite_neg Bool.false_ne_true ((sliceBounds_completable known 2).on inside (fun _ => id) (by decide)))
    fun _ => .ite_pos rfl ((value _).on inside (fun _ => id) (Nat.le_refl _))

private theorem callArguments_completable :
    Completable (fun deeper (_ : ι) => callArguments deeper) (· == some (.operator .rightParen)) 3 bound [] := by
  have spread : ∀ ι : Type,
    Completable (fun _ (_ : ι) => discard (eatOperator .ellipsis)) (· == some (.operator .rightParen))
      0 bound [] := by
    intro ι
    refine .intro () (List.nil_subset _) (Nat.le_refl _) ?_ fun kind kinds inside => ?_
    · refine ⟨0, fun supply left _ _ rest ends => ?_⟩
      obtain ⟨later, rfl⟩ := List.head?_eq_some_iff.mp (beq_iff_eq.mp ends)
      apply Runs.discard
      exact Runs.eatOperator_no (by simp) ⟨rfl, rfl⟩
    · have eaten : Prospect [] (fun _ (_ : ι) => eatOperator .ellipsis) (fun _ _ => True)
        (· == some (.operator .rightParen)) 0
          (kind :: kinds) := .congr (fun _ _ => (bind_pure _).symm) (.eatOperator (fun _ => .pure fun _ => rfl) fun _ =>
            .pure fun _ => rfl)
      exact eaten.map (fun _ _ _ => rfl) fun _ _ _ => trivial
  have argument : ∀ ι : Type, Completable (fun deeper (_ : ι) => do
      discard (deeper.expression .free)
      discard (eatOperator .ellipsis)) (· == some (.operator .rightParen)) 3 bound [.identifier] := by
    intro ι
    refine (known.expression ι .free).discard.bind (fun _ => spread _) (fun rest ends => ?_) (Nat.le_refl _)
    rw [List.nil_append, beq_iff_eq.mp ends]
    rfl
  exact commaList_completable argument rfl (by decide)

private theorem suffix_prospect (place : Place) (shape : Shape) {operator : Operator} {kinds : List TokenKind}
    (inside : kinds.length < bound) :
    Prospect [] (fun deeper (_ : ι) => suffix deeper place shape operator) (fun _ _ => True) anything 0
      (.operator operator :: kinds) := by
  have bracketed : ∀ ι : Type, Completable (fun _ (_ : ι) => do
      expectOperator .rightBracket
      return some Shape.other) anything 1 bound [.operator .rightBracket] := fun ι =>
    (Completable.expectOperator (by decide)).returning fun _ _ _ _ => rfl
  have closed : ∀ ι : Type, Completable (fun _ (_ : ι) => do
      expectOperator .rightParen
      return some Shape.other) anything 1 bound [.operator .rightParen] := fun ι =>
    (Completable.expectOperator (by decide)).returning fun _ _ _ _ => rfl
  cases operator with
  | period => exact .bump (((selector_completable known shape).on inside (fun _ => id) (by decide)).returning fun _ _ _ same => congrArg some same)
  | leftBracket =>
    exact .bump (((indexOrSlice_completable known).bind (fun _ => bracketed _)
      (fun _ _ => rfl) (Nat.le_refl _)).on inside
      (fun _ => id) (by decide))
  | leftParen =>
    exact .bump (((callArguments_completable known).bind (fun _ => closed _) (fun _ _ => rfl) (Nat.le_refl _)).on inside
      (fun _ => id) (by decide))
  | leftBrace =>
    by_cases takes : shape.takesLiteralBody = true ∧ (place = .free ∨ ¬ shape.isTypeName = true)
    · refine .ite_pos takes ?_
      have body : Prospect [] (fun deeper (_ : ι) => literalValue deeper) (fun _ _ => True) anything 0
          (.operator .leftBrace :: kinds) :=
        .expect fun _ => (literalElements_completable known).on inside (fun _ => id) (by decide)
      exact body.returning fun _ _ _ _ => rfl
    · exact .ite_neg takes (.pure fun _ => rfl)
  | _ => exact .pure fun _ => rfl

omit known in
private theorem suffixTurn_completable {value : Expression} {values : ι → Expression}
    (alike : ∀ index, Alike.alike value (values index)) (found : Option Shape) :
    Completable (fun _ (pair : Following ι found) => do
      match pair.1.2 with
      | none => return .done (values pair.1.1)
      | some shape => return .again ⟨shape, ← spanFrom (values pair.1.1).span⟩ :
            Programs _ (Turn Expression Expression))
      anything 0 (bound + 1) [] := by
  have sameFound : ∀ pair : Following ι found, pair.1.2 = found := fun pair => pair.2.symm
  have done : ∀ index, Alike.alike (Turn.done value : Turn Expression Expression) (.done (values index)) := alike
  simp only [sameFound]
  cases found with
  | none => exact .pure fun pair => done pair.1.1
  | some shape =>
    have again : ∀ span,
        Alike.alike (Turn.again ⟨shape, value.span⟩ : Turn Expression Expression) (.again ⟨shape, span⟩) :=
      fun _ => rfl
    exact .spanFrom (.pure fun pair => again pair.2)

theorem suffixes_completable (place : Place) {value : Expression} {values : ι → Expression}
    (alike : ∀ index, Alike.alike value (values index)) :
    Completable (fun deeper index => suffixes deeper place (values index))
      (endsPiece place) 2 (bound + 1) (literalBody value.shape) := by
  refine ⟨fun kinds inside => ?_, literalBody_plain _, literalBody_short _, suffixes_closed place alike⟩
  refine .iterate (fun ι value values alike kind kinds inside => (?_ : Prospect _ _ (fun _ _ => True) _ _ _))
    (fun ι value values alike => ?_) (fun _ _ => rfl) alike inside (Nat.le_refl (0 + 2))
  · have sameShape : ∀ index, (values index).shape = value.shape := fun index => (alike index).symm
    have done : ∀ index, Alike.alike (Turn.done value : Turn Expression Expression) (.done (values index)) := alike
    simp only [sameShape]
    refine .peekOperator ?_
    cases kind with
    | operator operator =>
      exact (suffix_prospect known place value.shape (Nat.lt_of_succ_lt_succ inside)).followed
        (suffixTurn_completable alike)
        (fun _ _ _ => rfl) inside (Nat.le_refl _)
    | identifier | keyword | literal | semicolon | illegal => exact .pure done
  · obtain ⟨result, passes⟩ := suffixes_closed place alike
    exact ⟨result, _, literalBody_plain _, literalBody_short _, passes, fun _ _ _ => rfl⟩

/-- The operand starts with a token that is already known. -/
private theorem operandShape_prospect {kind : TokenKind} {kinds : List TokenKind} (inside : kinds.length < bound) :
    Prospect [] (fun deeper (pair : ι × { token : Token // token.kind = kind }) =>
      operandShape deeper pair.2.1) (fun _ _ => True)
      (endsPiece .header) 1 (kind :: kinds) := by
  have isKind : ∀ pair : ι × { token : Token // token.kind = kind }, pair.2.1.kind = kind := fun pair => pair.2.2
  have closed : ∀ ι : Type, Completable (fun _ (_ : ι) => do
      expectOperator .rightParen
      return Shape.other) (endsPiece .header) 1 bound [.operator .rightParen] := fun ι =>
    ((Completable.expectOperator (by decide)).weaken (fun _ _ => rfl) (Nat.le_refl _)).returning fun _ _ _ _ => rfl
  have body : ∀ ι : Type, Completable (fun deeper (_ : ι) => do
      optionalBlock deeper
      return Shape.other) (endsPiece .header) 2 bound [.operator .leftBrace, .operator .rightBrace] := fun ι =>
    (((optionalBlock_completable known).lower (Nat.le_succ _)).weaken (fun _ _ => rfl) (Nat.le_refl _)).returning
      fun _ _ _ _ => rfl
  simp only [operandShape, isKind]
  cases kind with
  | literal => exact .bump (.pure fun _ => rfl)
  | identifier => exact .bump (.pure fun _ => rfl)
  | operator operator =>
    cases operator with
    | leftParen =>
      exact .bump (((known.expression _ .free).discard.bind (fun _ => closed _)
        (fun _ _ => rfl) (Nat.le_refl _)).on inside
        (fun _ => id) (by decide))
    | leftBracket => exact (arrayType_prospect known true inside).weaken (fun _ _ => id) (fun _ => id) (by decide)
    | _ => exact .unexpected isKind
  | keyword keyword =>
    cases keyword with
    | map => exact (mapType_prospect known inside).weaken (fun _ _ => id) (fun _ => id) (by decide)
    | struct => exact (structType_prospect known inside).weaken (fun _ _ => id) (fun _ => id) (by decide)
    | chan | interface =>
      exact ((type_completable known).discard.returning fun _ _ _ _ => rfl).on (Nat.succ_lt_succ inside) (fun _ => id)
        (Nat.le_refl _)
    | func =>
      exact .bump (((signature_completable known).bind (fun _ => body _) (fun _ _ => rfl) (Nat.le_refl _)).on inside
        (fun _ => id) (by decide))
    | _ => exact .unexpected isKind
  | semicolon | illegal => exact .unexpected isKind

private theorem operand_completable :
    Completable (fun deeper (_ : ι) => operand deeper) (endsPiece .header) 1 (bound + 1) [.identifier] := by
  have name : Passes (fun deeper (_ : ι) => operand deeper) [.identifier] [] (endsPiece .header)
      (anywhere .identifier) :=
    .of_reads (fun _ => IsOperand.name.reads) (fun _ _ => rfl) fun _ => Eq.symm
  refine .intro _ (by decide) (Nat.le_refl _) name fun kind kinds inside => .peek ?_
  have ending : ∀ shape : Shape,
      Completable (fun _ (pair : Following (ι × { token : Token // token.kind = kind }) shape) => do
      return ⟨pair.1.2, ← spanFrom pair.1.1.2.1.span⟩ : Programs _ Expression)
        (endsPiece .header) 0 (bound + 1) [] := by
    intro shape
    have sameShape : ∀ pair : Following (ι × { token : Token // token.kind = kind }) shape × Span,
        Alike.alike (anywhere shape) ⟨pair.1.1.2, pair.2⟩ := fun pair => pair.1.2
    exact .spanFrom (.pure sameShape)
  exact (operandShape_prospect known (Nat.lt_of_succ_lt_succ inside)).followed ending
    (fun _ _ => id) inside (Nat.le_refl _)

theorem primary_completable (place : Place) :
    Completable (fun deeper (_ : ι) => primary deeper place) (endsPiece place) 3 (bound + 1) [.identifier] := by
  have name : Passes (fun deeper (_ : ι) => primary deeper place) [.identifier] [] (endsPiece place)
      (anywhere .identifier) :=
    .of_reads (fun _ => (IsPrimary.ofOperand .name (by decide)).reads) (fun _ => endsOperand_of_endsPiece) fun _ =>
      Eq.symm
  refine .intro _ (by decide) (by decide) name fun kind kinds inside => ?_
  exact ((operand_completable known).prospect (kind :: kinds) inside).followed
    (fun value => suffixes_completable known place fun pair => pair.2)
      (fun value _ => literalBody_joins value.shape) inside
    (Nat.le_refl _)

end GoPrompt
