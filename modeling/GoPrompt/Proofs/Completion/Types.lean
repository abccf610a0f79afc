import GoPrompt.Grammar.Statement
import GoPrompt.Proofs.Acceptance.Blocks
import GoPrompt.Proofs.Completion.Sequences

/-! Types, parameters and the lines of struct and interface types can be finished wherever the text ends. -/

namespace GoPrompt

open Parse Grammar

/-- What follows a piece of the text that has been finished. -/
def endsPiece (place : Place) : Option TokenKind → Bool
  | none | some (.semicolon _) => true
  | some (.operator operator) =>
    [.rightParen, .rightBracket, .rightBrace, .colon, .assign].contains operator ||
      (operator == .leftBrace && place == .header)
  | _ => false

/-- The readers of the level below can be finished on all kinds shorter than the bound. -/
structure Known (bound : Nat) : Prop where
  type (ι : Type) : Completable (fun deeper (_ : ι) => deeper.type) (endsPiece .header) 1 bound [.identifier]
  unary (ι : Type) (place : Place) :
    Completable (fun deeper (_ : ι) => deeper.unary place) (endsPiece place) 3 bound [.identifier]
  expression (ι : Type) (place : Place) :
    Completable (fun deeper (_ : ι) => deeper.expression place) (endsPiece place) 3 bound [.identifier]
  literalValue (ι : Type) :
    Completable (fun deeper (_ : ι) => deeper.literalValue) anything 2 bound
      [.operator .leftBrace, .operator .rightBrace]
  statement (ι : Type) (context : Context) :
    Completable (fun deeper (_ : ι) => deeper.statement context) endsStatement 8 bound [.identifier]
  ifStatement (ι : Type) (kinds : List TokenKind) (inside : kinds.length + 1 < bound) :
    Prospect [] (fun deeper (_ : ι) => deeper.ifStatement) (fun _ _ => True) endsStatement 8 (.keyword .if :: kinds)

/-- What follows a piece ends an expression and a type as well, and would end a piece in a header. -/
theorem ends_of_endsPiece {place : Place} {next : Option TokenKind} (ends : endsPiece place next = true) :
    endsExpression place next = true ∧ endsType next = true ∧ endsPiece .header next = true := by
  cases next with
  | none => exact ⟨rfl, rfl, rfl⟩
  | some kind =>
    cases kind with
    | operator operator => revert ends; cases place <;> cases operator <;> decide
    | semicolon => exact ⟨rfl, rfl, rfl⟩
    | identifier | keyword | literal | illegal => cases ends

theorem endsOperand_of_endsPiece {place : Place} {next : Option TokenKind} (ends : endsPiece place next = true) :
    endsOperand place next = true := (Bool.and_eq_true_iff.mp (ends_of_endsPiece ends).1).1

theorem endsPiece_header {place : Place} {next : Option TokenKind} (ends : endsPiece place next = true) :
    endsPiece .header next = true := (ends_of_endsPiece ends).2.2

section

variable {ι : Type} {bound : Nat}

private theorem trailing_completable {item : Deeper → Parse Unit} {stops : Option TokenKind → Bool}
    {more : List TokenKind} (items : ∀ ι : Type, Completable (fun deeper (_ : ι) => item deeper) stops 3 bound more)
    (noComma : ∀ next, stops next = true → next ≠ some (.operator .comma)) :
    Completable (fun deeper (_ : ι) => repeatUntil do
      if ← eatOperator .comma then
        item deeper
        return false
      else return true) stops 0 bound [] := by
  refine .repeatUntil (fun ι kind kinds inside => ?_) (List.nil_subset _) (Nat.le_refl _) (fun ι => ?_) (fun _ => id)
    (fun _ => id) (Nat.le_refl _)
  · refine .eatOperator (fun _ => .ite_pos rfl ?_) fun _ => .ite_neg Bool.false_ne_true (.pure fun _ => rfl)
    exact ((items ι).on (Nat.lt_of_succ_lt inside) (fun _ => id) (by decide)).returning fun _ _ _ _ => rfl
  · refine ⟨0, fun supply left index _ rest ends => ?_⟩
    apply Runs.repeatUntil_done
    apply Runs.bind
    apply Runs.eatOperator_no (noComma _ ends)
    apply Runs.ite_neg Bool.false_ne_true
    exact Runs.pure ⟨rfl, rfl, rfl⟩

theorem nameList_completable :
    Completable (fun _ (_ : ι) => nameList) (· != some (.operator .comma)) 1 bound [.identifier] := by
  have more : Completable (fun _ (_ : Following ι ()) => _) (· != some (.operator .comma)) 0 bound [] :=
    trailing_completable (fun _ => Completable.expectName.weaken (fun _ _ => rfl) (by decide)) fun _ => bne_iff_ne.mp
  exact Completable.expectName.bind (fun _ => more) (fun _ _ => rfl) (Nat.le_refl _)

private theorem typeName_completable :
    Completable (fun _ (_ : ι) => typeName) (endsPiece .header) 1 bound [.identifier] := by
  have qualified : Completable (fun _ (_ : Following ι ()) => do
      if ← eatOperator .period then
        expectName
        return Shape.qualifiedName
      else return .identifier) (endsPiece .header) 0 bound [] := by
    refine .intro Shape.identifier (List.nil_subset _) (Nat.le_refl _) ?_ fun kind kinds inside => ?_
    · refine ⟨0, fun supply left index _ rest ends => ?_⟩
      apply Runs.bind
      apply Runs.eatOperator_no (apart ends rfl)
      exact Runs.pure ⟨rfl, rfl⟩
    · refine .eatOperator (fun _ => .ite_pos rfl ?_) fun _ => .ite_neg Bool.false_ne_true (.pure fun _ => rfl)
      exact (Completable.expectName.on (Nat.lt_of_succ_lt inside) (fun _ _ => rfl) (by decide)).returning fun _ _ _ _ =>
        rfl
  exact Completable.expectName.bind (fun _ => qualified) (fun _ _ => rfl) (Nat.le_refl _)

theorem Passes.of_reads {α : Type} [Alike α] {program : Deeper → Parse α} {kinds : List TokenKind}
    {stops stops' : Option TokenKind → Bool} {level : Nat} {post : α → Prop} {value : α}
    (reads : ∀ supply, Reads supply level program kinds stops post)
    (joins : ∀ next, stops' next = true → stops next = true) (alike : ∀ found, post found → Alike.alike value found) :
    Passes (fun deeper (_ : ι) => program deeper) kinds [] stops' value := by
  refine ⟨level, fun supply left _ enough rest ends => ?_⟩
  apply (reads supply left enough).run (joins _ ends)
  exact fun found holds => ⟨rfl, alike found holds⟩

section lists

variable {item : Deeper → Parse Unit} {more : List TokenKind} {stops : Option TokenKind → Bool} {closer : Operator}
  {cost : Nat}

private theorem memberEnd_completable : Completable (fun _ (_ : ι) => do
    match ← peekKind 0 with
    | some (.semicolon _) =>
      bump
      return false
    | kind => if kind = some (.operator closer) then return true else rejectNext [";", closer.lexeme])
    (· == some (.operator closer)) 0 bound [] := by
  refine .intro true (List.nil_subset _) (Nat.le_refl _) ?_ fun kind kinds inside => .peekKind ?_
  · refine ⟨0, fun supply left _ _ rest ends => ?_⟩
    apply Runs.bind
    apply Runs.peekKind_head
    rw [List.nil_append, beq_iff_eq.mp ends]
    exact Runs.ite_pos rfl (Runs.pure ⟨rfl, rfl⟩)
  · cases kind with
    | semicolon => exact .bump (.pure fun _ => rfl)
    | operator operator =>
      by_cases same : some (TokenKind.operator operator) = some (.operator closer)
      · exact .ite_pos same (.pure fun _ => rfl)
      · exact .ite_neg same .rejectNext
    | identifier | keyword | literal | illegal => exact .ite_neg (by simp) .rejectNext

private theorem member_prospect
    (items : ∀ ι : Type, Completable (fun deeper (_ : ι) => item deeper) stops cost bound more)
    (closes : stops (some (.operator closer)) = true) (ι : Type) (kinds : List TokenKind)
    (inside : kinds.length < bound) :
    Prospect [] (fun deeper (_ : ι) => do
      item deeper
      match ← peekKind 0 with
      | some (.semicolon _) =>
        bump
        return false
      | kind => if kind = some (.operator closer) then return true else rejectNext [";", closer.lexeme])
      (fun _ _ => True) (· == some (.operator closer)) cost kinds :=
  ((items ι).prospect kinds inside).followed (fun _ => memberEnd_completable)
    (fun _ rest ends => by rw [List.nil_append, beq_iff_eq.mp ends, closes]) inside (Nat.le_refl _)

theorem semicolonList_completable
    (items : ∀ ι : Type, Completable (fun deeper (_ : ι) => item deeper) stops cost bound more)
    (closes : stops (some (.operator closer)) = true) :
    Completable (fun deeper (_ : ι) => semicolonList closer (item deeper))
      (· == some (.operator closer)) cost bound [] := by
  refine .repeatUntil (fun ι kind kinds inside => .peekKind ?_) (List.nil_subset _) (Nat.le_refl _) (fun ι => ?_)
    (fun _ => id) (fun _ => id) (Nat.le_refl _)
  · have member := member_prospect items closes ι (kind :: kinds) inside
    cases kind with
    | semicolon => exact .bump (.pure fun _ => rfl)
    | operator operator =>
      by_cases same : some (TokenKind.operator operator) = some (.operator closer)
      · exact .ite_pos same (.pure fun _ => rfl)
      · exact .ite_neg same member
    | identifier | keyword | literal | illegal => exact .ite_neg (by simp) member
  · refine ⟨0, fun supply left _ _ rest ends => ?_⟩
    apply Runs.repeatUntil_done
    apply Runs.bind
    apply Runs.peekKind_head
    rw [List.nil_append, beq_iff_eq.mp ends]
    exact Runs.ite_pos rfl (Runs.pure ⟨rfl, rfl, rfl⟩)

private theorem itemEnd_completable (differs : closer ≠ .comma) : Completable (fun _ (_ : ι) => do
    match ← peekOperator 0 with
    | some .comma =>
      bump
      return false
    | operator => if operator = some closer then return true else rejectNext [",", closer.lexeme])
    (· == some (.operator closer)) 0 bound [] := by
  refine .intro true (List.nil_subset _) (Nat.le_refl _) ?_ fun kind kinds inside => .peekOperator ?_
  · refine ⟨0, fun supply left _ _ rest ends => ?_⟩
    apply Runs.bind
    apply Runs.peekOperator_head
    rw [List.nil_append, beq_iff_eq.mp ends]
    split
    next same => exact absurd (Option.some.inj same) differs
    next => exact Runs.ite_pos rfl (Runs.pure ⟨rfl, rfl⟩)
  · cases kind.operator? with
    | none => exact .ite_neg (Option.some_ne_none closer).symm .rejectNext
    | some operator =>
      by_cases same : some operator = some closer
      · obtain rfl := Option.some.inj same
        cases operator with
        | comma => exact absurd rfl differs
        | _ => exact .ite_pos rfl (.pure fun _ => rfl)
      · cases operator with
        | comma => exact .bump (.pure fun _ => rfl)
        | _ => exact .ite_neg same .rejectNext

theorem commaList_completable
    (items : ∀ ι : Type, Completable (fun deeper (_ : ι) => item deeper) stops cost bound more)
    (closes : stops (some (.operator closer)) = true) (differs : closer ≠ .comma) :
    Completable (fun deeper (_ : ι) => commaList closer (item deeper))
      (· == some (.operator closer)) cost bound [] := by
  refine .repeatUntil (fun ι kind kinds inside => ?_) (List.nil_subset _) (Nat.le_refl _) (fun ι => ?_) (fun _ => id)
    (fun _ => id) (Nat.le_refl _)
  · refine .atOperator (fun _ => .ite_pos rfl (.pure fun _ => rfl)) fun _ => .ite_neg Bool.false_ne_true ?_
    exact ((items ι).prospect (kind :: kinds) inside).followed (fun _ => itemEnd_completable differs)
      (fun _ rest ends => by rw [List.nil_append, beq_iff_eq.mp ends, closes]) inside (Nat.le_refl _)
  · refine ⟨0, fun supply left _ _ rest ends => ?_⟩
    obtain ⟨later, rfl⟩ := List.head?_eq_some_iff.mp (beq_iff_eq.mp ends)
    apply Runs.repeatUntil_done
    apply Runs.bind
    apply Runs.atOperator_yes
    exact Runs.ite_pos rfl (Runs.pure ⟨rfl, rfl, rfl⟩)

end lists

section known

variable (known : Known bound)
include known

private theorem element_completable : Completable (fun deeper (_ : ι) => do
    expectOperator .rightBracket
    discard deeper.type
    return Shape.literalType) (endsPiece .header) 2 bound [.operator .rightBracket, .identifier] :=
  (Completable.expectOperator (by decide)).bind
    (fun _ => (known.type _).discard.returning fun _ _ _ _ => rfl) (fun _ _ => rfl)
    (Nat.le_refl _)

private theorem arrayLength_completable (literalFollows : Bool) : Completable (fun deeper (_ : ι) => do
    match ← peekOperator 0 with
    | some .rightBracket => pure ()
    | some .ellipsis => if literalFollows then bump else discard (deeper.expression .free)
    | _ => discard (deeper.expression .free)
    expectOperator .rightBracket
    discard deeper.type
    return Shape.literalType) (endsPiece .header) 5 bound [.identifier, .operator .rightBracket, .identifier] := by
  have sized : Completable (fun deeper (_ : ι) => do
      discard (deeper.expression .free)
      expectOperator .rightBracket
      discard deeper.type
      return Shape.literalType) (endsPiece .header) 5 bound [.identifier, .operator .rightBracket, .identifier] :=
    (known.expression ι .free).discard.bind (fun _ => element_completable known) (fun _ _ => rfl) (Nat.le_refl _)
  refine sized.like .peekOperator_cons (Nat.le_refl _) fun kind kinds inside => .peekOperator ?_
  have other := sized.prospect (kind :: kinds) inside
  cases kind with
  | operator operator =>
    cases operator with
    | rightBracket => exact (element_completable known).on inside (fun _ => id) (by decide)
    | ellipsis =>
      cases literalFollows with
      | true => exact .ite_pos rfl (.bump ((element_completable known).on (Nat.lt_of_succ_lt inside) (fun _ => id) (by decide)))
      | false => exact .ite_neg Bool.false_ne_true other
    | _ => exact other
  | _ => exact other

theorem arrayType_prospect (literalFollows : Bool) {kinds : List TokenKind} (inside : kinds.length < bound) :
    Prospect [] (fun deeper (_ : ι) => arrayType deeper literalFollows) (fun _ _ => True) (endsPiece .header) 0
      (.operator .leftBracket :: kinds) :=
  .expect fun _ => (arrayLength_completable known literalFollows).on inside (fun _ => id) (by decide)

theorem mapType_prospect {kinds : List TokenKind} (inside : kinds.length < bound) :
    Prospect [] (fun deeper (_ : ι) => mapType deeper) (fun _ _ => True) (endsPiece .header) 0
      (.keyword .map :: kinds) := by
  have keyed : ∀ ι : Type, Completable (fun deeper (_ : ι) => do
      discard deeper.type
      expectOperator .rightBracket
      discard deeper.type
      return Shape.literalType) (endsPiece .header) 3 bound
        [.identifier, .operator .rightBracket, .identifier] := fun ι =>
    (known.type ι).discard.bind (fun _ => element_completable known) (fun _ _ => rfl) (Nat.le_refl _)
  have opened : Completable (fun deeper (_ : ι) => do
      expectOperator .leftBracket
      discard deeper.type
      expectOperator .rightBracket
      discard deeper.type
      return Shape.literalType) (endsPiece .header) 4 bound
        [.operator .leftBracket, .identifier, .operator .rightBracket, .identifier] :=
    (Completable.expectOperator (by decide)).bind (fun _ => keyed _) (fun _ _ => rfl) (Nat.le_refl _)
  exact .expect fun _ => opened.on inside (fun _ => id) (by decide)

private theorem parameter_completable :
    Completable (fun deeper (_ : ι) => parameter deeper) (· == some (.operator .rightParen)) 1 bound [.identifier] := by
  have types : ∀ {cost : Nat} {kinds : List TokenKind}, kinds.length < bound → 1 ≤ cost →
      Prospect [] (fun deeper (_ : ι) => discard deeper.type) (fun _ _ => True)
        (· == some (.operator .rightParen)) cost kinds :=
    fun inside within => (known.type ι).discard.on inside
      (fun _ ends => by
        rw [beq_iff_eq.mp ends]
        rfl) within
  have named : Passes (fun deeper (_ : ι) => parameter deeper) [.identifier] []
      (· == some (.operator .rightParen)) () :=
    .of_reads (fun _ => (IsParameter.type IsType.name).reads) (fun _ ends => by simp [endsParameter, ends]) fun _ _ =>
      rfl
  refine .intro () (by decide) (Nat.le_refl _) named fun kind kinds inside => ?_
  by_cases name : kind = .identifier
  · subst name
    cases kinds with
    | nil => exact .finishes () trivial [] (List.nil_subset _) (Nat.zero_le _) named
    | cons second kinds =>
      refine .eatOperator (fun isOperator => by cases isOperator) fun _ =>
        .ite_neg Bool.false_ne_true (.peekKind (.ite_neg (fun differs => differs rfl) ?_))
      refine .peekOperator_second ?_
      have other : Prospect [] (fun deeper (_ : ι) => do
          bump
          if (← peekKind 0).isSome then discard deeper.type) (fun _ _ => True) (· == some (.operator .rightParen)) 1
          (.identifier :: second :: kinds) :=
        .bump (.peekKind (.ite_pos rfl (types (Nat.lt_of_succ_lt inside) (by decide))))
      cases second with
      | operator operator =>
        cases operator with
        | period => exact types inside (by decide)
        | comma | rightParen => exact .bump_last
        | ellipsis =>
          exact .bump (.bump (types (Nat.lt_of_succ_lt (Nat.lt_of_succ_lt inside)) (by decide)))
        | _ => exact other
      | _ => exact other
  · refine .eatOperator (fun _ => .ite_pos rfl (types (Nat.lt_of_succ_lt inside) (by decide))) fun _ =>
      .ite_neg Bool.false_ne_true (.peekKind (.ite_pos (by simpa using name) (types inside (by decide))))

theorem parameters_completable :
    Completable (fun deeper (_ : ι) => parameters deeper) anything 3 bound
      [.operator .leftParen, .operator .rightParen] := by
  have list : ∀ ι : Type, Completable (fun deeper (_ : ι) => do
      commaList .rightParen (parameter deeper)
      expectOperator .rightParen) anything 2 bound [.operator .rightParen] := fun ι =>
    (commaList_completable (fun _ => parameter_completable known) rfl (by decide)).bind
      (fun _ => Completable.expectOperator (by decide)) (fun _ _ => rfl) (Nat.le_refl _)
  exact (Completable.expectOperator (by decide)).bind (fun _ => list _) (fun _ _ => rfl) (Nat.le_refl _)

theorem result_completable : Completable (fun deeper (_ : ι) => result deeper) (endsPiece .header) 3 bound [] := by
  have none : Passes (fun deeper (_ : ι) => result deeper) [] [] (endsPiece .header) () :=
    .of_reads (fun _ => IsResult.none.reads) (fun _ ends => (ends_of_endsPiece ends).2.1) fun _ _ => rfl
  refine .intro () (List.nil_subset _) (Nat.zero_le _) none fun kind kinds inside => ?_
  refine .atOperator
      (fun _ => .ite_pos rfl ((parameters_completable known).on inside (fun _ _ => rfl) (Nat.le_refl _))) fun _ =>
    .ite_neg Bool.false_ne_true ?_
  simp only [atType, bind_assoc, pure_bind]
  refine .peekKind ?_
  by_cases starts : startsType kind = true
  · exact .ite_pos starts ((known.type ι).discard.on inside (fun _ => id) (by decide))
  · exact .ite_neg starts (.pure fun _ => rfl)

theorem signature_completable :
    Completable (fun deeper (_ : ι) => signature deeper) (endsPiece .header) 6 bound
      [.operator .leftParen, .operator .rightParen] :=
  (parameters_completable known).bind (fun _ => result_completable known) (fun _ _ => rfl) (Nat.le_refl _)

private theorem field_completable :
    Completable (fun deeper (_ : ι) => field deeper) (· == some (.operator .rightBrace)) 2 bound [.identifier] := by
  have tagged : ∀ ι : Type, Completable (fun _ (_ : ι) => do if (← peekKind 0) = some (.literal .string) then bump)
      (· == some (.operator .rightBrace)) 0 bound [] := by
    intro ι
    refine .intro () (List.nil_subset _) (Nat.le_refl _) ?_ fun kind kinds inside => .peekKind ?_
    · refine ⟨0, fun supply left _ _ rest ends => ?_⟩
      apply Runs.bind
      apply Runs.peekKind_head
      rw [List.nil_append, beq_iff_eq.mp ends]
      exact Runs.ite_neg nofun (Runs.pure ⟨rfl, rfl⟩)
    · by_cases same : some kind = some (.literal .string)
      · exact .ite_pos same .bump_last
      · exact .ite_neg same (.pure fun _ => rfl)
  have embedded : ∀ {kinds : List TokenKind}, kinds.length < bound → Prospect [] (fun _ (_ : ι) => do
      discard typeName
      if (← peekKind 0) = some (.literal .string) then bump) (fun _ _ => True)
        (· == some (.operator .rightBrace)) 2 kinds := by
    intro kinds inside
    refine Prospect.followed (typeName_completable.discard.prospect kinds inside) (fun _ => tagged _)
      (fun _ rest ends => ?_) inside
      (by decide)
    rw [List.nil_append, beq_iff_eq.mp ends]
    rfl
  have typed : ∀ ι : Type, Completable (fun deeper (_ : ι) => do
      discard deeper.type
      if (← peekKind 0) = some (.literal .string) then bump)
        (· == some (.operator .rightBrace)) 1 bound [.identifier] :=
    fun ι => (known.type ι).discard.bind (fun _ => tagged _)
      (fun rest ends => by
        rw [List.nil_append, beq_iff_eq.mp ends]
        rfl) (Nat.le_refl _)
  have named : Completable (fun deeper (_ : ι) => do
      nameList
      discard deeper.type
      if (← peekKind 0) = some (.literal .string) then bump) (· == some (.operator .rightBrace)) 2 bound
        [.identifier, .identifier] :=
    nameList_completable.bind (fun _ => typed _) (fun _ _ => rfl) (Nat.le_refl _)
  have alone : Passes (fun deeper (_ : ι) => field deeper) [.identifier] [] (· == some (.operator .rightBrace)) () :=
    .of_reads (fun _ => (IsField.embedded (.inl rfl) (.inl rfl)).reads) (fun _ ends => by simp [endsMember, ends])
      fun _ _ => rfl
  refine .intro () (by decide) (by decide) alone fun kind kinds inside => ?_
  by_cases single : kind = .identifier ∧ kinds = []
  · obtain ⟨rfl, rfl⟩ := single
    exact .finishes () trivial [] (List.nil_subset _) (Nat.zero_le _) alone
  refine .peekKind ?_
  cases kind with
  | operator operator =>
    cases operator with
    | mul => exact .bump ((embedded (Nat.lt_of_succ_lt inside)).weaken (fun _ _ => id) (fun _ => id) (by decide))
    | _ => exact .rejectNext_bind
  | identifier =>
    cases kinds with
    | nil => exact absurd ⟨rfl, rfl⟩ single
    | cons second kinds =>
      refine .peekKind_second ?_
      have whole := named.prospect (.identifier :: second :: kinds) inside
      have last : Prospect [] (fun _ (_ : ι) => do
          bump
          if (← peekKind 0) = some (.literal .string) then bump) (fun _ _ => True) (· == some (.operator .rightBrace)) 2
          (.identifier :: second :: kinds) := .bump ((tagged ι).on (Nat.lt_of_succ_lt inside) (fun _ => id) (by decide))
      cases second with
      | operator operator =>
        cases operator with
        | period => exact embedded inside
        | rightBrace => exact last
        | _ => exact whole
      | semicolon => exact last
      | literal literal =>
        cases literal with
        | string => exact last
        | _ => exact whole
      | identifier | keyword | illegal => exact whole
  | keyword | literal | semicolon | illegal => exact .rejectNext_bind

theorem structType_prospect {kinds : List TokenKind} (inside : kinds.length < bound) :
    Prospect [] (fun deeper (_ : ι) => structType deeper) (fun _ _ => True) (endsPiece .header) 0
      (.keyword .struct :: kinds) := by
  have closed : ∀ ι : Type, Completable (fun _ (_ : ι) => do
      expectOperator .rightBrace
      return Shape.literalType) anything 1 bound [.operator .rightBrace] :=
    fun ι => (Completable.expectOperator (by decide)).returning fun _ _ _ _ => rfl
  have members : ∀ ι : Type, Completable (fun deeper (_ : ι) => do
      semicolonList .rightBrace (field deeper)
      expectOperator .rightBrace
      return Shape.literalType) anything 3 bound [.operator .rightBrace] :=
    fun ι => (semicolonList_completable (fun _ => field_completable known) rfl).bind
      (fun _ => closed _) (fun _ _ => rfl)
      (Nat.le_refl _)
  have body : Completable (fun deeper (_ : ι) => do
      expectOperator .leftBrace
      semicolonList .rightBrace (field deeper)
      expectOperator .rightBrace
      return Shape.literalType) anything 4 bound [.operator .leftBrace, .operator .rightBrace] :=
    (Completable.expectOperator (by decide)).bind (fun _ => members _) (fun _ _ => rfl) (Nat.le_refl _)
  exact .expect fun _ => body.on inside (fun _ _ => rfl) (by decide)

/-- A turn of a union that has to be finished is the last one. -/
def endsUnion (passed done : Bool) : Prop := passed = true ∨ done = true

private theorem typeUnion_completable :
    Completable (fun deeper (_ : ι) => typeUnion deeper) (· == some (.operator .rightBrace)) 2 bound [.identifier] := by
  have last : ∀ {ι : Type} {kinds : List TokenKind}, kinds.length < bound → Prospect [] (fun deeper (_ : ι) => do
      discard deeper.type
      return !(← eatOperator .or)) endsUnion (endsPiece .header) 1 kinds := by
    intro ι kinds inside
    have start := ((known.type ι).discard.on inside (fun _ => id) (Nat.le_refl _) : Prospect [] _ _ _ 1 kinds)
    have noMore : Passes (fun _ (_ : Following ι ()) => do return !(← eatOperator .or)) [] []
        (endsPiece .header) true := by
      refine ⟨0, fun supply left _ _ rest ends => ?_⟩
      apply Runs.bind
      apply Runs.eatOperator_no (apart ends rfl)
      exact Runs.pure ⟨rfl, rfl⟩
    refine start.bind (fun _ used rest _ _ => ?_) (fun _ _ => ?_) (by decide : 1 + 0 ≤ 1)
    · cases rest with
      | nil => exact .finishes true (.inr rfl) [] (List.nil_subset _) (Nat.zero_le _) noMore
      | cons kind kinds =>
        exact .eatOperator (fun _ => .answer (fun _ => .inl rfl) fun _ => rfl) fun _ =>
          .answer (fun _ => .inl rfl) fun _ => rfl
    · exact .finishes true (.inr rfl) [] (List.nil_subset _) (Nat.le_refl _) (fun _ => id) noMore
  have turns : ∀ (ι : Type) kind kinds, kinds.length + 1 < bound → Prospect [] (fun deeper (_ : ι) => do
      discard (eatOperator .tilde)
      discard deeper.type
      return !(← eatOperator .or)) endsUnion (endsPiece .header) 1 (kind :: kinds) := by
    intro ι kind kinds inside
    simp only [discard_bind (eatOperator .tilde)]
    exact .eatOperator (fun _ => (last (Nat.lt_of_succ_lt inside)).weaken (fun _ _ => id) (fun _ => id) (by decide))
      fun _ => last inside
  refine .repeatTurns endsUnion turns (by decide) (Nat.le_refl 1) (fun ι => ?_) (fun ends => ?_) (fun next ends => ?_)
    (Nat.le_refl _)
  · have reads : ∀ supply, Reads supply 1 typeUnion [.identifier] endsMember fun _ => True := fun _ _ enough _ ends =>
      typeUnion_runs IsType.name enough ends
    exact .of_reads reads (fun _ ends => by simp [endsMember, ends]) fun _ _ => rfl
  · exact (ends.elim Bool.false_ne_true Bool.false_ne_true).elim
  · rw [beq_iff_eq.mp ends]
    rfl

private theorem interfaceElement_completable :
    Completable (fun deeper (_ : ι) => interfaceElement deeper) (· == some (.operator .rightBrace)) 2
      bound [.identifier] := by
  have named : Passes (fun deeper (_ : ι) => interfaceElement deeper) [.identifier] []
      (· == some (.operator .rightBrace)) () :=
    .of_reads (fun _ => (IsMember.type IsType.name).reads) (fun _ ends => by simp [endsMember, ends]) fun _ _ => rfl
  refine .intro () (by decide) (by decide) named fun kind kinds inside => ?_
  have union := (typeUnion_completable known).prospect (ι := ι) (kind :: kinds) inside
  by_cases name : some kind = some TokenKind.identifier
  · cases Option.some.inj name
    cases kinds with
    | nil => exact .finishes () trivial [] (List.nil_subset _) (Nat.zero_le _) named
    | cons second kinds =>
      refine .peekKind (.ite_pos name (.peekOperator_second ?_))
      by_cases method : second.operator? = some .leftParen
      · refine .ite_pos method (.bump ?_)
        refine (signature_completable known).on (Nat.lt_of_succ_lt inside) (fun _ ends => ?_) (by decide)
        rw [beq_iff_eq.mp ends]
        rfl
      · exact .ite_neg method union
  · exact .peekKind (.ite_neg name union)

private theorem interfaceType_prospect {kinds : List TokenKind} (inside : kinds.length < bound) :
    Prospect [] (fun deeper (_ : ι) => interfaceType deeper) (fun _ _ => True) (endsPiece .header) 0
      (.keyword .interface :: kinds) := by
  have closed : ∀ ι : Type, Completable (fun _ (_ : ι) => do
      expectOperator .rightBrace
      return Shape.other) anything 1 bound [.operator .rightBrace] :=
    fun ι => (Completable.expectOperator (by decide)).returning fun _ _ _ _ => rfl
  have members : ∀ ι : Type, Completable (fun deeper (_ : ι) => do
      semicolonList .rightBrace (interfaceElement deeper)
      expectOperator .rightBrace
      return Shape.other) anything 3 bound [.operator .rightBrace] :=
    fun ι => (semicolonList_completable (fun _ => interfaceElement_completable known) rfl).bind
      (fun _ => closed _) (fun _ _ => rfl)
      (Nat.le_refl _)
  have body : Completable (fun deeper (_ : ι) => do
      expectOperator .leftBrace
      semicolonList .rightBrace (interfaceElement deeper)
      expectOperator .rightBrace
      return Shape.other) anything 4 bound [.operator .leftBrace, .operator .rightBrace] :=
    (Completable.expectOperator (by decide)).bind (fun _ => members _) (fun _ _ => rfl) (Nat.le_refl _)
  exact .expect fun _ => body.on inside (fun _ _ => rfl) (by decide)

theorem typeList_completable :
    Completable (fun deeper (_ : ι) => typeList deeper) (endsPiece .header) 1 bound [.identifier] := by
  have items : ∀ κ : Type,
      Completable (fun deeper (_ : κ) => discard deeper.type) (endsPiece .header) 3 bound [.identifier] :=
    fun κ => (known.type κ).discard.weaken (fun _ => id) (by decide)
  have more : Completable (fun deeper (_ : Following ι ()) => _) (endsPiece .header) 0 bound [] :=
    trailing_completable items fun _ ends => apart ends rfl
  exact (known.type ι).discard.bind (fun _ => more) (fun _ => id) (Nat.le_refl _)

omit known in
theorem typeBodyName_passes :
    Passes (fun deeper (_ : ι) => typeBody deeper) [.identifier] [] (endsPiece .header) Shape.identifier := by
  refine ⟨0, fun supply left _ _ rest ends => ?_⟩
  apply Runs.bind
  apply Runs.peek_cons
  intro token isKind
  simp only [isKind]
  exact typeName_runs (apart ends rfl) ⟨rfl, rfl⟩

private theorem typeBody_completable :
    Completable (fun deeper (_ : ι) => typeBody deeper) (endsPiece .header) 1 (bound + 1) [.identifier] := by
  refine .intro .identifier (by decide) (Nat.le_refl _) typeBodyName_passes fun kind kinds inside => .peek ?_
  have inside : kinds.length < bound := Nat.lt_of_succ_lt_succ inside
  have isKind : ∀ pair : ι × { token : Token // token.kind = kind }, pair.2.1.kind = kind := fun pair => pair.2.2
  simp only [isKind]
  have type : ∀ ι : Type, Completable (fun deeper (_ : ι) => do
      discard deeper.type
      return Shape.other) (endsPiece .header) 1 bound [.identifier] := fun ι =>
    (known.type ι).discard.returning fun _ _ _ _ => rfl
  have element : Completable (fun deeper (_ : ι × { token : Token // token.kind = kind }) => do
      discard (eatOperator .arrow)
      discard deeper.type
      return Shape.other) (endsPiece .header) 1 bound [.identifier] := by
    simp only [discard_bind (eatOperator .arrow)]
    refine (type _).like (.eatOperator_no nofun) (Nat.le_refl _) fun kind kinds inside => ?_
    exact .eatOperator (fun _ => (type _).on (Nat.lt_of_succ_lt inside) (fun _ => id) (by decide)) fun _ =>
      (type _).on inside (fun _ => id) (Nat.le_refl _)
  cases kind with
  | identifier => exact typeName_completable.on (Nat.lt_succ_of_lt (Nat.succ_lt_succ inside)) (fun _ => id) (Nat.le_refl _)
  | operator operator =>
    cases operator with
    | mul => exact .bump ((type _).on inside (fun _ => id) (by decide))
    | leftParen =>
      have closed : ∀ ι : Type, Completable (fun _ (_ : ι) => do
          expectOperator .rightParen
          return Shape.other) anything 1 bound [.operator .rightParen] :=
        fun ι => (Completable.expectOperator (by decide)).returning fun _ _ _ _ => rfl
      exact .bump (((known.type _).discard.bind (fun _ => closed _) (fun _ _ => rfl) (Nat.le_refl _)).on inside
        (fun _ _ => rfl)
        (by decide))
    | leftBracket => exact (arrayType_prospect known false inside).weaken (fun _ _ => id) (fun _ => id) (Nat.zero_le _)
    | arrow =>
      have channel : ∀ ι : Type, Completable (fun deeper (_ : ι) => do
          expectKeyword .chan
          discard deeper.type
          return Shape.other) (endsPiece .header) 2 bound [.keyword .chan, .identifier] :=
        fun ι => (Completable.expectKeyword (by decide)).bind (fun _ => type _) (fun _ _ => rfl) (Nat.le_refl _)
      exact .bump ((channel _).on inside (fun _ => id) (by decide))
    | _ => exact .unexpected fun pair => pair.2.2
  | keyword keyword =>
    cases keyword with
    | chan => exact .bump (element.on inside (fun _ => id) (by decide))
    | map => exact (mapType_prospect known inside).weaken (fun _ _ => id) (fun _ => id) (Nat.zero_le _)
    | func =>
      exact .bump (((signature_completable known).returning fun _ _ _ _ => rfl).on inside (fun _ => id) (by decide))
    | struct => exact (structType_prospect known inside).weaken (fun _ _ => id) (fun _ => id) (Nat.zero_le _)
    | interface => exact (interfaceType_prospect known inside).weaken (fun _ _ => id) (fun _ => id) (Nat.zero_le _)
    | _ => exact .unexpected fun pair => pair.2.2
  | literal | semicolon | illegal => exact .unexpected fun pair => pair.2.2

theorem type_completable :
    Completable (fun deeper (_ : ι) => deeper.type) (endsPiece .header) 1 (bound + 1) [.identifier] :=
  (typeBody_completable known).enter fun _ _ _ => rfl

end known

end

end GoPrompt
