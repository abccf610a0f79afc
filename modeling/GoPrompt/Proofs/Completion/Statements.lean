import GoPrompt.Proofs.Acceptance.Declarations
import GoPrompt.Proofs.Acceptance.Functions
import GoPrompt.Proofs.Completion.Control
import GoPrompt.Proofs.Completion.Expressions
import GoPrompt.Proofs.Completion.Simple

/-! Declarations and statements can be finished wherever the text ends, unless a clause of them is doomed. Behind the
keyword of a declaration, one item stands for all. Of what starts with `func`, the declaration of a function, that of a
method and a function literal all fit until a name or a second list of parameters has settled what it is. The induction
is on the length of what is left of the text, which is less for the readers of the level below. -/

namespace GoPrompt

open Parse Grammar

section

private theorem endsPiece_of_endsItem {next : Option TokenKind} (ends : endsItem next = true) :
    endsPiece .free next = true := by
  refine endsItem_cases ends (fun next ends => ?_) rfl
  rcases endsStatement_cases ends with rfl | ⟨_, rfl⟩ | rfl <;> rfl

private theorem endsItem_of_endsStatement {next : Option TokenKind} (ends : endsStatement next = true) :
    endsItem next = true := by
  rw [endsItem, ends]
  rfl

section groups

variable {ι : Type} {bound cost : Nat} {kind : TokenKind} {more : List TokenKind} {item : Deeper → Parse Unit}

private theorem group_completable
    (items : ∀ ι : Type, Completable (fun deeper (_ : ι) => item deeper) endsItem cost bound (kind :: more))
    (noParen : kind ≠ .operator .leftParen) (short : cost + 1 ≤ share) :
    Completable (fun deeper (_ : ι) => group (item deeper)) endsStatement cost bound (kind :: more) := by
  have alone : ∀ ι : Type,
      Completable (fun deeper (_ : ι) => item deeper) endsStatement cost bound (kind :: more) := fun ι =>
    (items ι).weaken (fun _ => endsItem_of_endsStatement) (Nat.le_refl _)
  have grouped : ∀ ι : Type, Completable (fun deeper (_ : ι) => do
      semicolonList .rightParen (item deeper)
      expectOperator .rightParen) anything (cost + 1) bound [.operator .rightParen] := fun ι =>
    (semicolonList_completable items rfl).bind (fun _ => Completable.expectOperator (by decide))
      (fun _ _ => rfl) (Nat.le_refl _)
  refine (alone ι).like (.eatOperator_no noParen) (Nat.le_refl _) fun kind kinds inside => ?_
  exact .eatOperator
      (fun _ => .ite_pos rfl ((grouped ι).on (Nat.lt_of_succ_lt inside) (fun _ _ => rfl) (by omega))) fun _ =>
    .ite_neg Bool.false_ne_true ((alone ι).on inside (fun _ => id) (Nat.le_refl _))

end groups

variable {ι : Type} {bound : Nat}

private theorem importItem_completable :
    Completable (fun _ (_ : ι) => importItem) endsItem 1 bound [.literal .string] := by
  have path : ∀ ι : Type, Completable (fun _ (_ : ι) => do
      if (← peekKind 0) = some (.literal .string) then bump else rejectNext ["import path"]) endsItem 1 bound
      [.literal .string] := by
    intro ι
    refine .intro () (by decide) (Nat.le_refl _) ⟨0, fun supply left _ _ rest _ => ?_⟩
      fun kind kinds inside => .peekKind ?_
    · apply importPath_runs.weaken
      rintro _ _ ⟨rfl, -⟩
      exact ⟨rfl, rfl⟩
    · by_cases same : some kind = some (.literal .string)
      · exact .ite_pos same .bump_last
      · exact .ite_neg same .rejectNext
  refine (path ι).like .peekKind_cons (Nat.le_refl _) fun kind kinds inside => .peekKind ?_
  have unnamed := (path ι).prospect (kind :: kinds) inside
  have named : Prospect [] (fun _ (_ : ι) => do
      bump
      if (← peekKind 0) = some (.literal .string) then bump
      else rejectNext ["import path"]) (fun _ _ => True) endsItem 1
      (kind :: kinds) := .bump ((path ι).on (Nat.lt_of_succ_lt inside) (fun _ => id) (by decide))
  cases kind with
  | identifier => exact named
  | operator operator =>
    cases operator with
    | period => exact named
    | _ => exact unnamed
  | keyword | literal | semicolon | illegal => exact unnamed

variable (known : Known bound)
include known

private theorem values_completable :
    Completable (fun deeper (_ : ι) => discard (expressionList deeper .free)) endsItem 3 bound [.identifier] :=
  ((expressionList_completable known .free).lower (Nat.le_succ _)).discard.weaken
    (fun _ => endsPiece_of_endsItem) (Nat.le_refl _)

private theorem optionalValues_completable :
    Completable (fun deeper (_ : ι) => optionalValues deeper) endsItem 0 bound [] := by
  refine .intro () (List.nil_subset _) (Nat.le_refl _) ?_ fun kind kinds inside => ?_
  · refine ⟨0, fun supply left _ _ rest ends => ?_⟩
    apply (optionalValues_runs (.inl rfl) (Nat.zero_le _) ends).weaken
    rintro _ _ ⟨rfl, -⟩
    exact ⟨rfl, rfl⟩
  · exact .eatOperator (fun _ =>
      .ite_pos rfl ((values_completable known).on (Nat.lt_of_succ_lt inside) (fun _ => id) (by decide)))
      fun _ => .ite_neg Bool.false_ne_true (.pure fun _ => rfl)

private theorem typed_completable : Completable (fun deeper (_ : ι) => do
    discard deeper.type
    optionalValues deeper) endsItem 1 bound [.identifier] :=
  (known.type ι).discard.bind (fun _ => optionalValues_completable known) (fun _ ends =>
    endsPiece_header (endsPiece_of_endsItem ends))
    (Nat.le_refl _)

private theorem constItem_completable :
    Completable (fun deeper (_ : ι) => constItem deeper) endsItem 2 bound [.identifier] := by
  have rest : ∀ ι : Type, Completable (fun deeper (_ : ι) => do
      if !(← atOperator .assign) then
        if ← atType then discard deeper.type
      optionalValues deeper) endsItem 1 bound [] := by
    intro ι
    refine .intro () (List.nil_subset _) (Nat.zero_le _) ⟨0, fun supply left _ _ rest ends => ?_⟩
      fun kind kinds inside => ?_
    · apply Runs.bind
      apply Runs.atOperator_no (apart ends rfl)
      apply Runs.ite_pos rfl
      apply Runs.bind
      apply atType_runs
      apply Runs.ite_neg (Bool.eq_false_iff.mp (startsType_of_endsType (endsType_of_endsItem ends)))
      apply (optionalValues_runs (.inl rfl) (Nat.zero_le _) ends).weaken
      rintro _ _ ⟨rfl, -⟩
      exact ⟨rfl, rfl⟩
    · have values : ∀ {kind : TokenKind} {kinds : List TokenKind}, kinds.length + 1 < bound →
          Prospect [] (fun deeper (_ : ι) => optionalValues deeper) (fun _ _ => True) endsItem 1
            (kind :: kinds) := fun inside =>
        (optionalValues_completable known).on inside (fun _ => id) (Nat.zero_le _)
      refine .atOperator (fun _ => .ite_neg Bool.false_ne_true (values inside)) fun _ => .ite_pos rfl ?_
      simp only [atType, bind_assoc, pure_bind]
      refine .peekKind ?_
      by_cases starts : startsType kind = true
      · exact .ite_pos starts ((typed_completable known).on inside (fun _ => id) (Nat.le_refl _))
      · exact .ite_neg starts (values inside)
  exact nameList_completable.bind (fun _ => rest _) (fun _ ends => bne_iff_ne.mpr (apart ends rfl)) (Nat.le_refl _)

private theorem varItem_completable :
    Completable (fun deeper (_ : ι) => varItem deeper) endsItem 2 bound [.identifier, .identifier] := by
  have rest : ∀ ι : Type, Completable (fun deeper (_ : ι) => do
      if ← eatOperator .assign then discard (expressionList deeper .free)
      else
        discard deeper.type
        optionalValues deeper) endsItem 1 bound [.identifier] := by
    intro ι
    refine (typed_completable known).like (.eatOperator_no nofun) (Nat.le_refl _) fun kind kinds inside => ?_
    exact .eatOperator (fun _ =>
      .ite_pos rfl ((values_completable known).on (Nat.lt_of_succ_lt inside) (fun _ => id) (by decide)))
      fun _ => .ite_neg Bool.false_ne_true ((typed_completable known).on inside (fun _ => id) (Nat.le_refl _))
  exact nameList_completable.bind (fun _ => rest _) (fun _ _ => rfl) (Nat.le_refl _)

private theorem typeItem_completable :
    Completable (fun deeper (_ : ι) => typeItem deeper) endsItem 2 bound [.identifier, .identifier] := by
  have type : ∀ ι : Type,
      Completable (fun deeper (_ : ι) => discard deeper.type) endsItem 1 bound [.identifier] := fun ι =>
    (known.type ι).discard.weaken (fun _ ends => endsPiece_header (endsPiece_of_endsItem ends)) (Nat.le_refl _)
  have rest : ∀ ι : Type, Completable (fun deeper (_ : ι) => do
      discard (eatOperator .assign)
      discard deeper.type) endsItem 1 bound [.identifier] := by
    intro ι
    simp only [discard_bind (eatOperator .assign)]
    refine (type ι).like (.eatOperator_no nofun) (Nat.le_refl _) fun kind kinds inside => ?_
    exact .eatOperator (fun _ => (type ι).on (Nat.lt_of_succ_lt inside) (fun _ => id) (by decide)) fun _ =>
      (type ι).on inside (fun _ => id) (Nat.le_refl _)
  exact Completable.expectName.bind (fun _ => rest _) (fun _ _ => rfl) (Nat.le_refl _)

end

section

variable {ι : Type} {bound : Nat} (known : Known bound)
include known

private theorem declared_completable (kind : DeclarationKind) : Completable (fun deeper (_ : ι) => do
    signature deeper
    optionalBlock deeper
    return StatementKind.declaration kind) endsStatement 8 bound
    [.operator .leftParen, .operator .rightParen, .operator .leftBrace, .operator .rightBrace] := by
  have body : ∀ ι : Type, Completable (fun deeper (_ : ι) => do
      optionalBlock deeper
      return StatementKind.declaration kind) endsStatement 2 bound
        [.operator .leftBrace, .operator .rightBrace] := fun ι =>
    (((optionalBlock_completable known).lower (Nat.le_succ _)).weaken (fun _ _ => rfl) (Nat.le_refl _)).returning
      fun _ _ _ _ => rfl
  exact (signature_completable known).bind (fun _ => body _) (fun _ _ => rfl) (Nat.le_refl _)

private theorem functionLed_completable (start : ι → Span) : Completable (fun deeper index => do
    let first ← expressionFrom deeper .free ⟨.other, ← spanFrom (start index)⟩
    let left ← expressionListFrom deeper .free first
    return (← simpleFrom deeper .free .statement left).kind) endsStatement 4 bound [] := by
  have values : ∀ {κ : Type} {value : Expression} {found : κ → Expression}, (∀ index, Alike.alike value (found index)) →
      Completable (fun deeper index => do
        let left ← expressionListFrom deeper .free (found index)
        return (← simpleFrom deeper .free .statement left).kind) endsStatement 2 bound [] := by
    intro κ value found alike
    refine .congr (((listedFrom_completable known alike).lower (Nat.le_succ _)).answering SimpleStatement.kind
      fun _ _ _ same => congrArg SimpleStatement.kind same) fun deeper index => ?_
    simp only [bind_assoc]
  have operand : ∀ {κ : Type} (span : κ → Span),
    Completable (fun deeper index => expressionFrom deeper .free ⟨.other, span index⟩)
      (endsPiece .free) 2 bound [] := by
    intro κ span
    have alike : ∀ index, Alike.alike (anywhere .other) (⟨.other, span index⟩ : Expression) := fun _ => rfl
    exact ((suffixes_completable known .free alike).bind (fun _ =>
      binaryTail_completable known .free 1 fun pair => pair.2)
      (fun _ => id) (Nat.le_refl (2 + 0))).lower (Nat.le_succ _)
  exact .spanFrom ((operand Prod.snd).bind (fun value => values fun pair : Following (ι × Span) value => pair.2)
    (fun _ => endsPiece_of_endsSimple) (Nat.le_refl _))

private theorem literalRest_completable (start : ι → Span) : Completable (fun deeper index => do
    result deeper
    optionalBlock deeper
    let first ← expressionFrom deeper .free ⟨.other, ← spanFrom (start index)⟩
    let left ← expressionListFrom deeper .free first
    return (← simpleFrom deeper .free .statement left).kind) endsStatement 9 bound
      [.operator .leftBrace, .operator .rightBrace] := by
  have body : ∀ {κ : Type} (start : κ → Span), Completable (fun deeper index => do
      optionalBlock deeper
      let first ← expressionFrom deeper .free ⟨.other, ← spanFrom (start index)⟩
      let left ← expressionListFrom deeper .free first
      return (← simpleFrom deeper .free .statement left).kind) endsStatement 6 bound
        [.operator .leftBrace, .operator .rightBrace] :=
    fun start => ((optionalBlock_completable known).lower (Nat.le_succ _)).bind (fun _ => functionLed_completable known
      fun pair : Following _ () => start pair.1.1) (fun _ _ => rfl) (Nat.le_refl (2 + 4))
  exact (result_completable known).bind (fun _ => body fun pair : Following ι () => start pair.1.1) (fun _ _ => rfl)
    (Nat.le_refl _)

/-- Behind parameters, a name and more parameters make a method. -/
private theorem receiver_completable (start : ι → Span) : Completable (fun deeper index => do
    let isMethod ←
      if (← peekKind 0) = some .identifier then do pure ((← peekOperator 1) == some .leftParen)
      else pure false
    if isMethod then
      bump
      signature deeper
      optionalBlock deeper
      return .declaration .method
    else
      result deeper
      optionalBlock deeper
      let first ← expressionFrom deeper .free ⟨.other, ← spanFrom (start index)⟩
      let left ← expressionListFrom deeper .free first
      return (← simpleFrom deeper .free .statement left).kind) endsStatement 9 bound
    [.operator .leftBrace, .operator .rightBrace] := by
  simp only [pure_bind, Bool.false_eq_true, ↓reduceIte]
  have literal := literalRest_completable known start
  have method : ∀ κ : Type, Completable (fun deeper (_ : κ) => do
      signature deeper
      optionalBlock deeper
      return StatementKind.declaration .method) endsStatement 8 bound _ := fun κ => declared_completable known .method
  refine literal.like (.trans .peekKind_cons (.of_eq fun _ index => ⟨index, if_neg nofun⟩)) (Nat.le_refl _)
    fun kind kinds inside => .peekKind ?_
  by_cases name : some kind = some TokenKind.identifier
  · refine .ite_pos name ?_
    cases Option.some.inj name
    cases kinds with
    | nil =>
      obtain ⟨value, passes⟩ := (method ι).closes
      refine .finishes value trivial _ (method ι).plain
        (Nat.le_trans (method ι).short (by decide)) (Leads.passes ?_ passes)
      exact .trans (.peekOperator (by decide) rfl) (.trans (.of_eq fun _ index => ⟨index, if_pos rfl⟩) .bump)
    | cons second kinds =>
      refine .peekOperator_second ?_
      by_cases paren : (second.operator? == some .leftParen) = true
      · exact .ite_pos paren (.bump ((method ι).on (Nat.lt_of_succ_lt inside) (fun _ => id) (by decide)))
      · exact .ite_neg paren (literal.on inside (fun _ => id) (Nat.le_refl _))
  · exact .ite_neg name (literal.on inside (fun _ => id) (Nat.le_refl _))

/-- The declaration of a function or method, or a statement that starts with a function literal. -/
private theorem functionStatement_prospect (start : ι → Span) {kinds : List TokenKind} (inside : kinds.length < bound) :
    Prospect [] (fun deeper index => functionStatement deeper (start index)) (fun _ _ => True) endsStatement 8
      (.keyword .func :: kinds) := by
  have named : Completable (fun deeper (_ : ι) => do
      signature deeper
      optionalBlock deeper
      return StatementKind.declaration .func) endsStatement 8 bound _ := declared_completable known .func
  refine .expect fun _ => ?_
  cases kinds with
  | nil =>
    obtain ⟨value, passes⟩ := named.closes
    refine .nil trivial (List.cons_subset.mpr ⟨(by decide : TokenKind.identifier ∈ finishing), named.plain⟩) (by decide)
      (Leads.passes ?_ passes)
    exact .trans .peekKind_cons .bump
  | cons kind kinds =>
    refine .peekKind ?_
    cases kind with
    | identifier => exact .bump (named.on (Nat.lt_of_succ_lt inside) (fun _ => id) (by decide))
    | operator operator =>
      cases operator with
      | leftParen =>
        exact ((parameters_completable known).prospect _ inside).followed
          (fun _ => receiver_completable known fun pair : Following ι () => start pair.1.1)
            (fun _ _ _ => rfl) inside (by decide)
      | _ => exact .rejectNext
    | keyword | literal | semicolon | illegal => exact .rejectNext

end

section statements

variable {ι : Type} {bound : Nat} (known : Known bound)
include known

private theorem called_completable (kind : StatementKind) : Completable (fun deeper (_ : ι) => do
    discard (deeper.expression .free)
    return kind) endsStatement 3 bound [.identifier] :=
  ((known.expression ι .free).discard.weaken (fun _ => endsPiece_of_endsSimple) (Nat.le_refl _)).returning
    fun _ _ _ _ => rfl

private theorem returned_completable : Completable (fun deeper (_ : ι) => do
    match ← peekKind 0 with
    | none | some (.semicolon _) | some (.operator .rightBrace) => return StatementKind.return
    | some _ =>
      discard (expressionList deeper .free)
      return .return) endsStatement 3 bound [] := by
  have values : Completable (fun deeper (_ : ι) => do
      discard (expressionList deeper .free)
      return StatementKind.return) endsStatement 3 (bound + 1) [.identifier] :=
    ((expressionList_completable known .free).discard.weaken
      (fun _ => endsPiece_of_endsSimple) (Nat.le_refl _)).returning
      fun _ _ _ _ => rfl
  refine .intro .return (List.nil_subset _) (Nat.zero_le _)
    ⟨0, fun supply left _ _ rest ends => ?_⟩ fun kind kinds inside =>
    .peekKind ?_
  · apply Runs.bind
    apply Runs.peekKind_head
    rw [List.nil_append]
    rcases endsStatement_cases ends with next | ⟨_, next⟩ | next
    all_goals
      rw [next]
      exact Runs.pure ⟨rfl, rfl⟩
  · have listed := values.prospect (kind :: kinds) (Nat.lt_succ_of_lt inside)
    cases kind with
    | semicolon => exact .pure fun _ => rfl
    | operator operator =>
      cases operator with
      | rightBrace => exact .pure fun _ => rfl
      | _ => exact listed
    | identifier | keyword | literal | illegal => exact listed

omit known in
private theorem labeled_completable (kind : StatementKind) : Completable (fun _ (_ : ι) => do
    if (← peekKind 0) = some .identifier then bump
    return kind) endsStatement 0 bound [] := by
  refine .intro kind (List.nil_subset _) (Nat.le_refl _)
    ⟨0, fun supply left _ _ rest ends => ?_⟩ fun first kinds inside =>
    .peekKind ?_
  · exact label_runs (.inl rfl) ends (Runs.pure ⟨rfl, rfl⟩)
  · by_cases name : some first = some TokenKind.identifier
    · exact .ite_pos name (.bump (.pure fun _ => rfl))
    · exact .ite_neg name (.pure fun _ => rfl)

omit known in
private theorem declaration_prospect {item : Deeper → Parse Unit} {kind : TokenKind} {more kinds : List TokenKind}
    {keyword : Keyword}
    (items : ∀ ι : Type, Completable (fun deeper (_ : ι) => item deeper) endsItem 2 bound (kind :: more))
    (noParen : kind ≠ .operator .leftParen) (declared : DeclarationKind) (inside : kinds.length < bound) :
    Prospect [] (fun deeper (_ : ι) => do
      expectKeyword keyword
      group (item deeper)
      return StatementKind.declaration declared) (fun _ _ => True) endsStatement 8 (.keyword keyword :: kinds) :=
  .expect fun _ => (((group_completable items noParen (by decide)).on inside (fun _ => id) (by decide)).returning
    fun _ _ _ _ => rfl).weaken (fun _ _ => id) (fun _ => id) (Nat.le_refl _)

private theorem simple_prospect {kinds : List TokenKind} (inside : kinds.length < bound + 1) :
    Prospect [] (fun deeper (_ : ι) => do return (← simpleStatement deeper .free .statement).kind)
      (fun _ _ => True) endsStatement 8
      kinds :=
  ((simpleStatement_completable known fun _ => rfl).answering SimpleStatement.kind
    fun _ _ _ same => congrArg SimpleStatement.kind same).on inside (fun _ => id) (by decide)

private theorem statementKind_prospect (context : Context) {kind : TokenKind} {kinds : List TokenKind}
    (inside : kinds.length < bound) :
    Prospect [] (fun deeper (pair : ι × { token : Token // token.kind = kind }) =>
      statementKind deeper context pair.2.1)
      (fun _ _ => True) endsStatement 8 (kind :: kinds) := by
  have isKind : ∀ pair : ι × { token : Token // token.kind = kind }, pair.2.1.kind = kind := fun pair => pair.2.2
  have simple : ∀ {κ : Type},
    Prospect [] (fun deeper (_ : κ) => do return (← simpleStatement deeper .free .statement).kind)
      (fun _ _ => True) endsStatement 8 (kind :: kinds) := simple_prospect known (Nat.succ_lt_succ inside)
  simp only [statementKind, isKind]
  cases kind with
  | keyword keyword =>
    cases keyword with
    | const => exact declaration_prospect (fun _ => constItem_completable known) (by decide) .const inside
    | var => exact declaration_prospect (fun _ => varItem_completable known) (by decide) .var inside
    | type => exact declaration_prospect (fun _ => typeItem_completable known) (by decide) .type inside
    | «import» =>
      by_cases atPrompt : context = .topLevel
      · refine .ite_pos atPrompt ?_
        exact declaration_prospect (fun _ => importItem_completable.weaken (fun _ => id) (by decide))
          (by decide) .import inside
      · exact .ite_neg atPrompt (.unexpected isKind)
    | func =>
      by_cases atPrompt : context = .topLevel
      · refine .ite_pos atPrompt ?_
        exact functionStatement_prospect known
          (fun pair : ι × { token : Token // token.kind = _ } => pair.2.1.span) inside
      · exact .ite_neg atPrompt simple
    | go | defer => exact .bump ((called_completable known _).on inside (fun _ => id) (by decide))
    | «return» => exact .bump ((returned_completable known).on inside (fun _ => id) (by decide))
    | «break» | «continue» => exact .bump ((labeled_completable _).on inside (fun _ => id) (by decide))
    | goto => exact .bump (((Completable.expectName.on inside (fun _ _ => rfl) (by decide)).returning fun _ _ _ _ => rfl))
    | «fallthrough» => exact .bump (.pure fun _ => rfl)
    | «if» => exact (ifBody_prospect known inside).returning fun _ _ _ _ => rfl
    | «for» => exact forStatement_prospect known inside
    | switch => exact switchStatement_prospect known inside
    | select => exact selectStatement_prospect known inside
    | _ => exact simple
  | operator operator =>
    cases operator with
    | leftBrace =>
      have body : ∀ {κ : Type}, Prospect [] (fun deeper (_ : κ) => block deeper) (fun _ _ => True) endsStatement 8
          (.operator .leftBrace :: kinds) :=
            (block_completable known).on (Nat.succ_lt_succ inside) (fun _ _ => rfl) (by decide)
      exact body.returning fun _ _ _ _ => rfl
    | _ => exact simple
  | identifier | literal | semicolon | illegal => exact simple

omit known in
private theorem statementName_passes (context : Context) :
    Passes (fun deeper (_ : ι) => deeper.statement context) [.identifier] []
    endsStatement (⟨.expression, .point 0 0⟩ : Statement) := by
  have isName : ∀ supply, IsStatement supply context .expression 3 [.identifier] := fun supply =>
    .simple (.expression (.ofUnary (.ofPrimary (IsPrimary.ofOperand .name (by decide))))) nofun
  exact .of_reads (fun supply => (isName supply).reads) (fun _ => id) fun _ => Eq.symm

private theorem statement_completable (context : Context) :
    Completable (fun deeper (_ : ι) => deeper.statement context) endsStatement 8 (bound + 1) [.identifier] := by
  refine .intro _ (by decide) (by decide) (statementName_passes context) fun kind kinds inside => ?_
  have ending : ∀ value : StatementKind, Completable
      (fun _ (pair : Following (ι × { token : Token // token.kind = kind }) value) => do
        return ⟨pair.1.2, ← spanFrom pair.1.1.2.1.span⟩ : Programs _ Statement) endsStatement 0 (bound + 1) [] := by
    intro value
    have sameKind : ∀ pair : Following (ι × { token : Token // token.kind = kind }) value × Span,
        Alike.alike (⟨value, .point 0 0⟩ : Statement) ⟨pair.1.1.2, pair.2⟩ := fun pair => pair.1.2
    exact .spanFrom (.pure sameKind)
  have body : Prospect [] (fun deeper (_ : ι) => statementBody deeper context)
      (fun _ _ => True) endsStatement 8 (kind :: kinds) :=
    .peek ((statementKind_prospect known context (Nat.lt_of_succ_lt_succ inside)).followed ending (fun _ _ => id) inside
      (Nat.le_refl _))
  exact .enter (fun _ _ _ => rfl) body

end statements

private theorem literalBraces_passes {ι : Type} : Passes (fun deeper (_ : ι) => literalValue deeper)
    [.operator .leftBrace, .operator .rightBrace] [] anything () := by
  have isEmpty : ∀ supply, IsLiteralValue supply 0 [.operator .leftBrace, .operator .rightBrace] :=
    fun _ => .intro (.inl rfl)
  exact .of_reads (fun supply => (isEmpty supply).reads) (fun _ _ => rfl) fun _ _ => rfl

private theorem known_zero : Known 0 := by
  have outside : ∀ {kinds : List TokenKind}, ¬ kinds.length + 1 < 0 := Nat.not_lt_zero _
  exact {
    type := fun ι => .intro _ (by decide) (by decide)
          ((Leads.enter fun _ _ _ => rfl).passes typeBodyName_passes) fun _ _ inside =>
      absurd inside outside
    unary := fun ι place =>
      .intro _ (by decide) (by decide) (unaryName_passes place) fun _ _ inside => absurd inside outside
    expression := fun ι place => .intro (anywhere .identifier) (by decide) (by decide) (.of_reads (fun _ => name_reads)
      (fun _ ends => (ends_of_endsPiece ends).1) fun _ => Eq.symm) fun _ _ inside => absurd inside outside
    literalValue := fun ι =>
      .intro _ (by decide) (by decide) ((Leads.enter fun _ _ _ => rfl).passes literalBraces_passes)
      fun _ _ inside => absurd inside outside
    statement := fun ι context => .intro _ (by decide) (by decide) (statementName_passes context) fun _ _ inside =>
      absurd inside outside
    ifStatement := fun ι kinds inside => absurd inside outside }

theorem known_all (bound : Nat) : Known bound := by
  induction bound with
  | zero => exact known_zero
  | succ bound known => exact {
      type := fun ι => type_completable known
      unary := fun ι place => unary_completable known place
      expression := fun ι place => expression_completable known place
      literalValue := fun ι => (literalValue_completable known).enter fun _ _ _ => rfl
      statement := fun ι context => statement_completable known context
      ifStatement := fun ι kinds inside =>
        .enter (fun _ _ _ => rfl) (ifBody_prospect known (Nat.lt_of_succ_lt_succ inside)) }

end GoPrompt
