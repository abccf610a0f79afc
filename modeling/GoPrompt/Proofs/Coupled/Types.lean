import GoPrompt.Proofs.Parse.Decisions

/-! Types and signatures are read alike by two coupled runs. A few decisions look at the token behind a
name; in each of them the name is part of what is read next. -/

namespace GoPrompt

open Parse

/-- The readers of two levels that couple. A type that starts with a name is also read when what
follows the name has been looked at. -/
structure Coupling.Deep (C : Coupling) (first second : Grammar.Deeper) : Prop where
  expression : ∀ place, C.Steady (first.expression place) (second.expression place)
  unary : ∀ place, C.Steady (first.unary place) (second.unary place)
  type : C.Steady first.type second.type
  typeFromName : ∀ number following,
    C.Coupled (C.afterName number following) first.type second.type (fun _ _ => C.after number)
  literalValue : C.Steady first.literalValue second.literalValue
  statement : ∀ context, C.Steady (first.statement context) (second.statement context)
  ifStatement : C.Steady first.ifStatement second.ifStatement

namespace Grammar

open Coupling

variable {C : Coupling} (lawful : C.Lawful) {first second : Deeper} (deep : C.Deep first second) {number : Nat}

section
include lawful

theorem atType_bind {β : Type} [Alike β] {next later : Bool → Parse β} {post : β → β → ParseState → ParseState → Prop}
    (cases : ∀ starts, C.Coupled (C.after number) (next starts) (later starts) post) :
    C.Coupled (C.after number) (atType >>= next) (atType >>= later) post := by
  simp only [atType, bind_assoc, pure_bind]
  exact lawful.kind_bind (.of (fun _ _ => rfl) fun _ => rfl) fun kind => lawful.forget (cases _)

private theorem atType_name_bind {β : Type} [Alike β] {following : Option TokenKind} {next later : Bool → Parse β}
    {post : β → β → ParseState → ParseState → Prop} (keeps : C.Keeps (next false))
    (there : C.Coupled (C.afterName number following) (next true) (later true) post) :
    C.Coupled (C.afterName number following) (atType >>= next) (atType >>= later) post := by
  simp only [atType, peekKind, bind_assoc, pure_bind]
  refine lawful.lookName_bind ((lawful.look 0).keeps.bind fun found => ?_) fun one other named named' => ?_
  · cases Option.any startsType (Option.map Token.kind found) with
    | true => exact there.keeps
    | false => exact keeps
  · simp only [Option.map_some, Option.any_some, named, named']
    exact there

private theorem commas_steady {item other : Parse Unit} (items : C.Steady item other) : C.Steady
    (repeatUntil do
      if ← eatOperator .comma then
        item
        return false
      else return true)
    (repeatUntil do
      if ← eatOperator .comma then
        other
        return false
      else return true) := by
  refine lawful.repeatUntil_steady fun number => lawful.eatOperator_bind ?_ ?_
  · exact items.bind fun _ _ _ => .pure rfl fun _ _ holds => holds
  · exact .pure rfl fun _ _ holds => holds

theorem nameList_steady : C.Steady nameList nameList := fun _ =>
  (lawful.expectName_steady).bind fun _ _ _ => commas_steady lawful lawful.expectName_steady _

private theorem nameList_name (following : Option TokenKind) :
    C.Coupled (C.afterName number following) nameList nameList (fun _ _ => C.after number) :=
  lawful.expectName_name.bind fun _ _ _ => (commas_steady lawful lawful.expectName_steady).reaching (Nat.le_succ _)

private theorem qualified_coupled : C.Coupled (C.after number)
    (do
      if ← eatOperator .period then
        expectName
        return Shape.qualifiedName
      else return .identifier)
    (do
      if ← eatOperator .period then
        expectName
        return .qualifiedName
      else return .identifier)
    (fun _ _ => C.after number) := by
  refine lawful.eatOperator_bind ?_ (.pureAfter rfl (Nat.le_refl _))
  exact lawful.expectName_steady.bind fun _ _ _ => .pureAfter rfl (Nat.le_succ _)

private theorem typeName_steady : C.Steady typeName typeName := fun _ =>
  lawful.expectName_steady.bind fun _ _ _ => qualified_coupled lawful

private theorem typeName_name (following : Option TokenKind) :
    C.Coupled (C.afterName number following) typeName typeName (fun _ _ => C.after number) :=
  lawful.expectName_name.bind fun _ _ _ =>
    (qualified_coupled lawful).weaken (fun _ _ holds => holds) fun _ _ _ _ _ => after_of_le (Nat.le_succ _)

theorem semicolonList_steady (closer : Operator) {item other : Parse Unit} (items : C.Steady item other) :
    C.Steady (semicolonList closer item) (semicolonList closer other) := by
  refine lawful.repeatUntil_steady fun number => lawful.kind_bind (.of (fun _ _ => rfl) fun _ => rfl) fun kind => ?_
  split
  next => exact lawful.takeKind_bind (by simp) (.pure rfl fun _ _ holds => holds)
  next =>
    refine lawful.forget ?_
    split
    next => exact .pure rfl fun _ _ holds => holds
    next =>
      refine items.bind fun _ _ _ => lawful.kind_bind (.of (fun _ _ => rfl) fun _ => rfl) fun kind => ?_
      split
      next => exact lawful.takeKind_bind (by simp) (.pure rfl fun _ _ holds => holds)
      next =>
        refine lawful.forget ?_
        split
        next => exact .pure rfl fun _ _ holds => holds
        next => exact lawful.rejectNext_after _

theorem commaList_steady (closer : Operator) {item other : Parse Unit} (items : C.Steady item other) :
    C.Steady (commaList closer item) (commaList closer other) := by
  refine lawful.repeatUntil_steady fun number => lawful.atOperator_bind ?_ ?_
  · exact lawful.forget (.pure rfl fun _ _ holds => holds)
  · refine items.bind fun _ _ _ => lawful.operator_bind ?_ fun operator => ?_
    · exact lawful.rejectNext_after _
    · split
      next same =>
        cases same
        exact lawful.takeKind_bind (by simp) (.pure rfl fun _ _ holds => holds)
      next =>
        refine lawful.forget ?_
        split
        next => exact .pure rfl fun _ _ holds => holds
        next => exact lawful.rejectNext_after _

end

section
include lawful deep

theorem arrayType_steady (literalFollows : Bool) :
    C.Steady (arrayType first literalFollows) (arrayType second literalFollows) := by
  intro number
  have rest : C.Coupled (C.after number)
      (do expectOperator .rightBracket; discard first.type; return Shape.literalType)
      (do expectOperator .rightBracket; discard second.type; return Shape.literalType) (fun _ _ => C.after number) :=
    (lawful.expectOperator_steady _).bind fun _ _ _ => deep.type.discard.bind fun _ _ _ =>
      .pureAfter rfl (Nat.le_refl _)
  have length := (deep.expression .free).discard.bind fun _ _ _ => rest
  refine (lawful.expectOperator_steady _).bind fun _ _ _ => lawful.operator_bind length fun operator => ?_
  split
  next => exact lawful.forget rest
  next same =>
    cases same
    split
    next => exact lawful.passKind_bind (by simp) rest
    next => exact lawful.forget length
  next => exact lawful.forget length

theorem mapType_steady : C.Steady (mapType first) (mapType second) := fun _ =>
  (lawful.expectKeyword_steady _).bind fun _ _ _ => (lawful.expectOperator_steady _).bind fun _ _ _ =>
    deep.type.discard.bind fun _ _ _ => (lawful.expectOperator_steady _).bind fun _ _ _ =>
      deep.type.discard.bind fun _ _ _ => .pureAfter rfl (Nat.le_refl _)

private theorem parameter_steady : C.Steady (parameter first) (parameter second) := by
  intro number
  have ofType := deep.type.discard number
  have named : C.Coupled (C.after number)
      (do if (← peekKind 0).isSome then discard first.type)
      (do if (← peekKind 0).isSome then discard second.type) (fun _ _ => C.after number) := by
    refine lawful.kind_bind (.of (fun _ _ => rfl) fun _ => rfl) fun kind => lawful.forget ?_
    split
    next => exact ofType
    next => exact .pureAfter rfl (Nat.le_refl _)
  refine (lawful.eatOperator_steady _).bind fun variadic _ same => ?_
  cases same
  split
  next => exact ofType
  next =>
    refine lawful.kind_bind (.of (fun _ _ => rfl) fun _ => rfl) fun kind => ?_
    split
    next => exact lawful.forget ofType
    next isName =>
      obtain rfl := Decidable.not_not.mp isName
      refine lawful.operatorBeyond_bind fun following => ?_
      split
      next => exact (deep.typeFromName number following).discard
      next => exact lawful.pass_name
      next => exact lawful.pass_name
      next found =>
        obtain ⟨following, rfl, isOperator⟩ := Option.bind_eq_some_iff.mp found
        refine lawful.stepName_bind (lawful.takeKind_bind ?_ (deep.type.discard.reaching (by omega)))
        rintro rfl
        cases isOperator
      next => exact lawful.passName_bind named

theorem parameters_steady : C.Steady (parameters first) (parameters second) := fun _ =>
  (lawful.expectOperator_steady _).bind fun _ _ _ =>
    (commaList_steady lawful _ (parameter_steady lawful deep)).bind fun _ _ _ => lawful.expectOperator_steady _ _

theorem result_steady : C.Steady (result first) (result second) := by
  intro number
  refine lawful.atOperator_bind (lawful.forget (parameters_steady lawful deep number)) ?_
  refine atType_bind lawful fun starts => ?_
  cases starts with
  | true => exact deep.type.discard number
  | false => exact .pureAfter rfl (Nat.le_refl _)

theorem result_name (following : Option TokenKind) :
    C.Coupled (C.afterName number following) (result first) (result second) (fun _ _ => C.after number) :=
  lawful.atOperator_name_bind (parameters_steady lawful deep number).keeps
    (atType_name_bind lawful (fun _ gone => gone) (deep.typeFromName number following).discard)

theorem signature_steady : C.Steady (signature first) (signature second) := fun _ =>
  (parameters_steady lawful deep).bind fun _ _ _ => result_steady lawful deep _

private theorem field_steady : C.Steady (field first) (field second) := by
  intro number
  have tag : C.Coupled (C.after number)
      (do if (← peekKind 0) = some (.literal .string) then bump)
      (do if (← peekKind 0) = some (.literal .string) then bump) (fun _ _ => C.after number) :=
    lawful.string_bind (.pureAfter rfl (Nat.le_refl _))
  have names : ∀ following, C.Coupled (C.afterName number following)
      (do nameList; discard first.type; if (← peekKind 0) = some (.literal .string) then bump)
      (do nameList; discard second.type; if (← peekKind 0) = some (.literal .string) then bump)
      (fun _ _ => C.after number) := fun _ =>
    (nameList_name lawful _).bind fun _ _ _ => deep.type.discard.bind fun _ _ _ => tag
  refine lawful.kind_bind (.of (fun _ _ => rfl) fun _ => rfl) fun kind => ?_
  split
  next => exact lawful.passKind_bind (by simp) ((typeName_steady lawful).discard.bind fun _ _ _ => tag)
  next =>
    refine lawful.kindBeyond_bind (fun following => ?_) (fun kind => ?_) fun _ _ => rfl
    · split
      next => exact (typeName_name lawful _).discard.bind fun _ _ _ => tag
      next => exact lawful.passName_bind tag
      next => exact lawful.passName_bind tag
      next => exact lawful.passName_bind tag
      next => exact names _
    · -- A tag that is spoilt looks like the type of the field.
      cases kind with
      | string => exact lawful.loseBeyond_bind
      | _ => exact (names _).weaken (fun _ _ => Lawful.afterSpoilt_afterName) fun _ _ _ _ _ holds => holds
  next => exact lawful.forget ((lawful.rejectNext_after _).bind fun _ _ _ => tag)

theorem structType_steady : C.Steady (structType first) (structType second) := fun _ =>
  (lawful.expectKeyword_steady _).bind fun _ _ _ => (lawful.expectOperator_steady _).bind fun _ _ _ =>
    (semicolonList_steady lawful _ (field_steady lawful deep)).bind fun _ _ _ =>
      (lawful.expectOperator_steady _).bind fun _ _ _ => .pureAfter rfl (Nat.le_refl _)

private theorem unionTurn_coupled : C.Coupled (C.after number)
    (do discard (eatOperator .tilde); discard first.type; return !(← eatOperator .or))
    (do discard (eatOperator .tilde); discard second.type; return !(← eatOperator .or))
    (fun isDone _ => if isDone then C.after number else C.after (number + 1)) := by
  refine (lawful.eatOperator_steady _).discard.bind fun _ _ _ => deep.type.discard.bind fun _ _ _ => ?_
  exact lawful.eatOperator_bind (.pure rfl fun _ _ holds => holds) (.pure rfl fun _ _ holds => holds)

private theorem typeUnion_steady : C.Steady (typeUnion first) (typeUnion second) :=
  lawful.repeatUntil_steady fun _ => unionTurn_coupled lawful deep

private theorem typeUnion_name (following : Option TokenKind) :
    C.Coupled (C.afterName number following) (typeUnion first) (typeUnion second) (fun _ _ => C.after number) := by
  refine lawful.repeatUntil_name (fun _ => unionTurn_coupled lawful deep) (fun number following => ?_) following
  refine (lawful.eatOperator_name _ _).discard.bind fun _ _ _ =>
    (deep.typeFromName number following).discard.bind fun _ _ _ => ?_
  exact lawful.eatOperator_bind (.pure rfl fun _ _ holds => holds) (.pure rfl fun _ _ holds => holds)

private theorem interfaceElement_steady : C.Steady (interfaceElement first) (interfaceElement second) := by
  intro number
  have union := typeUnion_steady lawful deep number
  refine lawful.kind_bind (.of (fun _ _ => rfl) fun _ => rfl) fun kind => ?_
  split
  next isName =>
    subst isName
    refine lawful.operatorBeyond_bind fun following => ?_
    split
    next => exact lawful.passName_bind (signature_steady lawful deep number)
    next => exact typeUnion_name lawful deep following
  next => exact lawful.forget union

private theorem interfaceType_steady : C.Steady (interfaceType first) (interfaceType second) := fun _ =>
  (lawful.expectKeyword_steady _).bind fun _ _ _ => (lawful.expectOperator_steady _).bind fun _ _ _ =>
    (semicolonList_steady lawful _ (interfaceElement_steady lawful deep)).bind fun _ _ _ =>
      (lawful.expectOperator_steady _).bind fun _ _ _ => .pureAfter rfl (Nat.le_refl _)

theorem typeBody_steady : C.Steady (typeBody first) (typeBody second) := by
  intro number
  have ofType := deep.type.discard number
  have element : C.Coupled (C.after number) (do discard first.type; return Shape.other)
      (do discard second.type; return Shape.other) (fun _ _ => C.after number) :=
    ofType.bind fun _ _ _ => .pureAfter rfl (Nat.le_refl _)
  refine lawful.look_bind (lawful.endOfInput_seen _) fun one other same => ?_
  rcases same.cases with kinds | ⟨_, _, isOne, isOther⟩ | ⟨_, isOne, isOther⟩
  · simp only [← kinds]
    split
    next => exact lawful.forgetSeen (typeName_steady lawful number)
    next found => exact lawful.passFound_bind kinds found (by simp) element
    next found =>
      refine lawful.passFound_bind kinds found (by simp) (ofType.bind fun _ _ _ => ?_)
      exact (lawful.expectOperator_steady _).bind fun _ _ _ => .pureAfter rfl (Nat.le_refl _)
    next => exact lawful.forgetSeen (arrayType_steady lawful deep false number)
    next found => exact lawful.passFound_bind kinds found (by simp) ((lawful.expectKeyword_steady _).bind fun _ _ _ => element)
    next found =>
      refine lawful.passFound_bind kinds found (by simp) ?_
      exact (lawful.eatOperator_steady _).discard.bind fun _ _ _ => element
    next => exact lawful.forgetSeen (mapType_steady lawful deep number)
    next found =>
      refine lawful.passFound_bind kinds found (by simp) ?_
      exact (signature_steady lawful deep).bind fun _ _ _ => .pureAfter rfl (Nat.le_refl _)
    next => exact lawful.forgetSeen (structType_steady lawful deep number)
    next => exact lawful.forgetSeen (interfaceType_steady lawful deep number)
    next => exact lawful.unexpected_seen same _
  · simp only [isOne, isOther]
    exact lawful.unexpected_seen same _
  · simp only [isOne, isOther]
    exact lawful.unexpected_seen same _

theorem typeBody_name (following : Option TokenKind) :
    C.Coupled (C.afterName number following) (typeBody first) (typeBody second) (fun _ _ => C.after number) := by
  refine lawful.lookName_bind (typeBody_steady lawful deep number).keeps fun one other named named' => ?_
  simp only [named, named']
  exact typeName_name lawful following

theorem typeList_steady : C.Steady (typeList first) (typeList second) := fun _ =>
  deep.type.discard.bind fun _ _ _ => commas_steady lawful deep.type.discard _

end

end Grammar

end GoPrompt
