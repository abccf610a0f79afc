import GoPrompt.Proofs.Acceptance.Lists

/-! Types and signatures are read to their end. A type ends in front of every kind that neither starts a type nor
goes on with a name. -/

namespace GoPrompt

open Parse Grammar

/-- The kinds that types start with. A type in parentheses is not among them. -/
def opensType (kind : TokenKind) : Bool := startsType kind && kind != .operator .leftParen

/-- What may follow a type. -/
def endsType (next : Option TokenKind) : Bool := !next.any fun kind => startsType kind || kind == .operator .period

def endsParameter (next : Option TokenKind) : Bool :=
  next == some (.operator .comma) || next == some (.operator .rightParen)

/-- What may follow a line of a struct or interface type. -/
def endsMember (next : Option TokenKind) : Bool :=
  next == some (.semicolon .explicit) || next == some (.operator .rightBrace)

private theorem endsType_of_endsParameter {next : Option TokenKind} (ends : endsParameter next = true) :
    endsType next = true := by
  rw [endsParameter, Bool.or_eq_true, beq_iff_eq, beq_iff_eq] at ends
  rcases ends with rfl | rfl <;> rfl

private theorem endsType_of_endsMember {next : Option TokenKind} (ends : endsMember next = true) :
    endsType next = true := by
  rw [endsMember, Bool.or_eq_true, beq_iff_eq, beq_iff_eq] at ends
  rcases ends with rfl | rfl <;> rfl

theorem operator?_ne {p : TokenKind → Bool} {kind : TokenKind} {operator : Operator} (holds : p kind = true)
    (fails : p (.operator operator) = false) : kind.operator? ≠ some operator := by
  intro same
  cases kind <;> cases same
  rw [holds] at fails
  cases fails

structure IsType (supply : Supply) (level : Nat) (kinds : List TokenKind) : Prop where
  reads : Reads supply level Deeper.type kinds endsType fun _ => True
  opens : kinds.head?.any opensType = true
  /-- A type that starts with a name is a name. -/
  named : kinds.head? = some .identifier → kinds = [.identifier] ∨ kinds = [.identifier, .operator .period, .identifier]
  /-- A type that starts with an arrow is a type without it. -/
  received : ∀ later, kinds = .operator .arrow :: later → Reads supply level Deeper.type later endsType fun _ => True

/-- A type that the body of a composite literal can follow. -/
structure IsLiteralType (supply : Supply) (bodyFollows : Bool) (level : Nat) (kinds : List TokenKind) : Prop where
  reads : ∃ program : Deeper → Parse Shape, Reads supply level program kinds endsType (· = .literalType) ∧
    ((kinds.head? = some (.operator .leftBracket) ∧ program = fun deeper => arrayType deeper bodyFollows) ∨
      (kinds.head? = some (.keyword .map) ∧ program = mapType) ∨
      (kinds.head? = some (.keyword .struct) ∧ program = structType))

structure IsParameter (supply : Supply) (level : Nat) (kinds : List TokenKind) : Prop where
  reads : Reads supply level parameter kinds endsParameter fun _ => True
  starts : ∀ rest, (kinds ++ rest).head? ≠ some (.operator .rightParen)

structure IsField (supply : Supply) (level : Nat) (kinds : List TokenKind) : Prop where
  reads : Reads supply level field kinds endsMember fun _ => True
  starts : ∀ rest, (kinds ++ rest).head? ≠ some (.operator .rightBrace) ∧
    ∀ origin, (kinds ++ rest).head? ≠ some (.semicolon origin)

structure IsMember (supply : Supply) (level : Nat) (kinds : List TokenKind) : Prop where
  reads : Reads supply level interfaceElement kinds endsMember fun _ => True
  starts : ∀ rest, (kinds ++ rest).head? ≠ some (.operator .rightBrace) ∧
    ∀ origin, (kinds ++ rest).head? ≠ some (.semicolon origin)

def AreParameters (supply : Supply) (level : Nat) (kinds : List TokenKind) : Prop :=
  Optionally (Separated (· = .operator .comma) (IsParameter supply level)) kinds

structure IsResult (supply : Supply) (level : Nat) (kinds : List TokenKind) : Prop where
  reads : Reads supply level result kinds endsType fun _ => True
  named : kinds.head? = some .identifier → kinds = [.identifier] ∨ kinds = [.identifier, .operator .period, .identifier]

structure IsSignature (supply : Supply) (level : Nat) (kinds : List TokenKind) : Prop where
  parts : ∃ parameters out, kinds = .operator .leftParen :: (parameters ++ .operator .rightParen :: out) ∧
    AreParameters supply level parameters ∧ IsResult supply level out

section

variable {supply : Supply} {level higher : Nat} {kinds : List TokenKind}

theorem IsType.mono (isType : IsType supply level kinds) (le : level ≤ higher) : IsType supply higher kinds where
  reads := isType.reads.mono le
  opens := isType.opens
  named := isType.named
  received later same := (isType.received later same).mono le

theorem IsLiteralType.mono {bodyFollows : Bool} (isType : IsLiteralType supply bodyFollows level kinds)
    (le : level ≤ higher) :
    IsLiteralType supply bodyFollows higher kinds := by
  obtain ⟨program, reads, starts⟩ := isType.reads
  exact ⟨program, reads.mono le, starts⟩

theorem IsParameter.mono (isParameter : IsParameter supply level kinds) (le : level ≤ higher) :
    IsParameter supply higher kinds :=
  ⟨isParameter.reads.mono le, isParameter.starts⟩

theorem IsField.mono (isField : IsField supply level kinds) (le : level ≤ higher) : IsField supply higher kinds :=
  ⟨isField.reads.mono le, isField.starts⟩

theorem IsMember.mono (isMember : IsMember supply level kinds) (le : level ≤ higher) : IsMember supply higher kinds :=
  ⟨isMember.reads.mono le, isMember.starts⟩

theorem AreParameters.mono (areParameters : AreParameters supply level kinds) (le : level ≤ higher) :
    AreParameters supply higher kinds :=
  areParameters.imp_right fun separated => separated.imp fun _ isParameter => isParameter.mono le

theorem IsResult.mono (isResult : IsResult supply level kinds) (le : level ≤ higher) : IsResult supply higher kinds :=
  ⟨isResult.reads.mono le, isResult.named⟩

theorem IsSignature.mono (isSignature : IsSignature supply level kinds) (le : level ≤ higher) :
    IsSignature supply higher kinds := by
  obtain ⟨parameters, out, rfl, areParameters, isResult⟩ := isSignature.parts
  exact ⟨parameters, out, rfl, areParameters.mono le, isResult.mono le⟩

theorem Reads.type {post : Shape → Prop} (reads : Reads supply level typeBody kinds endsType post) :
    Reads supply (level + 1) Deeper.type kinds endsType post := by
  intro left enough
  obtain ⟨left, rfl⟩ : ∃ below, left = below + 1 := ⟨left - 1, by omega⟩
  exact reads left (by omega)

end

section

variable {supply : Supply} {level : Nat} {rest : List TokenKind}

theorem typeName_runs (noPeriod : rest.head? ≠ some (.operator .period)) {post : Shape → List TokenKind → Prop}
    (holds : post .identifier rest) : Runs supply (.identifier :: rest) typeName post := by
  apply Runs.bind
  apply Runs.expectName
  apply Runs.bind
  apply Runs.eatOperator_no noPeriod
  exact Runs.pure holds

private theorem qualifiedName_runs {post : Shape → List TokenKind → Prop} (holds : post .qualifiedName rest) :
    Runs supply (.identifier :: .operator .period :: .identifier :: rest) typeName post := by
  apply Runs.bind
  apply Runs.expectName
  apply Runs.bind
  apply Runs.eatOperator_yes
  apply Runs.bind
  apply Runs.expectName
  exact Runs.pure holds

variable {key value element length kinds : List TokenKind} {first second : Nat}

theorem IsType.run (isType : IsType supply level kinds) {left : Nat} (enough : level ≤ left)
    (ends : endsType rest.head? = true) {post : Unit → List TokenKind → Prop} (holds : post () rest) :
    Runs supply (kinds ++ rest) (discard (levels supply.nesting left).type) post := by
  apply Runs.discard
  apply (isType.reads left enough).run ends
  exact fun _ _ => holds

theorem IsType.name : IsType supply 1 [.identifier] where
  reads := by
    apply Reads.type
    intro left _ rest ends
    apply Runs.bind
    apply Runs.peek_cons
    intro token isKind
    simp only [isKind]
    exact typeName_runs (apart ends rfl) ⟨rfl, trivial⟩
  opens := rfl
  named _ := .inl rfl
  received := nofun

theorem IsType.qualified : IsType supply 1 [.identifier, .operator .period, .identifier] where
  reads := by
    apply Reads.type
    intro left _ rest _
    apply Runs.bind
    apply Runs.peek_cons
    intro token isKind
    simp only [isKind]
    exact qualifiedName_runs ⟨rfl, trivial⟩
  opens := rfl
  named _ := .inr rfl
  received := nofun

theorem IsType.pointer (base : IsType supply level kinds) : IsType supply (level + 1) (.operator .mul :: kinds) where
  reads := by
    apply Reads.type
    intro left enough rest ends
    apply Runs.bind
    apply Runs.peek_cons
    intro token isKind
    simp only [isKind]
    apply Runs.bind
    apply Runs.bump
    apply Runs.bind
    apply base.run enough ends
    exact Runs.pure ⟨rfl, trivial⟩
  opens := rfl
  named := nofun
  received := nofun

private theorem chan_reads (element : IsType supply level kinds) :
    Reads supply (level + 1) Deeper.type (.keyword .chan :: kinds) endsType fun _ => True := by
  apply Reads.type
  intro left enough rest ends
  apply Runs.bind
  apply Runs.peek_cons
  intro token isKind
  simp only [isKind]
  apply Runs.bind
  apply Runs.bump
  apply Runs.bind
  apply Runs.discard
  by_cases arrow : kinds.head? = some (.operator .arrow)
  · obtain ⟨later, rfl⟩ := List.head?_eq_some_iff.mp arrow
    apply Runs.eatOperator_yes
    apply Runs.bind
    apply Runs.discard
    apply (element.received later rfl left enough).run ends
    exact fun _ _ => Runs.pure ⟨rfl, trivial⟩
  · have noArrow : (kinds ++ rest).head? ≠ some (.operator .arrow) := by
      cases kinds with
      | nil => cases element.opens
      | cons kind later => exact arrow
    apply Runs.eatOperator_no noArrow
    apply Runs.bind
    apply element.run enough ends
    exact Runs.pure ⟨rfl, trivial⟩

theorem IsType.chan (element : IsType supply level kinds) : IsType supply (level + 1) (.keyword .chan :: kinds) where
  reads := chan_reads element
  opens := rfl
  named := nofun
  received := nofun

theorem IsType.chanSend (element : IsType supply level kinds) :
    IsType supply (level + 1) (.keyword .chan :: .operator .arrow :: kinds) where
  reads := by
    apply Reads.type
    intro left enough rest ends
    apply Runs.bind
    apply Runs.peek_cons
    intro token isKind
    simp only [isKind]
    apply Runs.bind
    apply Runs.bump
    apply Runs.bind
    apply Runs.discard
    apply Runs.eatOperator_yes
    apply Runs.bind
    apply element.run enough ends
    exact Runs.pure ⟨rfl, trivial⟩
  opens := rfl
  named := nofun
  received := nofun

theorem IsType.chanReceive (element : IsType supply level kinds) :
    IsType supply (level + 1) (.operator .arrow :: .keyword .chan :: kinds) where
  reads := by
    apply Reads.type
    intro left enough rest ends
    apply Runs.bind
    apply Runs.peek_cons
    intro token isKind
    simp only [isKind]
    apply Runs.bind
    apply Runs.bump
    apply Runs.bind
    apply Runs.expectKeyword
    apply Runs.bind
    apply element.run enough ends
    exact Runs.pure ⟨rfl, trivial⟩
  opens := rfl
  named := nofun
  received later same := by
    obtain ⟨-, rfl⟩ := List.cons.inj same
    exact chan_reads element

theorem parameters_runs (areParameters : AreParameters supply level kinds) {left : Nat} (enough : level ≤ left)
    {post : Unit → List TokenKind → Prop} (holds : post () rest) :
    Runs supply (.operator .leftParen :: (kinds ++ .operator .rightParen :: rest))
      (parameters (levels supply.nesting left)) post := by
  apply Runs.bind
  apply Runs.expectOperator
  apply Runs.bind
  apply commaList_runs endsParameter (by decide) rfl rfl (fun _ isParameter => isParameter.reads left enough)
    (fun _ isParameter => isParameter.starts) areParameters
  exact Runs.expectOperator holds

theorem IsSignature.reads (isSignature : IsSignature supply level kinds) :
    Reads supply level signature kinds endsType fun _ => True := by
  obtain ⟨parameters, out, rfl, areParameters, isResult⟩ := isSignature.parts
  intro left enough rest ends
  rw [List.cons_append, List.append_assoc]
  apply Runs.bind
  apply parameters_runs areParameters enough
  exact isResult.reads left enough rest ends

theorem IsSignature.starts (isSignature : IsSignature supply level kinds) :
    kinds.head? = some (.operator .leftParen) := by
  obtain ⟨parameters, out, rfl, _⟩ := isSignature.parts
  rfl

theorem IsType.function (signature : IsSignature supply level kinds) :
    IsType supply (level + 1) (.keyword .func :: kinds) where
  reads := by
    apply Reads.type
    intro left enough rest ends
    apply Runs.bind
    apply Runs.peek_cons
    intro token isKind
    simp only [isKind]
    apply Runs.bind
    apply Runs.bump
    apply Runs.bind
    apply (signature.reads left enough).run ends
    exact fun _ _ => Runs.pure ⟨rfl, trivial⟩
  opens := rfl
  named := nofun
  received := nofun

theorem IsType.interface (members : Optionally (Separated (· = .semicolon .explicit) (IsMember supply level)) kinds) :
    IsType supply (level + 1) (.keyword .interface :: .operator .leftBrace :: (kinds ++ [.operator .rightBrace])) where
  reads := by
    apply Reads.type
    intro left enough rest ends
    rw [List.cons_append, List.cons_append, List.append_assoc]
    apply Runs.bind
    apply Runs.peek_cons
    intro token isKind
    simp only [isKind]
    apply Runs.bind
    apply Runs.expectKeyword
    apply Runs.bind
    apply Runs.expectOperator
    apply Runs.bind
    apply semicolonList_runs endsMember rfl rfl (fun _ isMember => isMember.reads left enough)
      (fun _ isMember => isMember.starts) members
    apply Runs.bind
    apply Runs.expectOperator
    exact Runs.pure ⟨rfl, trivial⟩
  opens := rfl
  named := nofun
  received := nofun

theorem IsType.ofLiteralType (isType : IsLiteralType supply false level kinds) : IsType supply (level + 1) kinds := by
  obtain ⟨program, reads, starts⟩ := isType.reads
  have body : Reads supply level typeBody kinds endsType fun _ => True := by
    intro left enough rest ends
    apply Runs.bind
    rcases starts with ⟨head, rfl⟩ | ⟨head, rfl⟩ | ⟨head, rfl⟩
    all_goals
      obtain ⟨later, rfl⟩ := List.head?_eq_some_iff.mp head
      apply Runs.peek_cons
      intro token isKind
      simp only [isKind]
      apply (reads left enough).run ends
      exact fun _ _ => ⟨rfl, trivial⟩
  rcases starts with ⟨head, -⟩ | ⟨head, -⟩ | ⟨head, -⟩
  all_goals
    obtain ⟨later, rfl⟩ := List.head?_eq_some_iff.mp head
    exact ⟨body.type, rfl, nofun, nofun⟩

theorem IsLiteralType.slice {bodyFollows : Bool} (element : IsType supply level kinds) :
    IsLiteralType supply bodyFollows level (.operator .leftBracket :: .operator .rightBracket :: kinds) where
  reads := by
    refine ⟨_, ?_, .inl ⟨rfl, rfl⟩⟩
    intro left enough rest ends
    apply Runs.bind
    apply Runs.expectOperator
    apply Runs.bind
    apply Runs.peekOperator_cons
    apply Runs.bind
    apply Runs.expectOperator
    apply Runs.bind
    apply element.run enough ends
    exact Runs.pure ⟨rfl, rfl⟩

theorem IsLiteralType.openArray (element : IsType supply level kinds) :
    IsLiteralType supply true level
      (.operator .leftBracket :: .operator .ellipsis :: .operator .rightBracket :: kinds) where
  reads := by
    refine ⟨_, ?_, .inl ⟨rfl, rfl⟩⟩
    intro left enough rest ends
    apply Runs.bind
    apply Runs.expectOperator
    apply Runs.bind
    apply Runs.peekOperator_cons
    apply Runs.bind
    apply Runs.bump
    apply Runs.bind
    apply Runs.expectOperator
    apply Runs.bind
    apply element.run enough ends
    exact Runs.pure ⟨rfl, rfl⟩

theorem IsLiteralType.map {bodyFollows : Bool} (isKey : IsType supply first key) (isValue : IsType supply second value) :
    IsLiteralType supply bodyFollows (max first second)
      (.keyword .map :: .operator .leftBracket :: (key ++ .operator .rightBracket :: value)) where
  reads := by
    refine ⟨_, ?_, .inr (.inl ⟨rfl, rfl⟩)⟩
    intro left enough rest ends
    rw [List.cons_append, List.cons_append, List.append_assoc]
    apply Runs.bind
    apply Runs.expectKeyword
    apply Runs.bind
    apply Runs.expectOperator
    apply Runs.bind
    apply isKey.run (by omega) rfl
    apply Runs.bind
    apply Runs.expectOperator
    apply Runs.bind
    apply isValue.run (by omega) ends
    exact Runs.pure ⟨rfl, rfl⟩

theorem IsLiteralType.struct {bodyFollows : Bool}
    (fields : Optionally (Separated (· = .semicolon .explicit) (IsField supply level)) kinds) :
    IsLiteralType supply bodyFollows level
      (.keyword .struct :: .operator .leftBrace :: (kinds ++ [.operator .rightBrace])) where
  reads := by
    refine ⟨_, ?_, .inr (.inr ⟨rfl, rfl⟩)⟩
    intro left enough rest ends
    rw [List.cons_append, List.cons_append, List.append_assoc]
    apply Runs.bind
    apply Runs.expectKeyword
    apply Runs.bind
    apply Runs.expectOperator
    apply Runs.bind
    apply semicolonList_runs endsMember rfl rfl (fun _ isField => isField.reads left enough)
      (fun _ isField => isField.starts) fields
    apply Runs.bind
    apply Runs.expectOperator
    exact Runs.pure ⟨rfl, rfl⟩

theorem IsSignature.intro {out : List TokenKind} (areParameters : AreParameters supply first kinds)
    (isResult : IsResult supply second out) :
    IsSignature supply (max first second) (.operator .leftParen :: (kinds ++ .operator .rightParen :: out)) :=
  ⟨kinds, out, rfl, areParameters.mono (Nat.le_max_left _ _), isResult.mono (Nat.le_max_right _ _)⟩

theorem atType_runs {kinds : List TokenKind} {post : Bool → List TokenKind → Prop}
    (holds : post (kinds.head?.any startsType) kinds) :
    Runs supply kinds atType post := by
  apply Runs.bind
  apply Runs.peekKind_head
  exact Runs.pure holds

theorem startsType_of_endsType {next : Option TokenKind} (ends : endsType next = true) :
    next.any startsType = false := by
  cases next with
  | none => rfl
  | some kind =>
    simp only [endsType, Option.any_some, Bool.not_eq_true', Bool.or_eq_false_iff] at ends
    exact ends.1

theorem IsResult.none : IsResult supply 0 [] where
  reads := by
    intro left _ rest ends
    apply Runs.bind
    apply Runs.atOperator_no (apart ends rfl)
    apply Runs.ite_neg Bool.false_ne_true
    apply Runs.bind
    apply atType_runs
    apply Runs.ite_neg (Bool.eq_false_iff.mp (startsType_of_endsType ends))
    exact Runs.pure ⟨rfl, trivial⟩
  named := nofun

theorem IsType.opens_append (isType : IsType supply level kinds) (rest : List TokenKind) :
    (kinds ++ rest).head?.any opensType = true := head?_append_of_any isType.opens rest

theorem IsType.startsType_append (isType : IsType supply level kinds) (rest : List TokenKind) :
    (kinds ++ rest).head?.any startsType = true := by
  have opens := isType.opens_append rest
  cases there : (kinds ++ rest).head? with
  | none =>
    rw [there] at opens
    cases opens
  | some kind =>
    rw [there, Option.any_some, opensType, Bool.and_eq_true] at opens
    exact opens.1

theorem IsResult.type (isType : IsType supply level kinds) : IsResult supply level kinds where
  reads := by
    intro left enough rest ends
    apply Runs.bind
    apply Runs.atOperator_no (apart (isType.opens_append rest) rfl)
    apply Runs.ite_neg Bool.false_ne_true
    apply Runs.bind
    apply atType_runs
    apply Runs.ite_pos (isType.startsType_append rest)
    exact isType.run enough ends ⟨rfl, trivial⟩
  named := isType.named

theorem IsResult.list (areParameters : AreParameters supply level kinds) :
    IsResult supply level (.operator .leftParen :: (kinds ++ [.operator .rightParen])) where
  reads := by
    intro left enough rest _
    rw [List.cons_append, List.append_assoc]
    apply Runs.bind
    apply Runs.atOperator_yes
    apply Runs.ite_pos rfl
    exact parameters_runs areParameters enough ⟨rfl, trivial⟩
  named := nofun

theorem IsType.starts (isType : IsType supply level kinds) :
    ∃ kind later, kinds = kind :: later ∧ opensType kind = true := by
  have opens := isType.opens
  cases kinds with
  | nil => cases opens
  | cons kind later => exact ⟨kind, later, rfl, opens⟩

theorem IsParameter.type (isType : IsType supply level kinds) : IsParameter supply level kinds where
  reads := by
    intro left enough rest ends
    apply Runs.bind
    apply Runs.eatOperator_no (apart (isType.opens_append rest) rfl)
    apply Runs.ite_neg Bool.false_ne_true
    apply Runs.bind
    apply Runs.peekKind_head
    by_cases name : kinds.head? = some .identifier
    · rcases isType.named name with rfl | rfl
      · apply Runs.ite_neg (fun differs => differs rfl)
        apply Runs.bind
        apply Runs.peekOperator (by decide)
        rw [endsParameter, Bool.or_eq_true, beq_iff_eq, beq_iff_eq] at ends
        have second : (([.identifier] : List TokenKind) ++ rest)[1]? = rest.head? := List.head?_eq_getElem?.symm
        rw [second]
        rcases ends with next | next
        all_goals
          rw [next]
          exact Runs.bump ⟨rfl, trivial⟩
      · apply Runs.ite_neg (fun differs => differs rfl)
        apply Runs.bind
        apply Runs.peekOperator (by decide)
        exact isType.run enough (endsType_of_endsParameter ends) ⟨rfl, trivial⟩
    · have noName : (kinds ++ rest).head? ≠ some .identifier := by
        obtain ⟨kind, later, rfl, _⟩ := isType.starts
        exact name
      apply Runs.ite_pos noName
      exact isType.run enough (endsType_of_endsParameter ends) ⟨rfl, trivial⟩
  starts rest := apart (isType.opens_append rest) rfl

theorem IsParameter.variadic (isType : IsType supply level kinds) :
    IsParameter supply level (.operator .ellipsis :: kinds) where
  reads := by
    intro left enough rest ends
    apply Runs.bind
    apply Runs.eatOperator_yes
    apply Runs.ite_pos rfl
    exact isType.run enough (endsType_of_endsParameter ends) ⟨rfl, trivial⟩
  starts _ := by simp

theorem IsParameter.named (isType : IsType supply level kinds) : IsParameter supply level (.identifier :: kinds) where
  reads := by
    intro left enough rest ends
    have operator : ∀ {operator}, opensType (.operator operator) = false →
        ((.identifier :: kinds ++ rest)[1]?).bind TokenKind.operator? ≠ some operator := by
      intro operator fails
      obtain ⟨kind, later, rfl, opens⟩ := isType.starts
      exact operator?_ne opens fails
    apply Runs.bind
    apply Runs.eatOperator_no (by simp)
    apply Runs.ite_neg Bool.false_ne_true
    apply Runs.bind
    apply Runs.peekKind_cons
    apply Runs.ite_neg (fun differs => differs rfl)
    apply Runs.bind
    apply Runs.peekOperator (by decide)
    split
    next next => exact absurd next (operator rfl)
    next next => exact absurd next (operator rfl)
    next next => exact absurd next (operator rfl)
    next next => exact absurd next (operator rfl)
    next =>
      apply Runs.bind
      apply Runs.bump
      apply Runs.bind
      apply Runs.peekKind_head
      have more : (kinds ++ rest).head?.isSome = true := by
        obtain ⟨kind, later, rfl, _⟩ := isType.starts
        rfl
      apply Runs.ite_pos more
      exact isType.run enough (endsType_of_endsParameter ends) ⟨rfl, trivial⟩
  starts _ := by simp

theorem IsParameter.namedVariadic (isType : IsType supply level kinds) :
    IsParameter supply level (.identifier :: .operator .ellipsis :: kinds) where
  reads := by
    intro left enough rest ends
    apply Runs.bind
    apply Runs.eatOperator_no (by simp)
    apply Runs.ite_neg Bool.false_ne_true
    apply Runs.bind
    apply Runs.peekKind_cons
    apply Runs.ite_neg (fun differs => differs rfl)
    apply Runs.bind
    apply Runs.peekOperator (by decide)
    apply Runs.bind
    apply Runs.bump
    apply Runs.bind
    apply Runs.bump
    exact isType.run enough (endsType_of_endsParameter ends) ⟨rfl, trivial⟩
  starts _ := by simp

def IsNames (kinds : List TokenKind) : Prop :=
  ∃ later, kinds = .identifier :: later ∧ Trailing (· = .operator .comma) (· = [.identifier]) later

theorem nameList_runs (isNames : IsNames kinds) (noComma : rest.head? ≠ some (.operator .comma))
    {post : Unit → List TokenKind → Prop} (holds : post () rest) : Runs supply (kinds ++ rest) nameList post := by
  obtain ⟨later, rfl, trailing⟩ := isNames
  apply Runs.bind
  apply Runs.expectName
  apply trailing_runs (fun _ => true) rfl _ trailing rfl noComma holds
  rintro _ rfl rest _
  exact Runs.expectName ⟨rfl, trivial⟩

/-- What may stand behind a field. -/
def IsTag (kinds : List TokenKind) : Prop := kinds = [] ∨ kinds = [.literal .string]

theorem IsTag.next (isTag : IsTag kinds) (ends : endsMember rest.head? = true) :
    (kinds ++ rest).head? = some (.literal .string) ∨ (kinds ++ rest).head? = some (.semicolon .explicit) ∨
      (kinds ++ rest).head? = some (.operator .rightBrace) := by
  rcases isTag with rfl | rfl
  · rw [endsMember, Bool.or_eq_true, beq_iff_eq, beq_iff_eq] at ends
    exact .inr ends
  · exact .inl rfl

theorem IsTag.run (isTag : IsTag kinds) (ends : endsMember rest.head? = true) :
    Runs supply (kinds ++ rest) (do if (← peekKind 0) = some (.literal .string) then bump) fun _ left =>
    left = rest ∧ True := by
  apply Runs.bind
  apply Runs.peekKind_head
  rcases isTag with rfl | rfl
  · apply Runs.ite_neg (apart ends rfl)
    exact Runs.pure ⟨rfl, trivial⟩
  · apply Runs.ite_pos rfl
    exact Runs.bump ⟨rfl, trivial⟩

/-- Behind a first name comes another one, or the type. -/
def followsName (kind : TokenKind) : Bool := opensType kind || kind == .operator .comma

theorem IsNames.follows {names : List TokenKind} (isNames : IsNames names) (isType : IsType supply level kinds) :
    (names ++ (kinds ++ rest))[1]?.any followsName = true := by
  obtain ⟨later, rfl, trailing⟩ := isNames
  cases trailing with
  | nil =>
    obtain ⟨kind, later, rfl, opens⟩ := isType.starts
    show followsName kind = true
    rw [followsName, opens, Bool.true_or]
  | cons separated =>
    obtain rfl := separated
    rfl

theorem IsField.names {names tag : List TokenKind} (isNames : IsNames names) (isType : IsType supply level kinds)
    (isTag : IsTag tag) :
    IsField supply level (names ++ (kinds ++ tag)) where
  reads := by
    intro left enough rest ends
    rw [List.append_assoc, List.append_assoc]
    have second : (names ++ (kinds ++ (tag ++ rest)))[1]?.any followsName = true := isNames.follows isType
    have behind : endsType (tag ++ rest).head? = true := by
      rcases isTag.next ends with next | next | next <;> rw [next] <;> rfl
    have first : (names ++ (kinds ++ (tag ++ rest))).head? = some .identifier := by
      obtain ⟨later, rfl, _⟩ := isNames
      rfl
    apply Runs.bind
    apply Runs.peekKind_head
    rw [first]
    apply Runs.bind
    apply Runs.peekKind (by decide)
    split
    next next => exact absurd next (apart second rfl)
    next next => exact absurd next (apart second rfl)
    next next => exact absurd next (apart second rfl)
    next next => exact absurd next (apart second rfl)
    next =>
      apply Runs.bind
      apply nameList_runs isNames (apart (isType.opens_append _) rfl)
      apply Runs.bind
      exact isType.run enough behind (isTag.run ends)
  starts rest := by
    obtain ⟨later, rfl, _⟩ := isNames
    simp

/-- The name in front of the name of an embedded type. -/
def IsQualifier (kinds : List TokenKind) : Prop := kinds = [] ∨ kinds = [.identifier, .operator .period]

theorem IsField.embedded {qualifier tag : List TokenKind} (isQualifier : IsQualifier qualifier) (isTag : IsTag tag) :
    IsField supply 0 (qualifier ++ .identifier :: tag) where
  reads := by
    intro left enough rest ends
    rw [List.append_assoc, List.cons_append]
    apply Runs.bind
    rcases isQualifier with rfl | rfl
    · apply Runs.peekKind_cons
      apply Runs.bind
      apply Runs.peekKind (by decide)
      have second : (.identifier :: (tag ++ rest))[1]? = (tag ++ rest).head? := List.head?_eq_getElem?.symm
      rw [second]
      rcases isTag.next ends with next | next | next
      all_goals
        rw [next]
        apply Runs.bind
        exact Runs.bump (isTag.run ends)
    · apply Runs.peekKind_cons
      apply Runs.bind
      apply Runs.peekKind (by decide)
      apply Runs.bind
      apply Runs.discard
      exact qualifiedName_runs (isTag.run ends)
  starts rest := by rcases isQualifier with rfl | rfl <;> simp

theorem IsField.embeddedPointer {qualifier tag : List TokenKind} (isQualifier : IsQualifier qualifier)
    (isTag : IsTag tag) :
    IsField supply 0 (.operator .mul :: (qualifier ++ .identifier :: tag)) where
  reads := by
    intro left enough rest ends
    rw [List.cons_append, List.append_assoc, List.cons_append]
    apply Runs.bind
    apply Runs.peekKind_cons
    apply Runs.bind
    apply Runs.bump
    apply Runs.bind
    apply Runs.discard
    rcases isQualifier with rfl | rfl
    · apply typeName_runs _ (isTag.run ends)
      rcases isTag.next ends with next | next | next <;> simp [next]
    · exact qualifiedName_runs (isTag.run ends)
  starts rest := by simp

theorem IsMember.method (signature : IsSignature supply level kinds) :
    IsMember supply level (.identifier :: kinds) where
  reads := by
    intro left enough rest ends
    obtain ⟨later, rfl⟩ := List.head?_eq_some_iff.mp signature.starts
    apply Runs.bind
    apply Runs.peekKind_cons
    apply Runs.ite_pos rfl
    apply Runs.bind
    apply Runs.peekOperator (by decide)
    apply Runs.ite_pos rfl
    apply Runs.bind
    apply Runs.bump
    exact (signature.reads left enough) rest (endsType_of_endsMember ends)
  starts _ := by simp

theorem typeUnion_runs (isType : IsType supply level kinds) {left : Nat} (enough : level ≤ left)
    (ends : endsMember rest.head? = true) :
    Runs supply (kinds ++ rest) (typeUnion (levels supply.nesting left)) fun _ left => left = rest ∧ True := by
  apply Runs.repeatUntil_done
  apply Runs.bind
  apply Runs.discard
  apply Runs.eatOperator_no (apart (isType.opens_append rest) rfl)
  apply Runs.bind
  apply isType.run enough (endsType_of_endsMember ends)
  apply Runs.bind
  apply Runs.eatOperator_no (apart ends rfl)
  exact Runs.pure ⟨rfl, rfl, trivial⟩

theorem IsMember.type (isType : IsType supply level kinds) : IsMember supply level kinds where
  reads := by
    intro left enough rest ends
    have union := typeUnion_runs isType enough ends
    apply Runs.bind
    apply Runs.peekKind_head
    by_cases name : (kinds ++ rest).head? = some .identifier
    · apply Runs.ite_pos name
      apply Runs.bind
      apply Runs.peekOperator (by decide)
      have noMethod : ((kinds ++ rest)[1]?).bind TokenKind.operator? ≠ some .leftParen := by
        obtain ⟨kind, later, rfl, _⟩ := isType.starts
        rcases isType.named name with same | same
        · rw [endsMember, Bool.or_eq_true, beq_iff_eq, beq_iff_eq] at ends
          have second : ((kind :: later) ++ rest)[1]? = rest.head? := by
            rw [same]
            exact List.head?_eq_getElem?.symm
          rw [second]
          rcases ends with next | next <;> simp [next, TokenKind.operator?]
        · simp [same, TokenKind.operator?]
      apply Runs.ite_neg noMethod
      exact union
    · apply Runs.ite_neg name
      exact union
  starts rest := ⟨apart (isType.opens_append rest) rfl, fun _ => apart (isType.opens_append rest) rfl⟩

end

end GoPrompt
