import GoPrompt.Proofs.Acceptance.Operands

/-! Expressions are read to their end. An expression is a chain of unary expressions with binary operators between
them, and however the operators bind, precedence climbing reads the whole chain. -/

namespace GoPrompt

open Parse Grammar

section operands

variable {supply : Supply} {place : Place} {base shape : Shape} {level first second : Nat} {kinds rest : List TokenKind}

private theorem operand_runs {deeper : Deeper} {kind : TokenKind} {post : Expression → List TokenKind → Prop}
    (runs : ∀ token : Token, token.kind = kind →
      Runs supply (kind :: rest) (operandShape deeper token) fun shape after => ∀ span, post ⟨shape, span⟩ after) :
    Runs supply (kind :: rest) (operand deeper) post := by
  apply Runs.bind
  apply Runs.peek_cons
  intro token isKind
  apply Runs.bind
  apply (runs token isKind).weaken
  intro shape after holds
  apply Runs.bind
  apply Runs.spanFrom
  intro span
  exact Runs.pure (holds span)

theorem IsOperand.name : IsOperand supply .identifier 0 [.identifier] where
  reads := by
    intro left _ rest _
    apply operand_runs
    intro token isKind
    simp only [operandShape, isKind]
    apply Runs.bind
    apply Runs.bump
    exact Runs.pure fun _ => ⟨rfl, rfl⟩
  starts := rfl
  literal := nofun

theorem IsOperand.ofLiteral {kind : LiteralKind} : IsOperand supply .other 0 [.literal kind] where
  reads := by
    intro left _ rest _
    apply operand_runs
    intro token isKind
    simp only [operandShape, isKind]
    apply Runs.bind
    apply Runs.bump
    exact Runs.pure fun _ => ⟨rfl, rfl⟩
  starts := rfl
  literal := nofun

theorem IsOperand.parenthesized (isExpression : IsExpression supply .free level kinds) :
    IsOperand supply .other level (.operator .leftParen :: (kinds ++ [.operator .rightParen])) where
  reads := by
    intro left enough rest _
    rw [List.cons_append, List.append_assoc]
    apply operand_runs
    intro token isKind
    simp only [operandShape, isKind]
    apply Runs.bind
    apply Runs.bump
    apply Runs.bind
    apply isExpression.run enough rfl
    apply Runs.bind
    apply Runs.expectOperator
    exact Runs.pure fun _ => ⟨rfl, rfl⟩
  starts := rfl
  literal := nofun

theorem IsOperand.function {type body : List TokenKind} (isSignature : IsSignature supply first type)
    (isBlock : IsBlock supply second body) :
    IsOperand supply .other (max first second) (.keyword .func :: (type ++ body)) where
  reads := by
    intro left enough rest _
    rw [List.cons_append, List.append_assoc]
    have brace : (body ++ rest).head? = some (.operator .leftBrace) := by
      obtain ⟨later, rfl⟩ := List.head?_eq_some_iff.mp isBlock.starts
      rfl
    apply operand_runs
    intro token isKind
    simp only [operandShape, isKind]
    apply Runs.bind
    apply Runs.bump
    apply Runs.bind
    apply (isSignature.reads left (by omega)).run (by rw [brace]; rfl)
    intro _ _
    apply Runs.bind
    apply isBlock.runOptional (show second ≤ left by omega)
    exact Runs.pure fun _ => ⟨rfl, rfl⟩
  starts := rfl
  literal _ := ⟨rfl, type, body, rfl, isSignature.mono (Nat.le_max_left _ _), isBlock.mono (Nat.le_max_right _ _)⟩

theorem IsOperand.literalType (isType : IsLiteralType supply true level kinds) :
    IsOperand supply .literalType level kinds := by
  obtain ⟨program, reads, starts⟩ := isType.reads
  have whole : Reads supply level operand kinds (fun next => Shape.literalType != .literalType || endsType next)
      (·.shape = .literalType) := by
    intro left enough rest ends
    rcases starts with ⟨head, rfl⟩ | ⟨head, rfl⟩ | ⟨head, rfl⟩
    all_goals
      obtain ⟨later, rfl⟩ := List.head?_eq_some_iff.mp head
      apply operand_runs
      intro token isKind
      simp only [operandShape, isKind]
      apply (reads left enough).run ends
      exact fun _ isType _ => ⟨rfl, isType⟩
  rcases starts with ⟨head, -⟩ | ⟨head, -⟩ | ⟨head, -⟩
  all_goals
    obtain ⟨later, rfl⟩ := List.head?_eq_some_iff.mp head
    exact ⟨whole, rfl, nofun⟩

theorem IsLiteralType.array {bodyFollows : Bool} {length : List TokenKind}
    (isLength : IsExpression supply .free first length) (element : IsType supply second kinds) :
    IsLiteralType supply bodyFollows (max first second)
      (.operator .leftBracket :: (length ++ .operator .rightBracket :: kinds)) where
  reads := by
    refine ⟨_, ?_, .inl ⟨rfl, rfl⟩⟩
    intro left enough rest ends
    rw [List.cons_append, List.append_assoc]
    have starts := isLength.starts_append (.operator .rightBracket :: kinds ++ rest)
    have operator : ∀ {operator}, startsExpression (.operator operator) = false →
        (length ++ (.operator .rightBracket :: kinds ++ rest)).head?.bind TokenKind.operator? ≠ some operator := by
      intro operator fails same
      obtain ⟨kind, next, isOperator⟩ := Option.bind_eq_some_iff.mp same
      rw [next] at starts
      exact operator?_ne starts fails isOperator
    apply Runs.bind
    apply Runs.expectOperator
    apply Runs.bind
    apply Runs.peekOperator_head
    split
    next next => exact absurd next (operator rfl)
    next next => exact absurd next (operator rfl)
    next =>
      apply Runs.bind
      apply isLength.run (show first ≤ left by omega) rfl
      apply Runs.bind
      apply Runs.expectOperator
      apply Runs.bind
      apply element.run (show second ≤ left by omega) ends
      exact Runs.pure ⟨rfl, rfl⟩

end operands

section primaries

variable {supply : Supply} {place : Place} {base shape : Shape} {level first second : Nat}
  {kinds later rest : List TokenKind}

theorem IsPrimary.ofOperand (isOperand : IsOperand supply shape level kinds)
    (isValue : shape ≠ .literalType ∧ shape ≠ .typeGuard) :
    IsPrimary supply place shape level kinds where
  parts := ⟨shape, kinds, [], (List.append_nil _).symm, isOperand, AreSuffixes.nil.mono (Nat.zero_le _),
    fun isType => absurd isType isValue.1⟩
  isValue := isValue

theorem IsPrimary.composite (isType : IsLiteralType supply true first kinds)
    (isValue : IsLiteralValue supply second later) :
    IsPrimary supply place .other (max first second) (kinds ++ later) where
  parts := ⟨.literalType, kinds, later, rfl, (IsOperand.literalType isType).mono (Nat.le_max_left _ _),
    (AreSuffixes.body ⟨rfl, .inr (by decide)⟩ isValue).mono (Nat.le_max_right _ _), fun _ => isValue.starts⟩
  isValue := by decide

theorem IsPrimary.append (isPrimary : IsPrimary supply place base first kinds)
    (areSuffixes : AreSuffixes supply place base shape second later)
    (isValue : shape ≠ .literalType ∧ shape ≠ .typeGuard) :
    IsPrimary supply place shape (max first second) (kinds ++ later) where
  parts := by
    obtain ⟨lowest, start, middle, rfl, isOperand, front, brace⟩ := isPrimary.parts
    refine ⟨lowest, start, middle ++ later, List.append_assoc .., isOperand.mono (Nat.le_max_left _ _),
      front.append areSuffixes, ?_⟩
    intro isType
    rw [List.head?_append, brace isType]
    rfl
  isValue := isValue

theorem IsPrimary.starts (isPrimary : IsPrimary supply place shape level kinds) :
    kinds.head?.any startsOperand = true := by
  obtain ⟨_, start, later, rfl, isOperand, _, _⟩ := isPrimary.parts
  exact head?_append_of_any isOperand.starts later

/-- An operand is read with all that is appended to it; what follows is up to the reader of suffixes. -/
theorem IsPrimary.run (isPrimary : IsPrimary supply place shape level kinds) {left : Nat} (enough : level ≤ left)
    {post : Expression → List TokenKind → Prop}
    (continues : ∀ span, Runs supply rest (suffixes (levels supply.nesting left) place ⟨shape, span⟩) post) :
    Runs supply (kinds ++ rest) (primary (levels supply.nesting left) place) post := by
  obtain ⟨base, start, later, rfl, isOperand, areSuffixes, brace⟩ := isPrimary.parts
  have ends : (base != .literalType || endsType (later ++ rest).head?) = true := by
    by_cases isType : base = .literalType
    · have next : (later ++ rest).head? = some (.operator .leftBrace) := by
        rw [List.head?_append, brace isType]
        rfl
      rw [next]
      exact Bool.or_true _
    · rw [bne_iff_ne.mpr isType]
      rfl
  rw [List.append_assoc]
  apply Runs.bind
  apply (isOperand.reads left enough).run ends
  rintro ⟨_, span⟩ rfl
  exact areSuffixes left enough rest span post continues

theorem IsPrimary.reads (isPrimary : IsPrimary supply place shape level kinds) :
    Reads supply level (fun deeper => primary deeper place) kinds (endsOperand place) (·.shape = shape) := by
  intro left enough rest ends
  apply isPrimary.run enough
  intro span
  exact suffixes_done isPrimary.isValue.1 ends ⟨rfl, rfl⟩

end primaries

section chains

variable {supply : Supply} {place : Place} {shape : Shape} {level first second : Nat}
  {kinds later rest : List TokenKind}

private theorem endsOperand_of_endsExpression {next : Option TokenKind} (ends : endsExpression place next = true) :
    endsOperand place next = true := by
  rw [endsExpression, Bool.and_eq_true] at ends
  exact ends.1

private theorem endsOperand_of_isBinary {kind : TokenKind} (binary : isBinary kind = true) :
    endsOperand place (some kind) = true := by
  cases kind with
  | operator operator => cases operator <;> first | rfl | cases binary
  | _ => rfl

private theorem startsOperand_operator? {kind : TokenKind} (starts : startsOperand kind = true) {operator : Operator}
    (isOperator : kind.operator? = some operator) : isUnary operator = false ∧ operator ≠ .arrow := by
  cases kind <;> cases isOperator
  revert starts
  cases operator <;> decide

/-- A unary expression without an operator is an operand with what is appended to it. -/
theorem unary_runs {left : Nat} {post : Expression → List TokenKind → Prop}
    (starts : kinds.head?.any startsOperand = true)
    (runs : Runs supply kinds (primary (levels supply.nesting left) place) post) :
    Runs supply kinds ((levels supply.nesting (left + 1)).unary place) post := by
  cases kinds with
  | nil => cases starts
  | cons kind later =>
    apply Runs.bind
    apply Runs.peek_cons
    intro token isKind
    have operator : token.operator? = kind.operator? := congrArg TokenKind.operator? isKind
    have noUnary : ¬ token.operator?.any isUnary = true := by
      rw [operator]
      cases isOperator : kind.operator? with
      | none => exact Bool.false_ne_true
      | some operator => exact Bool.eq_false_iff.mp (startsOperand_operator? starts isOperator).1
    have noArrow : ¬ token.operator? = some .arrow := by
      rw [operator]
      exact fun isOperator => (startsOperand_operator? starts isOperator).2 rfl
    apply Runs.ite_neg noUnary
    exact Runs.ite_neg noArrow runs

private theorem startsExpression_of_startsOperand {kind : TokenKind} (starts : startsOperand kind = true) :
    startsExpression kind = true := by
  cases kind with
  | operator operator => revert starts; cases operator <;> decide
  | _ => exact starts

theorem startsExpression_head {next : Option TokenKind} (starts : next.any startsOperand = true) :
    next.any startsExpression = true := by
  cases next with
  | none => cases starts
  | some kind => exact startsExpression_of_startsOperand starts

theorem IsUnary.ofPrimary (isPrimary : IsPrimary supply place shape level kinds) :
    IsUnary supply place (level + 1) kinds where
  reads := by
    intro left enough rest ends
    obtain ⟨below, rfl⟩ : ∃ below, left = below + 1 := ⟨left - 1, by omega⟩
    apply unary_runs (head?_append_of_any isPrimary.starts rest)
    apply (isPrimary.reads below (by omega)).run ends
    rintro _ rfl
    exact ⟨rfl, isPrimary.isValue.2⟩
  starts := startsExpression_head isPrimary.starts
  literal _ := ⟨shape, isPrimary.mono (Nat.le_succ _)⟩

theorem IsUnary.unary {operator : Operator} (isUnary : Grammar.isUnary operator = true ∨ operator = .arrow)
    (isOperand : IsUnary supply place level kinds) :
    IsUnary supply place (level + 1) (.operator operator :: kinds) where
  reads := by
    intro left enough rest ends
    obtain ⟨below, rfl⟩ : ∃ below, left = below + 1 := ⟨left - 1, by omega⟩
    have operand : ∀ start : Span, Runs supply (kinds ++ rest)
        (do
          let operand ← (levels supply.nesting below).unary place
          return ⟨.other, start.merge operand.span⟩ : Parse Expression)
        fun value left => left = rest ∧ value.shape ≠ .typeGuard := by
      intro start
      apply Runs.bind
      apply (isOperand.reads below (by omega)).run ends
      intro _ _
      exact Runs.pure ⟨rfl, by simp⟩
    apply Runs.bind
    apply Runs.peek_cons
    intro token isKind
    have isOperator : token.operator? = some operator := congrArg TokenKind.operator? isKind
    by_cases sign : Grammar.isUnary operator = true
    · apply Runs.ite_pos (by rw [isOperator]; exact sign)
      apply Runs.bind
      apply Runs.bump
      exact operand _
    · obtain rfl := isUnary.resolve_left sign
      apply Runs.ite_neg (by rw [isOperator]; exact sign)
      apply Runs.ite_pos isOperator
      apply Runs.bind
      apply Runs.bump
      apply Runs.bind
      apply Runs.atKeyword_no (apart (head?_append_of_any isOperand.starts rest) rfl)
      apply Runs.ite_neg Bool.false_ne_true
      exact operand _
  starts := by
    rcases isUnary with sign | rfl
    · show (Grammar.isUnary operator || _) = true
      rw [sign, Bool.true_or]
    · rfl
  literal := nofun

private theorem precedence_of_endsExpression {operator : Operator} (ends : endsExpression place rest.head? = true)
    (next : rest.head?.bind TokenKind.operator? = some operator) : operator.precedence = 0 := by
  obtain ⟨kind, isHead, isOperator⟩ := Option.bind_eq_some_iff.mp next
  cases kind <;> cases isOperator
  rw [endsExpression, isHead, Bool.and_eq_true] at ends
  simpa [isBinary] using ends.2

theorem binaryTail_done {left tightness : Nat} {operand : Expression} (ends : endsExpression place rest.head? = true)
    {post : Expression → List TokenKind → Prop} (holds : post operand rest) :
    Runs supply rest (binaryTail (levels supply.nesting left) place tightness operand) post := by
  rw [binaryTail]
  apply Runs.iterate_done
  apply Runs.bind
  apply Runs.peekOperator_head
  cases next : rest.head?.bind TokenKind.operator? with
  | none => exact Runs.pure ⟨_, rfl, holds⟩
  | some operator =>
    have weak := precedence_of_endsExpression ends next
    dsimp only
    rw [dif_pos (.inl weak)]
    exact Runs.pure ⟨_, rfl, holds⟩

/-- A part of a chain that binds less tightly than what has been read. -/
structure IsLooser (supply : Supply) (place : Place) (level tightness : Nat) (kinds : List TokenKind) : Prop where
  trailing : Trailing (isBinary · = true) (IsUnary supply place level) kinds
  loose : ∀ operator, kinds.head? = some (.operator operator) → operator.precedence < tightness

/-- Precedence climbing reads a chain up to the first operator that binds less tightly. -/
private theorem binaryTail_chain {kinds : List TokenKind} {left tightness : Nat} {operand : Expression}
    (enough : level ≤ left) (trailing : Trailing (isBinary · = true) (IsUnary supply place level) kinds)
    (ends : endsExpression place rest.head? = true) (value : operand.shape ≠ .typeGuard) :
    Runs supply (kinds ++ rest) (binaryTail (levels supply.nesting left) place tightness operand) fun result after =>
      ∃ later, after = later ++ rest ∧ later.length ≤ kinds.length ∧ IsLooser supply place level tightness later ∧
        result.shape ≠ .typeGuard := by
  match trailing with
  | .nil => exact binaryTail_done ends ⟨[], rfl, Nat.le_refl _, ⟨.nil, nofun⟩, value⟩
  | @Trailing.cons _ _ kind unary chain isOperator isUnary chained =>
    obtain ⟨operator, rfl⟩ : ∃ operator, kind = .operator operator := by
      cases kind with
      | operator operator => exact ⟨operator, rfl⟩
      | _ => cases isOperator
    have binds : operator.precedence ≠ 0 := by simpa [isBinary] using isOperator
    rw [binaryTail, List.cons_append, List.append_assoc]
    by_cases weak : operator.precedence < tightness
    · apply Runs.iterate_done
      apply Runs.bind
      apply Runs.peekOperator_cons
      dsimp only
      rw [dif_pos (.inr weak)]
      have loose : ∀ other, some (TokenKind.operator operator) = some (.operator other) →
          other.precedence < tightness := by
        rintro _ ⟨⟩
        exact weak
      have whole : .operator operator :: (unary ++ (chain ++ rest)) =
          (.operator operator :: (unary ++ chain)) ++ rest := by
        rw [List.cons_append, List.append_assoc]
      exact Runs.pure ⟨_, rfl, _, whole, Nat.le_refl _, ⟨.cons isOperator isUnary chained, loose⟩, value⟩
    · have behind : endsOperand place (chain ++ rest).head? = true := by
        cases chained with
        | nil => exact endsOperand_of_endsExpression ends
        | cons isOperator => exact endsOperand_of_isBinary isOperator
      apply Runs.iterate_again
      apply Runs.bind
      apply Runs.peekOperator_cons
      dsimp only
      rw [dif_neg (not_or.mpr ⟨binds, weak⟩)]
      apply Runs.bind
      apply Runs.bump
      apply Runs.bind
      apply (isUnary.reads left enough).run behind
      intro right isValue
      apply Runs.bind
      apply (binaryTail_chain enough chained ends isValue).weaken
      rintro last _ ⟨later, rfl, shorter, looser, _⟩
      have again : Runs supply (later ++ rest)
          (binaryTail (levels supply.nesting left) place tightness ⟨.other, operand.span.merge last.span⟩) _ :=
        binaryTail_chain enough looser.trailing ends (by simp)
      rw [binaryTail] at again
      apply Runs.pure
      refine ⟨_, rfl, ?_, again.weaken ?_⟩
      · simp only [List.length_append, List.length_cons]
        omega
      · rintro result _ ⟨later', rfl, shorter', looser', holds⟩
        refine ⟨later', rfl, ?_, looser', holds⟩
        simp only [List.length_append, List.length_cons]
        omega
termination_by kinds.length
decreasing_by
  all_goals
    simp only [List.length_append, List.length_cons]
    omega

theorem binaryTail_runs {left : Nat} {operand : Expression} (enough : level ≤ left)
    (trailing : Trailing (isBinary · = true) (IsUnary supply place level) kinds)
    (ends : endsExpression place rest.head? = true) (value : operand.shape ≠ .typeGuard)
    {post : Expression → List TokenKind → Prop} (holds : ∀ result, result.shape ≠ .typeGuard → post result rest) :
    Runs supply (kinds ++ rest) (binaryTail (levels supply.nesting left) place 1 operand) post := by
  apply (binaryTail_chain enough trailing ends value).weaken
  rintro result _ ⟨later, rfl, _, ⟨trailing, loose⟩, isValue⟩
  cases trailing with
  | nil => exact holds result isValue
  | @cons kind _ _ isOperator =>
    cases kind with
    | operator operator =>
      have weak := loose operator rfl
      have binds : operator.precedence ≠ 0 := by simpa [isBinary] using isOperator
      omega
    | _ => cases isOperator

theorem endsOperand_trailing {item : List TokenKind → Prop} (trailing : Trailing (isBinary · = true) item kinds)
    (ends : endsExpression place rest.head? = true) : endsOperand place (kinds ++ rest).head? = true := by
  cases trailing with
  | nil => exact endsOperand_of_endsExpression ends
  | cons isOperator => exact endsOperand_of_isBinary isOperator

private theorem IsExpression.ofChain (separated : Separated (isBinary · = true) (IsUnary supply place level) kinds) :
    IsExpression supply place (level + 1) kinds where
  reads := by
    obtain ⟨first, later, rfl, isUnary, trailing⟩ := separated
    intro left enough rest ends
    obtain ⟨below, rfl⟩ : ∃ below, left = below + 1 := ⟨left - 1, by omega⟩
    rw [List.append_assoc]
    apply Runs.bind
    apply (isUnary.reads below (by omega)).run (endsOperand_trailing trailing ends)
    intro operand isValue
    apply binaryTail_runs (show level ≤ below by omega) trailing ends isValue
    exact fun _ isValue => ⟨rfl, isValue⟩
  starts := by
    obtain ⟨first, later, rfl, isUnary, _⟩ := separated
    exact head?_append_of_any isUnary.starts later
  chain := ⟨level, Nat.lt_succ_self _, separated⟩

theorem IsExpression.ofUnary (isUnary : IsUnary supply place level kinds) :
    IsExpression supply place (level + 1) kinds :=
  .ofChain (.one isUnary)

theorem IsExpression.binary {operator : Operator} (front : IsExpression supply place first kinds)
    (binds : operator.precedence ≠ 0) (back : IsExpression supply place second later) :
    IsExpression supply place (max first second) (kinds ++ .operator operator :: later) := by
  obtain ⟨below, less, separated⟩ := front.chain
  obtain ⟨below', less', separated'⟩ := back.chain
  have chain := (separated.imp fun _ isUnary => isUnary.mono (Nat.le_max_left below below')).join
    (show isBinary (.operator operator) = true by simpa [isBinary] using binds)
    (separated'.imp fun _ isUnary => isUnary.mono (Nat.le_max_right below below'))
  exact (IsExpression.ofChain chain).mono (by omega)

private theorem lone_reads
    (reads : Reads supply level (fun deeper => primary deeper place) kinds (endsOperand place) (·.shape = shape))
    (starts : kinds.head?.any startsOperand = true) :
    Reads supply (level + 2) (fun deeper => deeper.expression place) kinds
      (endsExpression place) (·.shape = shape) := by
  intro left enough rest ends
  obtain ⟨below, rfl⟩ : ∃ below, left = below + 2 := ⟨left - 2, by omega⟩
  apply Runs.bind
  apply unary_runs (head?_append_of_any starts rest)
  apply (reads below (by omega)).run (endsOperand_of_endsExpression ends)
  rintro operand isShape
  exact binaryTail_done ends ⟨rfl, isShape⟩

theorem IsPrimary.guard_reads (isPrimary : IsPrimary supply place shape level kinds) :
    Reads supply (level + 2) (fun deeper => deeper.expression place)
      (kinds ++ [.operator .period, .operator .leftParen, .keyword .type, .operator .rightParen])
      (endsExpression place) (·.shape = .typeGuard) := by
  apply lone_reads
  · intro left enough rest ends
    rw [List.append_assoc]
    apply isPrimary.run enough
    intro span
    apply AreSuffixes.guard left (Nat.zero_le _)
    intro span
    exact suffixes_done (by simp) ends ⟨rfl, rfl⟩
  · exact head?_append_of_any isPrimary.starts _

theorem name_reads : Reads supply 2 (fun deeper => deeper.expression place) [.identifier] (endsExpression place)
    (·.shape = .identifier) :=
  lone_reads (IsPrimary.ofOperand .name (by decide)).reads rfl

end chains

end GoPrompt
