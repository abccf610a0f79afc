import GoPrompt.Grammar.Expression
import GoPrompt.Proofs.Acceptance.Types

/-! Operands and what is appended to them. An operand ends in front of every kind that appends nothing to it; in a
header a brace is such a kind, unless it stands behind a type without a name. -/

namespace GoPrompt

open Parse Grammar

def startsOperand : TokenKind → Bool
  | .identifier | .literal _ => true
  | .operator operator => [.leftParen, .leftBracket].contains operator
  | .keyword keyword => [.map, .struct, .func].contains keyword
  | _ => false

def startsExpression : TokenKind → Bool
  | .operator operator => isUnary operator || [.arrow, .leftParen, .leftBracket].contains operator
  | kind => startsOperand kind

def isBinary : TokenKind → Bool
  | .operator operator => operator.precedence != 0
  | _ => false

/-- What may follow an operand. -/
def endsOperand (place : Place) : Option TokenKind → Bool
  | some (.operator operator) =>
    !([.period, .leftBracket, .leftParen].contains operator) && (operator != .leftBrace || place == .header)
  | _ => true

/-- What may follow an expression. -/
def endsExpression (place : Place) (next : Option TokenKind) : Bool := endsOperand place next && !next.any isBinary

structure IsBlock (supply : Supply) (level : Nat) (kinds : List TokenKind) : Prop where
  reads : Reads supply level block kinds (fun _ => true) fun _ => True
  starts : kinds.head? = some (.operator .leftBrace)

structure IsLiteralValue (supply : Supply) (level : Nat) (kinds : List TokenKind) : Prop where
  reads : Reads supply level literalValue kinds (fun _ => true) fun _ => True
  starts : kinds.head? = some (.operator .leftBrace)

/-- An operand without anything appended to it. -/
structure IsOperand (supply : Supply) (shape : Shape) (level : Nat) (kinds : List TokenKind) : Prop where
  reads : Reads supply level operand kinds (fun next => shape != .literalType || endsType next) (·.shape = shape)
  starts : kinds.head?.any startsOperand = true
  literal : kinds.head? = some (.keyword .func) → shape = .other ∧
    ∃ type body, kinds = .keyword .func :: (type ++ body) ∧ IsSignature supply level type ∧ IsBlock supply level body

/-- What is appended to an operand of one shape to make a whole of another. -/
def AreSuffixes (supply : Supply) (place : Place) (base shape : Shape) (level : Nat) (kinds : List TokenKind) : Prop :=
  ∀ left, level ≤ left → ∀ (rest : List TokenKind) (span : Span) (post : Expression → List TokenKind → Prop),
    (∀ span, Runs supply rest (suffixes (levels supply.nesting left) place ⟨shape, span⟩) post) →
      Runs supply (kinds ++ rest) (suffixes (levels supply.nesting left) place ⟨base, span⟩) post

/-- An operand with everything that is appended to it. -/
structure IsPrimary (supply : Supply) (place : Place) (shape : Shape) (level : Nat)
    (kinds : List TokenKind) : Prop where
  parts : ∃ base start later, kinds = start ++ later ∧ IsOperand supply base level start ∧
    AreSuffixes supply place base shape level later ∧ (base = .literalType → later.head? = some (.operator .leftBrace))
  isValue : shape ≠ .literalType ∧ shape ≠ .typeGuard

structure IsUnary (supply : Supply) (place : Place) (level : Nat) (kinds : List TokenKind) : Prop where
  reads : Reads supply level (fun deeper => deeper.unary place) kinds (endsOperand place) (·.shape ≠ .typeGuard)
  starts : kinds.head?.any startsExpression = true
  literal : kinds.head? = some (.keyword .func) → ∃ shape, IsPrimary supply place shape level kinds

structure IsExpression (supply : Supply) (place : Place) (level : Nat) (kinds : List TokenKind) : Prop where
  reads : Reads supply level (fun deeper => deeper.expression place) kinds (endsExpression place) (·.shape ≠ .typeGuard)
  starts : kinds.head?.any startsExpression = true
  /-- Operators between unary expressions of the level below. -/
  chain : ∃ below, below < level ∧ Separated (isBinary · = true) (IsUnary supply place below) kinds

structure IsArgument (supply : Supply) (level : Nat) (kinds : List TokenKind) : Prop where
  reads : Reads supply level
    (fun deeper => do
      discard (deeper.expression .free)
      discard (eatOperator .ellipsis)) kinds endsParameter fun _ => True
  starts : ∀ rest, (kinds ++ rest).head? ≠ some (.operator .rightParen)

def endsEntry (next : Option TokenKind) : Bool :=
  next == some (.operator .comma) || next == some (.operator .rightBrace)

def endsElement (next : Option TokenKind) : Bool := endsEntry next || next == some (.operator .colon)

structure IsElement (supply : Supply) (level : Nat) (kinds : List TokenKind) : Prop where
  reads : Reads supply level literalElement kinds endsElement fun _ => True
  starts : ∀ rest, (kinds ++ rest).head? ≠ some (.operator .rightBrace)

structure IsEntry (supply : Supply) (level : Nat) (kinds : List TokenKind) : Prop where
  reads : Reads supply level
    (fun deeper => do
      literalElement deeper
      if ← eatOperator .colon then literalElement deeper) kinds endsEntry fun _ => True
  starts : ∀ rest, (kinds ++ rest).head? ≠ some (.operator .rightBrace)

section

variable {supply : Supply} {place : Place} {base shape : Shape} {level higher : Nat} {kinds : List TokenKind}

theorem IsBlock.mono (isBlock : IsBlock supply level kinds) (le : level ≤ higher) : IsBlock supply higher kinds :=
  ⟨isBlock.reads.mono le, isBlock.starts⟩

theorem IsLiteralValue.mono (isValue : IsLiteralValue supply level kinds) (le : level ≤ higher) :
    IsLiteralValue supply higher kinds :=
  ⟨isValue.reads.mono le, isValue.starts⟩

theorem IsOperand.mono (isOperand : IsOperand supply shape level kinds) (le : level ≤ higher) :
    IsOperand supply shape higher kinds where
  reads := isOperand.reads.mono le
  starts := isOperand.starts
  literal starts := by
    obtain ⟨isOther, type, body, same, isSignature, isBlock⟩ := isOperand.literal starts
    exact ⟨isOther, type, body, same, isSignature.mono le, isBlock.mono le⟩

theorem AreSuffixes.mono (areSuffixes : AreSuffixes supply place base shape level kinds) (le : level ≤ higher) :
    AreSuffixes supply place base shape higher kinds :=
  fun left enough => areSuffixes left (Nat.le_trans le enough)

theorem IsPrimary.mono (isPrimary : IsPrimary supply place shape level kinds) (le : level ≤ higher) :
    IsPrimary supply place shape higher kinds where
  parts := by
    obtain ⟨base, start, later, same, isOperand, areSuffixes, brace⟩ := isPrimary.parts
    exact ⟨base, start, later, same, isOperand.mono le, areSuffixes.mono le, brace⟩
  isValue := isPrimary.isValue

theorem IsUnary.mono (isUnary : IsUnary supply place level kinds) (le : level ≤ higher) :
    IsUnary supply place higher kinds where
  reads := isUnary.reads.mono le
  starts := isUnary.starts
  literal starts := by
    obtain ⟨shape, isPrimary⟩ := isUnary.literal starts
    exact ⟨shape, isPrimary.mono le⟩

theorem IsExpression.mono (isExpression : IsExpression supply place level kinds) (le : level ≤ higher) :
    IsExpression supply place higher kinds where
  reads := isExpression.reads.mono le
  starts := isExpression.starts
  chain := by
    obtain ⟨below, less, separated⟩ := isExpression.chain
    exact ⟨below, Nat.lt_of_lt_of_le less le, separated⟩

theorem IsArgument.mono (isArgument : IsArgument supply level kinds) (le : level ≤ higher) :
    IsArgument supply higher kinds :=
  ⟨isArgument.reads.mono le, isArgument.starts⟩

theorem IsElement.mono (isElement : IsElement supply level kinds) (le : level ≤ higher) :
    IsElement supply higher kinds :=
  ⟨isElement.reads.mono le, isElement.starts⟩

theorem IsEntry.mono (isEntry : IsEntry supply level kinds) (le : level ≤ higher) : IsEntry supply higher kinds :=
  ⟨isEntry.reads.mono le, isEntry.starts⟩

end

section

variable {supply : Supply} {place : Place} {base shape : Shape} {level first second : Nat} {kinds rest : List TokenKind}

theorem IsExpression.run (isExpression : IsExpression supply place level kinds) {left : Nat} (enough : level ≤ left)
    (ends : endsExpression place rest.head? = true) {post : Unit → List TokenKind → Prop} (holds : post () rest) :
    Runs supply (kinds ++ rest) (discard ((levels supply.nesting left).expression place)) post := by
  apply Runs.discard
  apply (isExpression.reads left enough).run ends
  exact fun _ _ => holds

theorem IsExpression.starts_append (isExpression : IsExpression supply place level kinds) (rest : List TokenKind) :
    (kinds ++ rest).head?.any startsExpression = true := head?_append_of_any isExpression.starts rest

theorem IsBlock.runOptional (isBlock : IsBlock supply level kinds) {left : Nat} (enough : level ≤ left)
    {post : Unit → List TokenKind → Prop} (holds : post () rest) :
    Runs supply (kinds ++ rest) (optionalBlock (levels supply.nesting left)) post := by
  obtain ⟨later, same⟩ := List.head?_eq_some_iff.mp isBlock.starts
  have runs : Runs supply (kinds ++ rest) (block (levels supply.nesting left)) post := by
    apply (isBlock.reads left enough).run rfl
    exact fun _ _ => holds
  rw [same] at runs ⊢
  apply Runs.bind
  apply Runs.atOperator_yes
  exact Runs.ite_pos rfl runs

theorem optionalBlock_runs (isBlock : Optionally (IsBlock supply level) kinds) {left : Nat} (enough : level ≤ left)
    (noBrace : rest.head? ≠ some (.operator .leftBrace)) {post : Unit → List TokenKind → Prop} (holds : post () rest) :
    Runs supply (kinds ++ rest) (optionalBlock (levels supply.nesting left)) post := by
  rcases isBlock with rfl | isBlock
  · apply Runs.bind
    apply Runs.atOperator_no noBrace
    apply Runs.ite_neg Bool.false_ne_true
    exact Runs.pure holds
  · exact isBlock.runOptional enough holds

section suffixes

theorem AreSuffixes.nil : AreSuffixes supply place shape shape 0 [] :=
  fun _ _ _ span _ continues => continues span

theorem AreSuffixes.append {middle : Shape} {later : List TokenKind}
    (front : AreSuffixes supply place base middle first kinds)
    (back : AreSuffixes supply place middle shape second later) :
    AreSuffixes supply place base shape (max first second) (kinds ++ later) := by
  intro left enough rest span post continues
  rw [List.append_assoc]
  apply front left (by omega)
  intro span
  exact back left (by omega) rest span post continues

theorem AreSuffixes.single {operator : Operator}
    (reads : Reads supply level (fun deeper => suffix deeper place base operator) (.operator operator :: kinds) (fun _ => true)
      (· = some shape)) :
    AreSuffixes supply place base shape level (.operator operator :: kinds) := by
  intro left enough rest span post continues
  apply Runs.iterate_again
  apply Runs.bind
  apply Runs.peekOperator_cons
  apply Runs.bind
  apply (reads left enough).run rfl
  rintro _ rfl
  apply Runs.bind
  apply Runs.spanFrom
  intro span
  apply Runs.pure
  refine ⟨_, rfl, ?_, continues _⟩
  simp only [List.length_append, List.length_cons]
  omega

/-- An operand ends where nothing is appended to it. -/
theorem suffixes_done {left : Nat} {operand : Expression} (isValue : operand.shape ≠ .literalType)
    (ends : endsOperand place rest.head? = true) {post : Expression → List TokenKind → Prop} (holds : post operand rest) :
    Runs supply rest (suffixes (levels supply.nesting left) place operand) post := by
  apply Runs.iterate_done
  apply Runs.bind
  apply Runs.peekOperator_head
  cases there : rest.head?.bind TokenKind.operator? with
  | none => exact Runs.pure ⟨_, rfl, holds⟩
  | some operator =>
    obtain ⟨kind, next, isOperator⟩ := Option.bind_eq_some_iff.mp there
    have kindIs : kind = .operator operator := by
      cases kind <;> cases isOperator
      rfl
    rw [next, kindIs] at ends
    apply Runs.bind
    have nothing : suffix (levels supply.nesting left) place operand.shape operator = Pure.pure none := by
      unfold suffix
      split
      next => cases ends
      next => cases ends
      next => cases ends
      next =>
        have header : place = .header := by
          cases place with
          | header => rfl
          | free => cases ends
        refine if_neg fun takes => ?_
        obtain ⟨takesBody, free | noName⟩ := takes
        · rw [header] at free
          cases free
        · revert takesBody noName isValue
          cases operand.shape <;> simp [Shape.takesLiteralBody, Shape.isTypeName]
      next => rfl
    rw [nothing]
    apply Runs.pure
    exact Runs.pure ⟨_, rfl, holds⟩

theorem AreSuffixes.selector :
    AreSuffixes supply place base (if base = .identifier then .qualifiedName
      else .other) 0 [.operator .period, .identifier] := by
  apply AreSuffixes.single
  intro left _ rest _
  apply Runs.bind
  apply Runs.bump
  apply Runs.bind
  apply Runs.bind
  apply Runs.peekKind_cons
  apply Runs.bind
  apply Runs.bump
  apply Runs.pure
  exact Runs.pure ⟨rfl, rfl⟩

theorem AreSuffixes.assertion (isType : IsType supply level kinds) :
    AreSuffixes supply place base .other level
      (.operator .period :: .operator .leftParen :: (kinds ++ [.operator .rightParen])) := by
  apply AreSuffixes.single
  intro left enough rest _
  rw [List.cons_append, List.cons_append, List.append_assoc]
  apply Runs.bind
  apply Runs.bump
  apply Runs.bind
  apply Runs.bind
  apply Runs.peekKind_cons
  apply Runs.bind
  apply Runs.bump
  apply Runs.bind
  apply Runs.atKeyword_no (apart (isType.opens_append _) rfl)
  apply Runs.ite_neg Bool.false_ne_true
  apply Runs.bind
  apply isType.run enough rfl
  apply Runs.bind
  apply Runs.pure
  apply Runs.bind
  apply Runs.expectOperator
  apply Runs.pure
  exact Runs.pure ⟨rfl, rfl⟩

theorem AreSuffixes.guard : AreSuffixes supply place base .typeGuard 0
    [.operator .period, .operator .leftParen, .keyword .type, .operator .rightParen] := by
  apply AreSuffixes.single
  intro left _ rest _
  apply Runs.bind
  apply Runs.bump
  apply Runs.bind
  apply Runs.bind
  apply Runs.peekKind_cons
  apply Runs.bind
  apply Runs.bump
  apply Runs.bind
  apply Runs.atKeyword_yes
  apply Runs.ite_pos rfl
  apply Runs.bind
  apply Runs.bump
  apply Runs.bind
  apply Runs.pure
  apply Runs.bind
  apply Runs.expectOperator
  apply Runs.pure
  exact Runs.pure ⟨rfl, rfl⟩

theorem sliceBounds_done {left colons : Nat} {post : Unit → List TokenKind → Prop}
    (holds : post () (.operator .rightBracket :: rest)) :
    Runs supply (.operator .rightBracket :: rest) (sliceBounds (levels supply.nesting left) colons) post := by
  cases colons with
  | zero => exact Runs.pure holds
  | succ colons =>
    apply Runs.bind
    apply Runs.eatOperator_no (by simp)
    apply Runs.ite_neg Bool.false_ne_true
    exact Runs.pure holds

private theorem sliceBounds_next {left colons : Nat} (enough : level ≤ left) {next : Operator}
    (isBound : Optionally (IsExpression supply .free level) kinds)
    (follows : next = .rightBracket ∨ (next = .colon ∧ kinds ≠ [])) {post : Unit → List TokenKind → Prop}
    (continues : Runs supply (.operator next :: rest) (sliceBounds (levels supply.nesting left) colons) post) :
    Runs supply (.operator .colon :: (kinds ++ .operator next :: rest))
      (sliceBounds (levels supply.nesting left) (colons + 1)) post := by
  apply Runs.bind
  apply Runs.eatOperator_yes
  apply Runs.ite_pos rfl
  apply Runs.bind
  rcases isBound with rfl | isExpression
  · rcases follows with rfl | ⟨_, nonempty⟩
    · apply Runs.atOperator_no (by simp)
      apply Runs.ite_pos rfl
      apply Runs.bind
      apply Runs.atOperator_yes
      apply Runs.ite_neg Bool.false_ne_true
      exact continues
    · exact absurd rfl nonempty
  · apply Runs.atOperator_no (apart (isExpression.starts_append _) rfl)
    apply Runs.ite_pos rfl
    apply Runs.bind
    apply Runs.atOperator_no (apart (isExpression.starts_append _) rfl)
    apply Runs.ite_pos rfl
    apply Runs.bind
    apply isExpression.run enough _ continues
    rcases follows with rfl | ⟨rfl, _⟩ <;> rfl

private theorem indexOrSlice_runs {left : Nat} (enough : level ≤ left) {next : Operator}
    (isBound : Optionally (IsExpression supply .free level) kinds)
    (follows : next = .colon ∨ (next = .rightBracket ∧ kinds ≠ [])) {post : Unit → List TokenKind → Prop}
    (continues : Runs supply (.operator next :: rest) (sliceBounds (levels supply.nesting left) 2) post) :
    Runs supply (kinds ++ .operator next :: rest) (indexOrSlice (levels supply.nesting left)) post := by
  apply Runs.bind
  rcases isBound with rfl | isExpression
  · rcases follows with rfl | ⟨_, nonempty⟩
    · apply Runs.atOperator_yes
      apply Runs.ite_neg Bool.false_ne_true
      exact continues
    · exact absurd rfl nonempty
  · apply Runs.atOperator_no (apart (isExpression.starts_append _) rfl)
    apply Runs.ite_pos rfl
    apply Runs.bind
    apply isExpression.run enough _ continues
    rcases follows with rfl | ⟨rfl, _⟩ <;> rfl

theorem IsExpression.ne_nil (isExpression : IsExpression supply place level kinds) : kinds ≠ [] := by
  rintro rfl
  cases isExpression.starts

theorem AreSuffixes.index (isExpression : IsExpression supply .free level kinds) :
    AreSuffixes supply place base .other level (.operator .leftBracket :: (kinds ++ [.operator .rightBracket])) := by
  apply AreSuffixes.single
  intro left enough rest _
  rw [List.cons_append, List.append_assoc]
  apply Runs.bind
  apply Runs.bump
  apply Runs.bind
  apply indexOrSlice_runs enough (.inr isExpression) (.inr ⟨rfl, isExpression.ne_nil⟩)
  apply sliceBounds_done
  apply Runs.bind
  apply Runs.expectOperator
  exact Runs.pure ⟨rfl, rfl⟩

theorem AreSuffixes.slice {low high : List TokenKind} (isLow : Optionally (IsExpression supply .free first) low)
    (isHigh : Optionally (IsExpression supply .free second) high) :
    AreSuffixes supply place base .other (max first second)
      (.operator .leftBracket :: (low ++ .operator .colon :: (high ++ [.operator .rightBracket]))) := by
  apply AreSuffixes.single
  intro left enough rest _
  rw [List.cons_append, List.append_assoc, List.cons_append, List.append_assoc]
  apply Runs.bind
  apply Runs.bump
  apply Runs.bind
  apply indexOrSlice_runs (show first ≤ left by omega) isLow (.inl rfl)
  apply sliceBounds_next (show second ≤ left by omega) isHigh (.inl rfl)
  apply sliceBounds_done
  apply Runs.bind
  apply Runs.expectOperator
  exact Runs.pure ⟨rfl, rfl⟩

theorem AreSuffixes.fullSlice {third : Nat} {low high capacity : List TokenKind}
    (isLow : Optionally (IsExpression supply .free first) low) (isHigh : IsExpression supply .free second high)
    (isCapacity : IsExpression supply .free third capacity) :
    AreSuffixes supply place base .other (max first (max second third))
      (.operator .leftBracket ::
        (low ++ .operator .colon :: (high ++ .operator .colon :: (capacity ++ [.operator .rightBracket])))) := by
  apply AreSuffixes.single
  intro left enough rest _
  rw [List.cons_append, List.append_assoc, List.cons_append, List.append_assoc, List.cons_append, List.append_assoc]
  apply Runs.bind
  apply Runs.bump
  apply Runs.bind
  apply indexOrSlice_runs (show first ≤ left by omega) isLow (.inl rfl)
  apply sliceBounds_next (show second ≤ left by omega) (.inr isHigh) (.inr ⟨rfl, isHigh.ne_nil⟩)
  apply sliceBounds_next (show third ≤ left by omega) (.inr isCapacity) (.inl rfl)
  apply sliceBounds_done
  apply Runs.bind
  apply Runs.expectOperator
  exact Runs.pure ⟨rfl, rfl⟩

theorem AreSuffixes.call (areArguments : Optionally (Separated (· = .operator .comma) (IsArgument supply level)) kinds) :
    AreSuffixes supply place base .other level (.operator .leftParen :: (kinds ++ [.operator .rightParen])) := by
  apply AreSuffixes.single
  intro left enough rest _
  rw [List.cons_append, List.append_assoc]
  apply Runs.bind
  apply Runs.bump
  apply Runs.bind
  apply commaList_runs endsParameter (by decide) rfl rfl (fun _ isArgument => isArgument.reads left enough)
    (fun _ isArgument => isArgument.starts) areArguments
  apply Runs.bind
  apply Runs.expectOperator
  exact Runs.pure ⟨rfl, rfl⟩

theorem AreSuffixes.body (takes : base.takesLiteralBody = true ∧ (place = .free ∨ ¬ base.isTypeName = true))
    (isValue : IsLiteralValue supply level kinds) : AreSuffixes supply place base .other level kinds := by
  obtain ⟨later, rfl⟩ := List.head?_eq_some_iff.mp isValue.starts
  apply AreSuffixes.single
  intro left enough rest _
  apply Runs.ite_pos takes
  apply Runs.bind
  apply (isValue.reads left enough).run rfl
  intro _ _
  exact Runs.pure ⟨rfl, rfl⟩

end suffixes

section values

theorem IsArgument.value (isExpression : IsExpression supply .free level kinds) : IsArgument supply level kinds where
  reads := by
    intro left enough rest ends
    have behind : endsExpression .free rest.head? = true := by
      rw [endsParameter, Bool.or_eq_true, beq_iff_eq, beq_iff_eq] at ends
      rcases ends with next | next <;> rw [next] <;> rfl
    apply Runs.bind
    apply isExpression.run enough behind
    apply Runs.discard
    exact Runs.eatOperator_no (apart ends rfl) ⟨rfl, trivial⟩
  starts rest := apart (isExpression.starts_append rest) rfl

theorem IsArgument.spread (isExpression : IsExpression supply .free level kinds) :
    IsArgument supply level (kinds ++ [.operator .ellipsis]) where
  reads := by
    intro left enough rest _
    rw [List.append_assoc]
    apply Runs.bind
    apply isExpression.run enough rfl
    apply Runs.discard
    exact Runs.eatOperator_yes ⟨rfl, trivial⟩
  starts rest := by
    rw [List.append_assoc]
    exact apart (isExpression.starts_append _) rfl

theorem IsElement.value (isExpression : IsExpression supply .free level kinds) : IsElement supply level kinds where
  reads := by
    intro left enough rest ends
    have behind : endsExpression .free rest.head? = true := by
      rw [endsElement, endsEntry, Bool.or_eq_true, Bool.or_eq_true, beq_iff_eq, beq_iff_eq, beq_iff_eq] at ends
      rcases ends with (next | next) | next <;> rw [next] <;> rfl
    apply Runs.bind
    apply Runs.atOperator_no (apart (isExpression.starts_append rest) rfl)
    apply Runs.ite_neg Bool.false_ne_true
    exact isExpression.run enough behind ⟨rfl, trivial⟩
  starts rest := apart (isExpression.starts_append rest) rfl

theorem IsElement.elided (isValue : IsLiteralValue supply level kinds) : IsElement supply (level + 1) kinds where
  reads := by
    intro left enough rest _
    obtain ⟨below, rfl⟩ : ∃ below, left = below + 1 := ⟨left - 1, by omega⟩
    have runs := isValue.reads below (by omega) rest rfl
    obtain ⟨later, rfl⟩ := List.head?_eq_some_iff.mp isValue.starts
    apply Runs.bind
    apply Runs.atOperator_yes
    exact Runs.ite_pos rfl runs
  starts rest := by
    obtain ⟨later, rfl⟩ := List.head?_eq_some_iff.mp isValue.starts
    simp

theorem IsEntry.value (isElement : IsElement supply level kinds) : IsEntry supply level kinds where
  reads := by
    intro left enough rest ends
    apply Runs.bind
    apply (isElement.reads left enough).run (by rw [endsElement, ends, Bool.true_or])
    intro _ _
    apply Runs.bind
    apply Runs.eatOperator_no (apart ends rfl)
    apply Runs.ite_neg Bool.false_ne_true
    exact Runs.pure ⟨rfl, trivial⟩
  starts := isElement.starts

theorem IsEntry.keyed {key : List TokenKind} (isKey : IsElement supply first key)
    (isElement : IsElement supply second kinds) :
    IsEntry supply (max first second) (key ++ .operator .colon :: kinds) where
  reads := by
    intro left enough rest ends
    rw [List.append_assoc]
    apply Runs.bind
    apply (isKey.reads left (by omega)).run rfl
    intro _ _
    apply Runs.bind
    apply Runs.eatOperator_yes
    apply Runs.ite_pos rfl
    apply (isElement.reads left (by omega)).run (by rw [endsElement, ends, Bool.true_or])
    exact fun _ _ => ⟨rfl, trivial⟩
  starts rest := by
    rw [List.append_assoc]
    exact isKey.starts _

theorem IsLiteralValue.intro (areEntries : Optionally (Separated (· = .operator .comma) (IsEntry supply level)) kinds) :
    IsLiteralValue supply level (.operator .leftBrace :: (kinds ++ [.operator .rightBrace])) where
  reads := by
    intro left enough rest _
    rw [List.cons_append, List.append_assoc]
    apply Runs.bind
    apply Runs.expectOperator
    apply Runs.bind
    apply commaList_runs endsEntry (by decide) rfl rfl (fun _ isEntry => isEntry.reads left enough)
      (fun _ isEntry => isEntry.starts) areEntries
    exact Runs.expectOperator ⟨rfl, trivial⟩
  starts := rfl

end values

end

end GoPrompt
