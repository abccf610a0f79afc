import GoPrompt.Proofs.Acceptance.Statements

/-! What starts with `func` at the prompt is read to its end: the declaration of a function or method, or a statement
whose first operand is a function literal. -/

namespace GoPrompt

open Parse Grammar

section

variable {supply : Supply} {kind : StatementKind} {level first second third left : Nat}
  {kinds type body receiver rest : List TokenKind}

private theorem functionStatement_intro {later : List TokenKind}
    (reads : ∀ start, Reads supply level (fun deeper => functionStatement deeper start) (.keyword .func :: later) endsStatement
      (· = kind)) :
    IsStatement supply .topLevel kind (level + 1) (.keyword .func :: later) := by
  apply IsStatement.intro rfl
  intro token isKind left enough rest ends
  simp only [statementKind, isKind]
  exact Runs.ite_pos trivial (reads token.span left enough rest ends)

private theorem declared_runs (declared : DeclarationKind) (isSignature : IsSignature supply first type)
    (isBody : Optionally (IsBlock supply second) body) (enough : max first second ≤ left)
    (ends : endsStatement rest.head? = true) :
    Runs supply (type ++ (body ++ rest))
      (do
        signature (levels supply.nesting left)
        optionalBlock (levels supply.nesting left)
        return StatementKind.declaration declared) fun found after => after = rest ∧ found = .declaration declared := by
  have behind : endsType (body ++ rest).head? = true := by
    rcases isBody with rfl | isBody
    · exact endsType_of_endsStatement ends
    · rw [List.head?_append, isBody.starts]
      rfl
  apply Runs.bind
  apply (isSignature.reads left (by omega)).run behind
  intro _ _
  apply Runs.bind
  apply optionalBlock_runs isBody (by omega) (apart ends rfl)
  exact Runs.pure ⟨rfl, rfl⟩

theorem IsStatement.function (isSignature : IsSignature supply first type)
    (isBody : Optionally (IsBlock supply second) body) :
    IsStatement supply .topLevel (.declaration .func) (max first second + 1)
      (.keyword .func :: .identifier :: (type ++ body)) := by
  apply functionStatement_intro
  intro start left enough rest ends
  rw [List.cons_append, List.cons_append, List.append_assoc]
  apply Runs.bind
  apply Runs.expectKeyword
  apply Runs.bind
  apply Runs.peekKind_cons
  apply Runs.bind
  apply Runs.bump
  exact declared_runs .func isSignature isBody enough ends

theorem IsStatement.method (isReceiver : IsParameter supply first receiver)
    (isSignature : IsSignature supply second type) (isBody : Optionally (IsBlock supply third) body) :
    IsStatement supply .topLevel (.declaration .method) (max first (max second third) + 1)
      (.keyword .func :: .operator .leftParen ::
        (receiver ++ .operator .rightParen :: .identifier :: (type ++ body))) := by
  apply functionStatement_intro
  intro start left enough rest ends
  obtain ⟨later, paren⟩ := List.head?_eq_some_iff.mp isSignature.starts
  have declared := declared_runs .method isSignature isBody (show max second third ≤ left by omega) ends
  rw [paren] at declared
  rw [List.cons_append, List.cons_append, List.append_assoc, List.cons_append, List.cons_append,
    List.append_assoc, paren]
  apply Runs.bind
  apply Runs.expectKeyword
  apply Runs.bind
  apply Runs.peekKind_cons
  apply Runs.bind
  apply parameters_runs (.inr (.one isReceiver)) (show first ≤ left by omega)
  apply Runs.bind
  apply Runs.peekKind_cons
  apply Runs.ite_pos rfl
  apply Runs.bind
  apply Runs.peekOperator (by decide)
  apply Runs.bind
  apply Runs.pure
  apply Runs.ite_pos rfl
  apply Runs.bind
  apply Runs.bump
  exact declared

/-- A simple statement that starts with a function literal, taken apart behind the literal. -/
structure IsFunctionLed (supply : Supply) (kind : StatementKind) (level : Nat) (kinds : List TokenKind) : Prop where
  parts : ∃ type body suffix chain tail shape,
    kinds = .keyword .func :: (type ++ (body ++ (suffix ++ (chain ++ tail)))) ∧
    IsSignature supply level type ∧ IsBlock supply level body ∧ AreSuffixes supply .free .other shape level suffix ∧
    (shape ≠ .literalType ∧ shape ≠ .typeGuard) ∧ Trailing (isBinary · = true) (IsUnary supply .free level) chain ∧
    IsSimpleTail supply .free kind level tail

theorem IsSimple.functionLed (isSimple : IsSimple supply .free kind level kinds)
    (starts : kinds.head? = some (.keyword .func)) :
    IsFunctionLed supply kind level kinds := by
  obtain ⟨expression, tail, rfl, isExpression, isTail⟩ := isSimple.parts
  obtain ⟨below, less, operand, chain, rfl, isUnary, trailing⟩ := isExpression.chain
  have startsUnary : operand.head? = some (.keyword .func) := by
    have isStart := isUnary.starts
    cases operand with
    | nil => cases isStart
    | cons => exact starts
  obtain ⟨shape, isPrimary⟩ := isUnary.literal startsUnary
  obtain ⟨base, front, suffix, rfl, isOperand, areSuffixes, _⟩ := isPrimary.parts
  have startsOperand : front.head? = some (.keyword .func) := by
    have isStart := isOperand.starts
    cases front with
    | nil => cases isStart
    | cons => exact startsUnary
  obtain ⟨rfl, type, body, rfl, isSignature, isBlock⟩ := isOperand.literal startsOperand
  have le := Nat.le_of_lt less
  refine ⟨type, body, suffix, chain, tail, shape, ?_, isSignature.mono le, isBlock.mono le,
    areSuffixes.mono le, isPrimary.isValue, trailing.imp fun _ isUnary => isUnary.mono le, isTail⟩
  simp only [List.cons_append, List.append_assoc]

private theorem IsResult.notMethod (isResult : IsResult supply level kinds)
    (brace : rest.head? = some (.operator .leftBrace)) (name : (kinds ++ rest).head? = some .identifier) :
    (kinds ++ rest)[1]?.bind TokenKind.operator? ≠ some .leftParen := by
  obtain ⟨later, rfl⟩ := List.head?_eq_some_iff.mp brace
  cases kinds with
  | nil => cases name
  | cons kind more => rcases isResult.named name with same | same <;> simp [same, TokenKind.operator?]

theorem IsFunctionLed.reads (isLed : IsFunctionLed supply kind level kinds) (start : Span) :
    Reads supply level (fun deeper => functionStatement deeper start) kinds endsStatement (· = kind) := by
  intro left enough rest ends
  obtain ⟨type, body, suffix, chain, tail, shape, rfl, isSignature, isBlock, areSuffixes, isValue, trailing, isTail⟩ :=
    isLed.parts
  obtain ⟨parameters, out, rfl, areParameters, isResult⟩ := isSignature.parts
  have brace : (body ++ (suffix ++ (chain ++ (tail ++ rest)))).head? = some (.operator .leftBrace) := by
    rw [List.head?_append, isBlock.starts]
    rfl
  have behindChain : endsExpression .free (tail ++ rest).head? = true := isTail.endsExpression_append ends
  have literal : Runs supply (out ++ (body ++ (suffix ++ (chain ++ (tail ++ rest)))))
      (do
        result (levels supply.nesting left)
        optionalBlock (levels supply.nesting left)
        let first ← expressionFrom (levels supply.nesting left) .free ⟨.other, ← spanFrom start⟩
        let list ← expressionListFrom (levels supply.nesting left) .free first
        return (← simpleFrom (levels supply.nesting left) .free .statement list).kind)
      fun found after => after = rest ∧ found = kind := by
    apply Runs.bind
    apply (isResult.reads left enough).run (by rw [brace]; rfl)
    intro _ _
    apply Runs.bind
    apply isBlock.runOptional enough
    apply Runs.bind
    apply Runs.spanFrom
    intro span
    apply Runs.bind
    apply Runs.bind
    apply areSuffixes left enough
    intro span
    apply suffixes_done isValue.1 (endsOperand_trailing trailing behindChain)
    apply binaryTail_runs enough trailing behindChain isValue.2
    intro operand isValue
    apply Runs.bind
    apply (isTail.reads left enough .statement rest ends operand isValue).weaken
    intro list after runs
    apply Runs.bind
    apply runs.weaken
    rintro statement _ ⟨rfl, isPlain⟩
    exact Runs.pure ⟨rfl, isPlain.isKind⟩
  simp only [List.cons_append, List.append_assoc]
  apply Runs.bind
  apply Runs.expectKeyword
  apply Runs.bind
  apply Runs.peekKind_cons
  apply Runs.bind
  apply parameters_runs areParameters enough
  apply Runs.bind
  apply Runs.peekKind_head
  by_cases name : (out ++ (body ++ (suffix ++ (chain ++ (tail ++ rest))))).head? = some .identifier
  · apply Runs.ite_pos name
    apply Runs.bind
    apply Runs.peekOperator (by decide)
    apply Runs.bind
    apply Runs.pure
    exact Runs.ite_neg (fun paren => isResult.notMethod brace name (beq_iff_eq.mp paren)) literal
  · apply Runs.ite_neg name
    apply Runs.bind
    apply Runs.pure
    exact Runs.ite_neg Bool.false_ne_true literal

theorem IsStatement.functionLed (isSimple : IsSimple supply .free kind level kinds)
    (starts : kinds.head? = some (.keyword .func)) :
    IsStatement supply .topLevel kind (level + 1) kinds := by
  have isLed := isSimple.functionLed starts
  obtain ⟨later, rfl⟩ := List.head?_eq_some_iff.mp starts
  exact functionStatement_intro isLed.reads

end

end GoPrompt
