import GoPrompt.Grammar.TopLevel
import GoPrompt.Proofs.Parse.Run
import GoPrompt.Proofs.Stream.Visits

/-! Programs that end where a line may end. Semicolons separate the parts of a statement and the statements of a list,
so a reader may consume many of them; behind the last one there is always something else to consume, and the last token
is one behind which a newline counts. Only a label may have nothing behind its colon. A program is judged by what it
starts with: whether the last token consumed is known to be such a token, and the kind of the next token if it is known.

Every construct of the grammar ends where a line may end. What stands in brackets ends with the closing one, so what is
read between them does not count. -/

namespace GoPrompt

open Parse

section

/-- What may stand behind a statement in a list of them. -/
def closesStatement (kind : TokenKind) : Bool := isSemicolon kind || kind == .operator .rightBrace

/-- The last token consumed may end a line, or it is the colon of a label with nothing behind it. -/
def ParseState.IsClosed (state : ParseState) : Prop :=
  ∃ kind, state.stream.lastConsumed = some kind ∧ (kind.terminatesLine = true ∨
    kind = .operator .colon ∧ ∃ next, state.stream.lookahead.head? = some next ∧ closesStatement next.kind = true)

structure Begins (clear : Bool) (front : Option TokenKind) (state : ParseState) : Prop where
  clear : clear = true → state.IsClosed
  front : ∀ kind, front = some kind → state.stream.lookahead.head?.map (·.kind) = some kind

/-- A program that leaves a token behind which may end a line, if it succeeds. -/
def Finishes {α : Type} (clear : Bool) (front : Option TokenKind) (program : Parse α) : Prop :=
  ∀ state value after, Begins clear front state → program state = .ok value after → after.IsClosed

variable {α β : Type} {clear : Bool} {front : Option TokenKind} {kind : TokenKind}

theorem ParseState.IsClosed.not_semicolon {state : ParseState} (closed : state.IsClosed)
    (last : state.stream.lastConsumed = some kind) :
    isSemicolon kind = false := by
  obtain ⟨found, isLast, ends | ⟨rfl, -⟩⟩ := closed
  · cases isLast.symm.trans last
    cases kind <;> first | rfl | cases ends
  · cases isLast.symm.trans last
    rfl

private theorem Parse.peek_head {state after : ParseState} {index : Nat} {found : Option Token} {token : Token}
    (front : state.stream.lookahead.head? = some token) (looked : peek index state = .ok found after) :
    after.stream.lookahead.head? = some token := by
  obtain ⟨later, longer⟩ := (TokenStream.peek_lookahead (of_onStream_ok looked)).1
  obtain ⟨rest, ahead⟩ := List.head?_eq_some_iff.mp front
  rw [← longer, ahead]
  rfl

theorem ParseState.IsClosed.peek {state after : ParseState} {index : Nat} {found : Option Token}
    (closed : state.IsClosed) (looked : Parse.peek index state = .ok found after) : after.IsClosed := by
  obtain ⟨kind, last, closes⟩ := closed
  refine ⟨kind, (peek_given looked).lastConsumed.symm.trans last, closes.imp_right ?_⟩
  rintro ⟨isColon, next, ahead, closes⟩
  exact ⟨isColon, next, peek_head ahead looked, closes⟩

theorem Begins.peek {state after : ParseState} {index : Nat} {found : Option Token} (begins : Begins clear front state)
    (looked : Parse.peek index state = .ok found after) : Begins clear front after := by
  refine ⟨fun isClear => (begins.clear isClear).peek looked, fun kind isFront => ?_⟩
  obtain ⟨token, ahead, isKind⟩ := Option.map_eq_some_iff.mp (begins.front kind isFront)
  rw [peek_head ahead looked, Option.map_some, isKind]

namespace Finishes

section rules

variable {program : Parse α} {next : α → Parse β}

theorem weaken (finishes : Finishes false none program) : Finishes clear front program := fun state value after _ =>
  finishes state value after ⟨nofun, nofun⟩

theorem forget (finishes : Finishes clear none program) : Finishes clear front program :=
  fun state value after begins =>
  finishes state value after ⟨begins.clear, nofun⟩

theorem of_ne_ok (never : ∀ state value after, program state ≠ .ok value after) : Finishes clear front program :=
  fun state value after _ ran => absurd ran (never state value after)

theorem pure {value : α} : Finishes true front (Pure.pure value : Parse α) := by
  intro state value after begins ran
  cases ran
  exact begins.clear rfl

theorem last (rest : ∀ value, Finishes false none (next value)) : Finishes clear front (program >>= next) := by
  intro state value after _ ran
  obtain ⟨found, middle, -, ran⟩ := of_bind_ok ran
  exact rest found middle value after ⟨nofun, nofun⟩ ran

theorem bind (finishes : Finishes clear front program) (rest : ∀ value, Finishes true none (next value)) :
    Finishes clear front (program >>= next) := by
  intro state value after begins ran
  obtain ⟨found, middle, ran, ran'⟩ := of_bind_ok ran
  exact rest found middle value after ⟨fun _ => finishes state found middle begins ran, nofun⟩ ran'

theorem map {change : α → β} (finishes : Finishes clear front program) : Finishes clear front (change <$> program) :=
  finishes.bind fun _ => .pure

theorem discard (finishes : Finishes clear front program) : Finishes clear front (discard program) := finishes.map

end rules

section failures

variable {expected : List String}

theorem unexpected {token : Token} : Finishes clear front (Parse.unexpected token expected : Parse α) :=
  .of_ne_ok fun _ value _ => unexpected_ne_ok token expected value

theorem endOfInput : Finishes clear front (Parse.endOfInput expected : Parse α) := .of_ne_ok fun _ _ _ => nofun

theorem rejectNext : Finishes clear front (Parse.rejectNext expected : Parse α) := by
  refine .of_ne_ok fun state value after ran => ?_
  obtain ⟨found, middle, -, ran⟩ := of_bind_ok ran
  cases found with
  | none => cases ran
  | some token => exact unexpected_ne_ok token expected value ran

theorem beyondLimit {limit : Nat} : Finishes clear front (Grammar.beyondLimit limit : Parse α) := by
  refine .of_ne_ok fun state value after ran => ?_
  obtain ⟨_, _, -, ran⟩ := of_bind_ok ran
  obtain ⟨_, _, -, ran⟩ := of_bind_ok ran
  cases ran

end failures

section decisions

variable {operator : Operator} {keyword : Keyword}

theorem look_bind {next : Option Token → Parse β} (ended : Finishes clear none (next none))
    (found : ∀ token, Finishes clear (some token.kind) (next (some token))) :
    Finishes clear front (Parse.peek 0 >>= next) := by
  intro state value after begins ran
  obtain ⟨one, middle, looked, ran⟩ := of_bind_ok ran
  have known := (begins.peek looked).clear
  cases one with
  | none => exact ended middle value after ⟨known, nofun⟩ ran
  | some token =>
    refine found token middle value after ⟨known, ?_⟩ ran
    rintro _ ⟨⟩
    have there := (TokenStream.peek_lookahead (of_onStream_ok looked)).2
    rw [← List.head?_eq_getElem?] at there
    rw [← there]
    rfl

theorem kind_bind {next : Option TokenKind → Parse β} (rest : ∀ kind, Finishes clear kind (next kind)) :
    Finishes clear front (peekKind 0 >>= next) := by
  simp only [peekKind, bind_assoc, pure_bind]
  exact look_bind (rest none) fun token => rest (some token.kind)

theorem operator_bind {next : Option Operator → Parse β} (other : Finishes clear none (next none))
    (found : ∀ operator, Finishes clear (some (.operator operator)) (next (some operator))) :
    Finishes clear front (peekOperator 0 >>= next) := by
  simp only [peekOperator, bind_assoc, pure_bind]
  refine look_bind other fun token => ?_
  simp only [Option.bind_some, Token.operator?]
  cases token.kind with
  | operator operator => exact found operator
  | identifier | keyword | literal | semicolon | illegal => exact other.forget

theorem atOperator_bind {next : Bool → Parse β} (yes : Finishes clear (some (.operator operator)) (next true))
    (no : Finishes clear none (next false)) : Finishes clear front (atOperator operator >>= next) := by
  simp only [atOperator, bind_assoc, pure_bind]
  refine operator_bind no fun found => ?_
  by_cases same : found = operator
  · subst same
    simpa using yes
  · rw [beq_eq_false_iff_ne.mpr fun equal => same (Option.some.inj equal)]
    exact no.forget

theorem atKeyword_bind {next : Bool → Parse β} (yes : Finishes clear (some (.keyword keyword)) (next true))
    (no : Finishes clear none (next false)) : Finishes clear front (atKeyword keyword >>= next) := by
  simp only [atKeyword, bind_assoc, pure_bind]
  refine kind_bind fun found => ?_
  by_cases same : found = some (.keyword keyword)
  · subst same
    simpa using yes
  · rw [beq_eq_false_iff_ne.mpr same]
    exact no.forget

private theorem peek_bind {index : Nat} {next : Option Token → Parse β}
    (rest : ∀ found, Finishes clear front (next found)) :
    Finishes clear front (Parse.peek index >>= next) := by
  intro state value after begins ran
  obtain ⟨one, middle, looked, ran⟩ := of_bind_ok ran
  exact rest one middle value after (begins.peek looked) ran

theorem peekKind_bind {index : Nat} {next : Option TokenKind → Parse β}
    (rest : ∀ found, Finishes clear front (next found)) :
    Finishes clear front (peekKind index >>= next) := by
  simp only [peekKind, bind_assoc, pure_bind]
  exact peek_bind fun _ => rest _

theorem peekOperator_bind {index : Nat} {next : Option Operator → Parse β}
    (rest : ∀ found, Finishes clear front (next found)) :
    Finishes clear front (peekOperator index >>= next) := by
  simp only [peekOperator, bind_assoc, pure_bind]
  exact peek_bind fun _ => rest _

theorem spanFrom_bind {start : Span} {next : Span → Parse β} (rest : ∀ span, Finishes clear front (next span)) :
    Finishes clear front (spanFrom start >>= next) := by
  intro state value after begins ran
  rw [bind_ok (show spanFrom start state = .ok (start.merge state.lastSpan) state from rfl)] at ran
  exact rest _ state value after begins ran

private theorem lastConsumed_of_bump {state after : ParseState} (begins : Begins clear (some kind) state)
    (ran : Parse.bump state = .ok () after) : after.stream.lastConsumed = some kind := by
  obtain ⟨token, ahead, rfl⟩ := Option.map_eq_some_iff.mp (begins.front kind rfl)
  obtain ⟨later, ahead⟩ := List.head?_eq_some_iff.mp ahead
  exact (bump_given ahead ran).2

theorem bump (ends : kind.terminatesLine = true) : Finishes clear (some kind) Parse.bump := fun _ _ _ begins ran =>
  ⟨kind, lastConsumed_of_bump begins ran, .inl ends⟩

theorem bump_bind {next : Unit → Parse β} (ends : kind.terminatesLine = true) (rest : Finishes true none (next ())) :
    Finishes clear (some kind) (Parse.bump >>= next) := (bump ends).bind fun () => rest

private theorem label_bind {next : Option TokenKind → Parse β}
    (rest : ∀ found, Finishes (found.any closesStatement) found (next found)) :
    Finishes clear (some (.operator .colon)) (do Parse.bump; next (← peekKind 0)) := by
  intro state value after begins ran
  obtain ⟨_, middle, bumped, ran⟩ := of_bind_ok ran
  simp only [peekKind, bind_assoc, pure_bind] at ran
  obtain ⟨found, reached, looked, ran⟩ := of_bind_ok ran
  have last := (peek_given looked).lastConsumed.symm.trans (lastConsumed_of_bump begins bumped)
  have there := (TokenStream.peek_lookahead (of_onStream_ok looked)).2
  rw [← List.head?_eq_getElem?] at there
  refine rest _ reached value after ⟨fun closes => ?_, fun kind isFound => ?_⟩ ran
  · cases found with
    | none => cases closes
    | some token => exact ⟨_, last, .inr ⟨rfl, token, there.symm, closes⟩⟩
  · rw [← there]
    exact isFound

theorem expect {accepts : TokenKind → Bool} {expected : List String}
    (ends : ∀ kind, accepts kind = true → kind.terminatesLine = true) :
    Finishes clear front (Parse.expect accepts expected) := by
  refine look_bind endOfInput fun token => ?_
  dsimp only
  split
  next accepted => exact bump (ends _ accepted)
  next => exact unexpected

theorem expectOperator (ends : operator.terminatesLine = true) : Finishes clear front (Parse.expectOperator operator) :=
  expect fun _ accepted => eq_of_beq accepted ▸ ends

theorem expectName : Finishes clear front Parse.expectName := expect fun _ accepted => eq_of_beq accepted ▸ rfl

theorem eatOperator_bind {next : Bool → Parse β} (yes : Finishes false none (next true))
    (no : Finishes clear none (next false)) :
    Finishes clear front (eatOperator operator >>= next) := by
  simp only [eatOperator, bind_assoc]
  refine atOperator_bind ?_ ?_
  · simp only [↓reduceIte, bind_assoc, pure_bind]
    exact last fun _ => yes
  · simpa using no

end decisions

section loops

variable {turn : α → Parse (Turn α β)}

theorem iterate (turns : ∀ value, Finishes true none (turn value)) (value : α) :
    Finishes true none (Parse.iterate turn value) := by
  intro state result after begins ran
  cases turned : turn value state with
  | error failure reached =>
    rw [iterate_error turned] at ran
    cases ran
  | ok answer reached =>
    have kept := turns value state answer reached ⟨begins.clear, nofun⟩ turned
    cases answer with
    | done found =>
      rw [iterate_done turned] at ran
      cases ran
      exact kept
    | again further =>
      by_cases progress : reached.remaining < state.remaining
      · rw [iterate_again turned progress] at ran
        exact iterate turns further reached result after ⟨fun _ => kept, nofun⟩ ran
      · rw [iterate_stuck turned progress] at ran
        cases ran
termination_by state => state.remaining

theorem repeatUntil {isDone : Parse Bool} (finishes : Finishes true none isDone) :
    Finishes true none (Parse.repeatUntil isDone) :=
  iterate (fun () => finishes.bind fun isDone => by cases isDone <;> exact .pure) ()

end loops

end Finishes

end

namespace Grammar

open Parse Finishes

/-- What is needed of the readers of the level below. -/
structure Finished (deeper : Deeper) : Prop where
  expression : ∀ place, Finishes false none (deeper.expression place)
  unary : ∀ place, Finishes false none (deeper.unary place)
  type : Finishes false none deeper.type
  statement : ∀ context, Finishes false none (deeper.statement context)
  ifStatement : Finishes false none deeper.ifStatement

section types

private theorem nameList_finishes {clear : Bool} : Finishes clear none nameList :=
  expectName.bind fun _ => repeatUntil (eatOperator_bind (expectName.bind fun _ => .pure) .pure)

private theorem typeName_finishes {clear : Bool} {front : Option TokenKind} : Finishes clear front typeName :=
  expectName.bind fun _ => eatOperator_bind (expectName.bind fun _ => .pure) .pure

variable {deeper : Deeper} (finished : Finished deeper) {clear : Bool} {front : Option TokenKind}
include finished

private theorem type_finishes : Finishes clear front deeper.type := finished.type.weaken

private theorem arrayType_finishes {literalFollows : Bool} :
    Finishes clear front (arrayType deeper literalFollows) := by
  have element : Finishes false none
      (do
        expectOperator .rightBracket
        discard deeper.type
        return Shape.literalType) := last fun _ => (type_finishes finished).discard.bind fun _ => .pure
  refine last fun _ => last fun found => ?_
  dsimp only
  split
  next => exact element
  next => split <;> exact last fun _ => element
  next => exact last fun _ => element

private theorem mapType_finishes : Finishes clear front (mapType deeper) :=
  last fun _ => last fun _ => last fun _ => last fun _ => (type_finishes finished).discard.bind fun _ => .pure

omit finished in
private theorem parameters_finishes : Finishes clear front (parameters deeper) :=
  last fun _ => last fun _ => expectOperator rfl

omit finished in
private theorem structType_finishes : Finishes clear front (structType deeper) :=
  last fun _ => last fun _ => last fun _ => (expectOperator rfl).bind fun _ => .pure

omit finished in
private theorem interfaceType_finishes : Finishes clear front (interfaceType deeper) :=
  last fun _ => last fun _ => last fun _ => (expectOperator rfl).bind fun _ => .pure

private theorem result_finishes : Finishes true none (result deeper) := by
  refine atOperator_bind parameters_finishes ?_
  simp only [Bool.false_eq_true, ↓reduceIte, atType, bind_assoc, pure_bind]
  refine peekKind_bind fun found => ?_
  split
  next => exact (type_finishes finished).discard
  next => exact .pure

private theorem signature_finishes : Finishes clear front (signature deeper) :=
  parameters_finishes.bind fun _ => result_finishes finished

private theorem typeBody_finishes : Finishes false none (typeBody deeper) := by
  have type := @type_finishes deeper finished
  refine look_bind endOfInput fun token => ?_
  dsimp only
  split
  next => exact typeName_finishes
  next => exact last fun _ => type.discard.bind fun _ => .pure
  next => exact last fun _ => last fun _ => (expectOperator rfl).bind fun _ => .pure
  next => exact arrayType_finishes finished
  next => exact last fun _ => last fun _ => type.discard.bind fun _ => .pure
  next => exact last fun _ => last fun _ => type.discard.bind fun _ => .pure
  next => exact mapType_finishes finished
  next => exact last fun _ => (signature_finishes finished).bind fun _ => .pure
  next => exact structType_finishes
  next => exact interfaceType_finishes
  next => exact unexpected

end types

section expressions

variable {deeper : Deeper} (finished : Finished deeper) {clear : Bool} {front : Option TokenKind}

private theorem literalValue_finishes : Finishes clear front (literalValue deeper) :=
  last fun _ => last fun _ => expectOperator rfl

private theorem block_finishes : Finishes clear front (block deeper) := last fun _ => last fun _ => expectOperator rfl

private theorem optionalBlock_finishes : Finishes true none (optionalBlock deeper) :=
  atOperator_bind block_finishes .pure

private theorem selector_finishes {base : Shape} : Finishes clear front (selector deeper base) := by
  refine kind_bind fun found => ?_
  split
  next => exact bump_bind rfl .pure
  next =>
    refine last fun _ => last fun opensType => ?_
    dsimp only
    split <;> exact last fun _ => last fun _ => (expectOperator rfl).bind fun _ => .pure
  next => exact rejectNext

private theorem suffix_finishes {place : Place} {shape : Shape} {operator : Operator} :
    Finishes true (some (.operator operator)) (suffix deeper place shape operator) := by
  unfold suffix
  split
  next => exact last fun _ => selector_finishes.bind fun _ => .pure
  next => exact last fun _ => last fun _ => (expectOperator rfl).bind fun _ => .pure
  next => exact last fun _ => last fun _ => (expectOperator rfl).bind fun _ => .pure
  next =>
    split
    next => exact literalValue_finishes.bind fun _ => .pure
    next => exact .pure
  next => exact .pure

private theorem suffixes_finishes {place : Place} {operand : Expression} :
    Finishes true none (suffixes deeper place operand) := by
  refine iterate (fun expression => operator_bind .pure fun operator => suffix_finishes.bind fun found => ?_) operand
  cases found with
  | none => exact .pure
  | some shape => exact spanFrom_bind fun _ => .pure

include finished

private theorem expression_finishes (place : Place) : Finishes clear front (deeper.expression place) :=
  (finished.expression place).weaken

private theorem unary_finishes (place : Place) : Finishes clear front (deeper.unary place) :=
  (finished.unary place).weaken

private theorem operandShape_finishes {token : Token} :
    Finishes clear (some token.kind) (operandShape deeper token) := by
  unfold operandShape
  split
  next isKind => exact bump_bind (by rw [isKind]; rfl) .pure
  next isKind => exact bump_bind (by rw [isKind]; rfl) .pure
  next => exact last fun _ => last fun _ => (expectOperator rfl).bind fun _ => .pure
  next => exact arrayType_finishes finished
  next => exact mapType_finishes finished
  next => exact structType_finishes
  next => exact (type_finishes finished).discard.bind fun _ => .pure
  next => exact (type_finishes finished).discard.bind fun _ => .pure
  next =>
    exact last fun _ => (signature_finishes finished).bind fun _ => optionalBlock_finishes.bind fun _ => .pure
  next => exact unexpected

private theorem operand_finishes : Finishes clear none (operand deeper) :=
  look_bind endOfInput fun _ => (operandShape_finishes finished).bind fun _ => spanFrom_bind fun _ => .pure

private theorem primary_finishes {place : Place} : Finishes clear front (primary deeper place) :=
  (operand_finishes finished).forget.bind fun _ => suffixes_finishes

private theorem unaryBody_finishes {place : Place} : Finishes false none (unaryBody deeper place) := by
  have operand := @unary_finishes deeper finished
  refine look_bind endOfInput fun token => ?_
  dsimp only
  split
  next => exact last fun _ => (operand place).bind fun _ => .pure
  next =>
    split
    next =>
      refine last fun _ => atKeyword_bind ?_ ((operand place).bind fun _ => .pure)
      exact last fun _ => (type_finishes finished).discard.bind fun _ => spanFrom_bind fun _ => suffixes_finishes
    next => exact primary_finishes finished

private theorem binaryTail_finishes {place : Place} {tightness : Nat} {left : Expression} :
    Finishes true none (binaryTail deeper place tightness left) := by
  unfold binaryTail
  refine iterate (fun left => operator_bind .pure fun operator => ?_) left
  dsimp only
  split
  next => exact .pure
  next =>
    exact last fun _ => (unary_finishes finished place).bind fun _ => binaryTail_finishes.bind fun _ => .pure
termination_by 6 - tightness
decreasing_by
  have := operator.precedence_le
  omega

private theorem binary_finishes {place : Place} {tightness : Nat} :
    Finishes clear front (binary deeper place tightness) :=
  (unary_finishes finished place).bind fun _ => binaryTail_finishes finished

private theorem expressionFrom_finishes {place : Place} {operand : Expression} :
    Finishes true none (expressionFrom deeper place operand) :=
  suffixes_finishes.bind fun _ => binaryTail_finishes finished

private theorem expressionListFrom_finishes {place : Place} {first : Expression} :
    Finishes true none (expressionListFrom deeper place first) :=
  iterate (fun _ => eatOperator_bind ((expression_finishes finished place).bind fun _ => .pure) .pure) _

private theorem expressionList_finishes {place : Place} : Finishes clear front (expressionList deeper place) :=
  (expression_finishes finished place).bind fun _ => expressionListFrom_finishes finished

end expressions

section statements

variable {deeper : Deeper} (finished : Finished deeper) {clear : Bool} {front : Option TokenKind}

private theorem group_finishes {item : Parse Unit} (one : Finishes clear none item) :
    Finishes clear front (group item) :=
  eatOperator_bind (last fun _ => expectOperator rfl) one

private theorem importItem_finishes : Finishes clear front importItem := by
  have path : Finishes false none
      (do if (← peekKind 0) = some (.literal .string) then bump else rejectNext ["import path"]) := by
    refine kind_bind fun found => ?_
    split
    next isString => exact isString ▸ bump rfl
    next => exact rejectNext
  refine last fun found => ?_
  split
  next => exact last fun _ => path
  next => exact last fun _ => path
  next => exact path

private theorem importDeclaration_finishes : Finishes clear front importDeclaration :=
  last fun _ => (group_finishes importItem_finishes).bind fun _ => .pure

private theorem loneExpression_finishes {left : ExpressionList} : Finishes true front (loneExpression left) := by
  unfold loneExpression
  split
  next => exact .pure
  next => exact rejectNext

include finished

private theorem optionalValues_finishes : Finishes true none (optionalValues deeper) :=
  eatOperator_bind (expressionList_finishes finished).discard .pure

private theorem constItem_finishes : Finishes clear none (constItem deeper) := by
  have values := optionalValues_finishes finished
  refine nameList_finishes.bind fun _ => atOperator_bind (values.forget) ?_
  simp only [Bool.not_false, ↓reduceIte, atType, bind_assoc, pure_bind]
  refine peekKind_bind fun found => ?_
  split
  next => exact (type_finishes finished).discard.bind fun _ => values
  next => exact values

private theorem varItem_finishes : Finishes clear none (varItem deeper) := by
  refine nameList_finishes.bind fun _ => eatOperator_bind (expressionList_finishes finished).discard ?_
  exact (type_finishes finished).discard.bind fun _ => optionalValues_finishes finished

private theorem typeItem_finishes : Finishes clear front (typeItem deeper) :=
  last fun _ => last fun _ => (type_finishes finished).discard

private theorem rangeClause_finishes {place : Place} : Finishes clear front (rangeClause deeper place) :=
  last fun _ => (expression_finishes finished place).discard.bind fun _ => .pure

private theorem rightSide_finishes {place : Place} {mayRange : Bool} {kind : StatementKind} :
    Finishes clear front (rightSide deeper place mayRange kind) := by
  have behind : ∀ isRange, Finishes false none
      (if isRange = true then rangeClause deeper place
      else do
        let values ← expressionList deeper place
        return { kind := kind, last := some values.last.shape }) := by
    intro isRange
    split
    next => exact rangeClause_finishes finished
    next => exact (expressionList_finishes finished).bind fun _ => .pure
  unfold rightSide
  dsimp only
  split <;> exact last behind

private theorem labeledStatement_finishes {next : Unit → Parse SimpleStatement} (rest : Finishes true none (next ())) :
    Finishes clear (some (.operator .colon)) (do bump; next (← labeledStatement deeper)) := by
  simp only [labeledStatement, bind_assoc]
  refine label_bind fun found => ?_
  split
  next => exact (endOfInput : Finishes _ _ (Parse.endOfInput _ : Parse Unit)).bind fun _ => rest
  next => exact rest.forget
  next => exact rest.forget
  next => exact (finished.statement .block).discard.weaken.bind fun _ => rest

private theorem simpleFrom_finishes {place : Place} {mode : SimpleMode} {left : ExpressionList} :
    Finishes true none (simpleFrom deeper place mode left) := by
  refine operator_bind loneExpression_finishes fun operator => ?_
  split
  next => exact loneExpression_finishes
  next => exact last fun _ => rightSide_finishes finished
  next found =>
    cases found
    split
    next => exact last fun _ => rightSide_finishes finished
    next =>
      split
      next isLabel => exact isLabel.1 ▸ labeledStatement_finishes finished .pure
      next =>
        split
        next => exact last fun _ => (expression_finishes finished place).bind fun _ => .pure
        next =>
          split
          next isCount =>
            refine bump_bind ?_ .pure
            rcases isCount.1 with rfl | rfl <;> rfl
          next => exact loneExpression_finishes

private theorem simpleStatement_finishes {place : Place} {mode : SimpleMode} :
    Finishes clear front (simpleStatement deeper place mode) := by
  have behind : ∀ isRange, Finishes false none
      (if isRange = true then rangeClause deeper place
      else do simpleFrom deeper place mode (← expressionList deeper place)) := by
    intro isRange
    split
    next => exact rangeClause_finishes finished
    next => exact (expressionList_finishes finished).bind fun _ => simpleFrom_finishes finished
  unfold simpleStatement
  dsimp only
  split <;> exact last behind

private theorem ifBody_finishes : Finishes clear front (ifBody deeper) := by
  refine last fun _ => last fun _ => block_finishes.bind fun _ => atKeyword_bind ?_ .pure
  refine last fun _ => kind_bind fun found => ?_
  split
  next => exact finished.ifStatement.weaken
  next => exact block_finishes
  next => exact rejectNext

omit finished in
private theorem forStatement_finishes : Finishes clear front (forStatement deeper) :=
  last fun _ => last fun _ => block_finishes.bind fun _ => .pure

omit finished in
private theorem switchStatement_finishes : Finishes clear front (switchStatement deeper) :=
  last fun _ => last fun _ => last fun _ => last fun _ => (expectOperator rfl).bind fun _ => .pure

omit finished in
private theorem selectStatement_finishes : Finishes clear front (selectStatement deeper) :=
  last fun _ => last fun _ => last fun _ => (expectOperator rfl).bind fun _ => .pure

private theorem functionStatement_finishes {start : Span} : Finishes clear front (functionStatement deeper start) := by
  have body : ∀ kind : StatementKind,
      Finishes false none (do signature deeper; optionalBlock deeper; return kind) := fun _ =>
    (signature_finishes finished).bind fun _ => optionalBlock_finishes.bind fun _ => .pure
  have literal : Finishes true none
      (do
        result deeper
        optionalBlock deeper
        let first ← expressionFrom deeper .free ⟨.other, ← spanFrom start⟩
        let left ← expressionListFrom deeper .free first
        return (← simpleFrom deeper .free .statement left).kind) :=
    (result_finishes finished).bind fun _ => optionalBlock_finishes.bind fun _ => spanFrom_bind fun _ =>
      (expressionFrom_finishes finished).bind fun _ => (expressionListFrom_finishes finished).bind fun _ =>
        (simpleFrom_finishes finished).bind fun _ => .pure
  refine last fun _ => kind_bind fun found => ?_
  split
  next => exact last fun _ => body _
  next =>
    refine parameters_finishes.bind fun _ => peekKind_bind fun found => ?_
    split
    next =>
      refine peekOperator_bind fun operator => ?_
      simp only [pure_bind]
      split
      next => exact last fun _ => body _
      next => exact literal
    next => exact literal
  next => exact rejectNext

private theorem statementKind_finishes {context : Context} {token : Token} :
    Finishes clear (some token.kind) (statementKind deeper context token) := by
  have simple : Finishes false none (do return (← simpleStatement deeper .free .statement).kind) :=
    (simpleStatement_finishes finished).bind fun _ => .pure
  have expression : ∀ kind : StatementKind,
      Finishes false none (do discard (deeper.expression .free); return kind) := fun _ =>
    (expression_finishes finished .free).discard.bind fun _ => .pure
  have label : ∀ kind : StatementKind, Finishes true none
      (do
        if (← peekKind 0) = some .identifier then bump
        return kind) := by
    intro kind
    refine kind_bind fun found => ?_
    split
    next isName => exact isName ▸ bump_bind rfl .pure
    next => exact .pure
  unfold statementKind
  split
  next => exact last fun _ => (group_finishes (constItem_finishes finished)).bind fun _ => .pure
  next => exact last fun _ => (group_finishes (varItem_finishes finished)).bind fun _ => .pure
  next => exact last fun _ => (group_finishes (typeItem_finishes finished)).bind fun _ => .pure
  next =>
    split
    next => exact importDeclaration_finishes
    next => exact unexpected
  next =>
    split
    next => exact functionStatement_finishes finished
    next => exact simple.weaken
  next => exact last fun _ => expression .go
  next => exact last fun _ => expression .defer
  next isKind =>
    refine bump_bind (by rw [isKind]; rfl) (kind_bind fun found => ?_)
    split
    next => exact .pure
    next => exact .pure
    next => exact .pure
    next => exact (expressionList_finishes finished).discard.bind fun _ => .pure
  next isKind => exact bump_bind (by rw [isKind]; rfl) (label .break)
  next isKind => exact bump_bind (by rw [isKind]; rfl) (label .continue)
  next => exact last fun _ => expectName.bind fun _ => .pure
  next isKind => exact bump_bind (by rw [isKind]; rfl) .pure
  next => exact (ifBody_finishes finished).bind fun _ => .pure
  next => exact forStatement_finishes
  next => exact switchStatement_finishes
  next => exact selectStatement_finishes
  next => exact block_finishes.bind fun _ => .pure
  next => exact simple.weaken

private theorem statementBody_finishes {context : Context} : Finishes clear front (statementBody deeper context) :=
  look_bind endOfInput fun _ => (statementKind_finishes finished).bind fun _ => spanFrom_bind fun _ => .pure

end statements

private theorem none_finished (limit : Nat) : Finished (Deeper.none limit) :=
  ⟨fun _ => .beyondLimit, fun _ => .beyondLimit, .beyondLimit, fun _ => .beyondLimit, .beyondLimit⟩

private theorem levels_finished (limit left : Nat) : Finished (levels limit left) := by
  induction left with
  | zero => exact none_finished limit
  | succ left ih =>
    exact ⟨fun _ => binary_finishes ih, fun _ => unaryBody_finishes ih, typeBody_finishes ih,
      fun _ => statementBody_finishes ih, ifBody_finishes ih⟩

theorem topLevelStatement_finishes (limit : Nat) : Finishes false none (topLevelStatement limit) := fun state =>
  (levels_finished limit (limit - state.depth)).statement .topLevel state

end Grammar

end GoPrompt
