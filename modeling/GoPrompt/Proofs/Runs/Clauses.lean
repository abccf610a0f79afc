import GoPrompt.Proofs.Runs.Nesting
import GoPrompt.Proofs.Runs.Parsed
import GoPrompt.Proofs.Runs.Recovery

/-! Statements without brackets. A semicolon within a statement separates the clauses of a header, which a block
follows, or the members of a list in brackets; so where a text has no brackets, what is read as a statement has no
semicolon. A program is judged by the kind of the token in front of it, if that is known, in runs that have not consumed
a semicolon since a given token.

The constructs of the grammar. Those in brackets are barred, and so is a header with its block, whatever the header
consumes. -/

namespace GoPrompt

open Parse

variable {α β : Type}

/-- The steps on tokens keep their property also when they are known to go on in one text. -/
theorem Kept.onwardFrom {holds : ParseState → Prop} {fails : Failure → ParseState → Prop} (kept : Kept holds fails)
    (start : TokenStream) : Kept (fun state => holds state ∧ start.Onward state.stream) fails := by
  have both : ∀ {α : Type} {program : Parse α} {state : ParseState}, start.Onward state.stream → Onwards program →
      Leaves holds fails (program state) →
        Leaves (fun state => holds state ∧ start.Onward state.stream) fails (program state) := by
    intro α program state onward onwards leaves
    have moved := onwards state
    cases ran : program state with
    | ok value after =>
      rw [ran] at leaves moved
      exact ⟨leaves, onward.trans moved⟩
    | error failure after =>
      rw [ran] at leaves
      exact leaves
  exact
    { counts := fun held => kept.counts held.1
      look := fun index held => both held.2 (onwards_peek index) (kept.look index held.1)
      take := fun held => both held.2 onwards_bump (kept.take held.1)
      reject := fun token expected held =>
        both held.2 (onwards_unexpected token expected) (kept.reject token expected held.1)
      ask := fun expected held => both held.2 (onwards_endOfInput expected) (kept.ask expected held.1)
      stop := fun limit held => both held.2 (onwards_beyondLimit limit) (kept.stop limit held.1) }

/-- A state of a run over a text without brackets. -/
structure Unbracketed (steps : List LexStep) (state : ParseState) : Prop where
  plain : ∀ kind ∈ LexStep.kinds steps, kind.isPlain = true
  collects : ∃ last, (Lexer.ofText 0 state.stream.text).Collects steps last
  room : (LexStep.tokens steps).length ≤ state.stream.maxTokens
  atDepth : AtDepth 0 state

/-- Since the token with the given number no semicolon has been consumed, and the kind of the next token may
be known. -/
structure InClause (steps : List LexStep) (begun : Nat) (front : Option TokenKind) (state : ParseState) : Prop
    extends Unbracketed steps state where
  place : ∃ number, state.stream.Recalls steps number ∧ begun ≤ number ∧
    (∀ earlier, begun ≤ earlier → earlier < number → ∀ kind, (LexStep.kinds steps)[earlier]? = some kind →
      isSemicolon kind = false) ∧
    ∀ kind, front = some kind → (LexStep.kinds steps)[number]? = some kind

section

variable {steps : List LexStep} {begun : Nat} {front : Option TokenKind} {kind : TokenKind} {state after : ParseState}

theorem Unbracketed.onward (unbracketed : Unbracketed steps state) (atDepth : AtDepth 0 after)
    (onward : state.stream.Onward after.stream) :
    Unbracketed steps after :=
  ⟨unbracketed.plain, onward.text ▸ unbracketed.collects, onward.budget ▸ unbracketed.room, atDepth⟩

theorem Unbracketed.peek {index : Nat} {found : Option Token} (unbracketed : Unbracketed steps state)
    (looked : Parse.peek index state = .ok found after) : Unbracketed steps after := by
  have leaves := unbracketed.atDepth.peek index
  have onward := onwards_peek index state
  rw [looked] at leaves onward
  exact unbracketed.onward leaves onward

theorem Unbracketed.steady [Alike α] {program : Parse α} {value : α} (unbracketed : Unbracketed steps state)
    (steady : ∀ {C : Coupling}, C.Lawful → C.Steady program program) (ran : program state = .ok value after) :
    Unbracketed steps after := by
  have kept := (kept_atDepth 0).onwardFrom state.stream
  have leaves := kept.leaves program (fun _ => steady (Coupling.keeping_lawful kept))
    ⟨unbracketed.atDepth, .refl state.stream⟩
  rw [ran] at leaves
  exact unbracketed.onward leaves.1 leaves.2

theorem Unbracketed.recalls (unbracketed : Unbracketed steps state) : ∃ number, state.stream.Recalls steps number := by
  obtain ⟨_, collects⟩ := unbracketed.collects
  exact unbracketed.atDepth.reached.recalls collects unbracketed.room

theorem Unbracketed.found {number : Nat} {found : Option Token} (unbracketed : Unbracketed steps state)
    (recalls : state.stream.Recalls steps number) (looked : Parse.peek 0 state = .ok found after) :
    found = (LexStep.tokens steps)[number]? := by
  obtain ⟨_, collects⟩ := unbracketed.collects
  obtain ⟨_, served, -⟩ := recalls.serve collects.lexes (.peek 0) (Nat.zero_le _)
  exact Except.ok.inj (congrArg Prod.fst ((of_onStream_ok looked).symm.trans served))

theorem Unbracketed.isPlain {found : Option Token} {token : Token} (unbracketed : Unbracketed steps state)
    (looked : Parse.peek 0 state = .ok found after) (isToken : found = some token) : token.kind.isPlain = true := by
  obtain ⟨number, recalls⟩ := unbracketed.recalls
  have there := (unbracketed.found recalls looked).symm.trans isToken
  exact unbracketed.plain _ (List.mem_map_of_mem (List.mem_of_getElem? there))

theorem InClause.look {found : Option Token} (inside : InClause steps begun front state)
    (looked : Parse.peek 0 state = .ok found after) : InClause steps begun (found.map (·.kind)) after := by
  obtain ⟨number, recalls, within, plain, -⟩ := inside.place
  obtain ⟨_, collects⟩ := inside.collects
  have recalls' := recalls.peek collects.lexes 0
  rw [of_onStream_ok looked] at recalls'
  refine ⟨inside.toUnbracketed.peek looked, number, recalls', within, plain, fun kind isKind => ?_⟩
  rw [LexStep.kinds, List.getElem?_map, ← inside.found recalls looked, isKind]

theorem InClause.bump (inside : InClause steps begun (some kind) state) (joined : isSemicolon kind = false)
    (ran : Parse.bump state = .ok () after) : InClause steps begun none after := by
  obtain ⟨_, collects⟩ := inside.collects
  obtain ⟨number, recalls, within, plain, ahead⟩ := inside.place
  have there := ahead kind rfl
  have less : number < (LexStep.tokens steps).length := by
    have inKinds := (List.getElem?_eq_some_iff.mp there).1
    rwa [LexStep.kinds, List.length_map] at inKinds
  have leaves := inside.atDepth.bump
  have onward := onwards_bump state
  have taken := bump_leaves state
  have recalls' := recalls.next collects.lexes
  rw [Nat.min_eq_left less] at recalls'
  rw [ran] at leaves onward taken
  obtain ⟨token, stream, took, rfl⟩ := taken
  rw [took] at recalls'
  refine ⟨inside.toUnbracketed.onward leaves onward, number + 1, recalls', Nat.le_succ_of_le within, ?_,
    fun _ none => by cases none⟩
  intro earlier begins before other isOther
  rcases Nat.lt_or_eq_of_le (Nat.le_of_lt_succ before) with less | rfl
  · exact plain earlier begins less other isOther
  · cases isOther.symm.trans there
    exact joined

end

/-- A program that cannot succeed where there are no brackets. -/
def Barred (program : Parse α) : Prop :=
  ∀ steps state value after, Unbracketed steps state → program state ≠ .ok value after

/-- A program that does not consume a semicolon where there are no brackets, if it succeeds. -/
def Clausal (front : Option TokenKind) (program : Parse α) : Prop :=
  ∀ steps begun state value after, InClause steps begun front state → program state = .ok value after →
    InClause steps begun none after

namespace Barred

variable {program : Parse α} {next : α → Parse β}

theorem bind (barred : Barred program) : Barred (program >>= next) := by
  intro steps state value after unbracketed ran
  obtain ⟨found, middle, ran, -⟩ := of_bind_ok ran
  exact barred steps state found middle unbracketed ran

theorem behind [Alike α] (steady : ∀ {C : Coupling}, C.Lawful → C.Steady program program)
    (rest : ∀ value, Barred (next value)) :
    Barred (program >>= next) := by
  intro steps state value after unbracketed ran
  obtain ⟨found, middle, ran, ran'⟩ := of_bind_ok ran
  exact rest found steps middle value after (unbracketed.steady steady ran) ran'

private theorem expectOpener {operator : Operator} (opens : operator.isOpener = true) :
    Barred (expectOperator operator) := by
  intro steps state value after unbracketed ran
  obtain ⟨found, middle, looked, ran⟩ := of_bind_ok ran
  cases found with
  | none => cases ran
  | some token =>
    dsimp only at ran
    split at ran
    next isOpener =>
      have plain := unbracketed.isPlain looked rfl
      rw [eq_of_beq isOpener, TokenKind.isPlain, opens] at plain
      cases plain
    next => exact unexpected_ne_ok token _ _ ran

end Barred

namespace Clausal

variable {front : Option TokenKind} {kind : TokenKind} {program : Parse α} {next : α → Parse β}

section rules

theorem of_ne_ok (never : ∀ state value after, program state ≠ .ok value after) : Clausal front program :=
  fun _ _ state value after _ ran => absurd ran (never state value after)

private theorem of_barred (barred : Barred program) : Clausal front program :=
  fun steps _ state value after inside ran => absurd ran (barred steps state value after inside.toUnbracketed)

theorem forget (clausal : Clausal none program) : Clausal front program := by
  intro steps begun state value after inside ran
  obtain ⟨number, recalls, within, plain, -⟩ := inside.place
  exact clausal steps begun state value after ⟨inside.toUnbracketed, number, recalls, within, plain, nofun⟩ ran

theorem done {value : α} : Clausal front (Pure.pure value : Parse α) := by
  refine forget fun steps begun state value after inside ran => ?_
  cases ran
  exact inside

theorem bind (clausal : Clausal front program) (rest : ∀ value, Clausal none (next value)) :
    Clausal front (program >>= next) := by
  intro steps begun state value after inside ran
  obtain ⟨found, middle, ran, ran'⟩ := of_bind_ok ran
  exact rest found steps begun middle value after (clausal steps begun state found middle inside ran) ran'

theorem discard (clausal : Clausal front program) : Clausal front (discard program) := clausal.bind fun _ => .done

end rules

section failures

variable {expected : List String}

theorem unexpected {token : Token} : Clausal front (Parse.unexpected token expected : Parse α) :=
  .of_ne_ok fun _ value _ => unexpected_ne_ok token expected value

theorem endOfInput : Clausal front (Parse.endOfInput expected : Parse α) := .of_ne_ok fun _ _ _ => nofun

theorem beyondLimit {limit : Nat} : Clausal front (Grammar.beyondLimit limit : Parse α) :=
  .of_ne_ok (Coupling.beyondLimit_ne_ok limit)

end failures

section decisions

variable {operator : Operator} {keyword : Keyword}

theorem look_bind {next : Option Token → Parse β} (ended : Clausal none (next none))
    (found : ∀ token, token.kind.isPlain = true → Clausal (some token.kind) (next (some token))) :
    Clausal front (Parse.peek 0 >>= next) := by
  intro steps begun state value after inside ran
  obtain ⟨one, middle, looked, ran⟩ := of_bind_ok ran
  have known := inside.look looked
  cases one with
  | none => exact ended steps begun middle value after known ran
  | some token => exact found token (inside.isPlain looked rfl) steps begun middle value after known ran

theorem rejectNext {expected : List String} : Clausal front (Parse.rejectNext expected : Parse α) :=
  look_bind endOfInput fun _ _ => unexpected

theorem kind_bind {next : Option TokenKind → Parse β} (ended : Clausal none (next none))
    (found : ∀ kind : TokenKind, kind.isPlain = true → Clausal (some kind) (next (some kind))) :
    Clausal front (peekKind 0 >>= next) := by
  simp only [peekKind, bind_assoc, pure_bind]
  exact look_bind ended fun token plain => found token.kind plain

theorem operator_bind {next : Option Operator → Parse β} (other : Clausal none (next none))
    (found : ∀ operator : Operator, (TokenKind.operator operator).isPlain = true →
      Clausal (some (.operator operator)) (next (some operator))) :
    Clausal front (peekOperator 0 >>= next) := by
  simp only [peekOperator, bind_assoc, pure_bind]
  refine look_bind other fun token plain => ?_
  simp only [Option.bind_some, Token.operator?]
  cases isKind : token.kind with
  | operator operator => exact found operator (isKind ▸ plain)
  | identifier | keyword | literal | semicolon | illegal => exact other.forget

theorem atOperator_bind {next : Bool → Parse β}
    (yes : (TokenKind.operator operator).isPlain = true → Clausal (some (.operator operator)) (next true))
    (no : Clausal none (next false)) : Clausal front (atOperator operator >>= next) := by
  simp only [atOperator, bind_assoc, pure_bind]
  refine operator_bind no fun found plain => ?_
  by_cases same : found = operator
  · subst same
    simpa using yes plain
  · rw [beq_eq_false_iff_ne.mpr fun equal => same (Option.some.inj equal)]
    exact no.forget

theorem atKeyword_bind {next : Bool → Parse β} (yes : Clausal (some (.keyword keyword)) (next true))
    (no : Clausal none (next false)) : Clausal front (atKeyword keyword >>= next) := by
  simp only [atKeyword, bind_assoc, pure_bind]
  refine kind_bind no fun found _ => ?_
  by_cases same : found = .keyword keyword
  · subst same
    simpa using yes
  · rw [beq_eq_false_iff_ne.mpr fun equal => same (Option.some.inj equal)]
    exact no.forget

theorem spanFrom_bind {start : Span} {next : Span → Parse β} (rest : ∀ span, Clausal front (next span)) :
    Clausal front (spanFrom start >>= next) := by
  intro steps begun state value after inside ran
  rw [bind_ok (show spanFrom start state = .ok (start.merge state.lastSpan) state from rfl)] at ran
  exact rest _ steps begun state value after inside ran

theorem bump (joined : isSemicolon kind = false) : Clausal (some kind) Parse.bump :=
  fun _ _ _ _ _ inside ran => inside.bump joined ran

theorem bump_bind {next : Unit → Parse β} (joined : isSemicolon kind = false) (rest : Clausal none (next ())) :
    Clausal (some kind) (Parse.bump >>= next) := (bump joined).bind fun () => rest

theorem expect {accepts : TokenKind → Bool} {expected : List String}
    (joined : ∀ kind, accepts kind = true → isSemicolon kind = false) :
    Clausal front (Parse.expect accepts expected) := by
  refine look_bind endOfInput fun token _ => ?_
  dsimp only
  split
  next accepted => exact bump (joined _ accepted)
  next => exact unexpected

theorem expectKeyword : Clausal front (Parse.expectKeyword keyword) := expect fun _ accepted => eq_of_beq accepted ▸ rfl

theorem expectName : Clausal front Parse.expectName := expect fun _ accepted => eq_of_beq accepted ▸ rfl

theorem eatOperator_bind {next : Bool → Parse β}
    (yes : (TokenKind.operator operator).isPlain = true → Clausal none (next true)) (no : Clausal none (next false)) :
    Clausal front (eatOperator operator >>= next) := by
  simp only [eatOperator, bind_assoc]
  refine atOperator_bind (fun plain => ?_) ?_
  · simpa only [↓reduceIte, bind_assoc, pure_bind] using bump_bind rfl (yes plain)
  · simpa using no

theorem eatOperator : Clausal front (Parse.eatOperator operator) := by
  have eaten : Clausal front (Parse.eatOperator operator >>= Pure.pure) := eatOperator_bind (fun _ => .done) .done
  simpa only [bind_pure] using eaten

end decisions

section loops

variable {turn : α → Parse (Turn α β)}

theorem iterate (turns : ∀ value, Clausal none (turn value)) (value : α) : Clausal none (Parse.iterate turn value) := by
  intro steps begun state result after inside ran
  cases turned : turn value state with
  | error failure reached =>
    rw [iterate_error turned] at ran
    cases ran
  | ok answer reached =>
    have kept := turns value steps begun state answer reached inside turned
    cases answer with
    | done found =>
      rw [iterate_done turned] at ran
      cases ran
      exact kept
    | again further =>
      by_cases progress : reached.remaining < state.remaining
      · rw [iterate_again turned progress] at ran
        exact iterate turns further steps begun reached result after kept ran
      · rw [iterate_stuck turned progress] at ran
        cases ran
termination_by _ _ state => state.remaining

theorem repeatUntil {isDone : Parse Bool} (clausal : Clausal none isDone) : Clausal none (Parse.repeatUntil isDone) :=
  iterate (fun () => clausal.bind fun isDone => by cases isDone <;> exact .done) ()

end loops

end Clausal


namespace Grammar

open Clausal

/-- What is needed of the readers of the level below. -/
structure JoinsClauses (deeper : Deeper) : Prop where
  deep : ∀ {C : Coupling}, C.Lawful → C.Deep deeper deeper
  expression : ∀ place, Clausal none (deeper.expression place)
  unary : ∀ place, Clausal none (deeper.unary place)
  type : Clausal none deeper.type
  statement : ∀ context, Clausal none (deeper.statement context)

section barred

variable {deeper : Deeper}

private theorem expectKeyword_barred {β : Type} {keyword : Keyword} {next : Unit → Parse β} (rest : Barred (next ())) :
    Barred (expectKeyword keyword >>= next) :=
  .behind (fun lawful => lawful.expectKeyword_steady keyword) fun () => rest

private theorem block_barred : Barred (block deeper) := (Barred.expectOpener rfl).bind

private theorem mapType_barred : Barred (mapType deeper) := expectKeyword_barred (Barred.expectOpener rfl).bind

private theorem parameters_barred : Barred (parameters deeper) := (Barred.expectOpener rfl).bind

private theorem signature_barred : Barred (signature deeper) := parameters_barred.bind

private theorem structType_barred : Barred (structType deeper) := expectKeyword_barred (Barred.expectOpener rfl).bind

private theorem interfaceType_barred : Barred (interfaceType deeper) :=
  expectKeyword_barred (Barred.expectOpener rfl).bind

private theorem selectStatement_barred : Barred (selectStatement deeper) :=
  expectKeyword_barred (Barred.expectOpener rfl).bind

variable (joins : JoinsClauses deeper)
include joins

private theorem ifBody_barred : Barred (ifBody deeper) :=
  expectKeyword_barred (.behind (fun lawful => ifHeader_steady lawful (joins.deep lawful)) fun _ => block_barred.bind)

private theorem forStatement_barred : Barred (forStatement deeper) :=
  expectKeyword_barred (.behind (fun lawful => forHeader_steady lawful (joins.deep lawful)) fun _ => block_barred.bind)

private theorem switchStatement_barred : Barred (switchStatement deeper) :=
  expectKeyword_barred (.behind (fun lawful => switchHeader_steady lawful (joins.deep lawful)) fun _ =>
    (Barred.expectOpener rfl).bind)

end barred

section expressions

variable {deeper : Deeper} {front : Option TokenKind}

private theorem nameList_clausal : Clausal front nameList :=
  expectName.bind fun _ => repeatUntil (eatOperator_bind (fun _ => expectName.bind fun _ => .done) .done)

private theorem typeName_clausal : Clausal front typeName :=
  expectName.bind fun _ => eatOperator_bind (fun _ => expectName.bind fun _ => .done) .done

private theorem selector_clausal {base : Shape} : Clausal front (selector deeper base) := by
  refine kind_bind rejectNext fun kind plain => ?_
  split
  next isName =>
    cases isName
    exact bump_bind rfl .done
  next isOpener =>
    cases isOpener
    cases plain
  next => exact rejectNext

private theorem suffix_clausal {place : Place} {shape : Shape} {operator : Operator}
    (plain : (TokenKind.operator operator).isPlain = true) :
    Clausal (some (.operator operator)) (suffix deeper place shape operator) := by
  unfold suffix
  split
  next => exact bump_bind rfl (selector_clausal.bind fun _ => .done)
  next => cases plain
  next => cases plain
  next => cases plain
  next => exact .done

private theorem suffixes_clausal {place : Place} {operand : Expression} :
    Clausal none (suffixes deeper place operand) := by
  refine iterate
    (fun expression => operator_bind .done fun operator plain => (suffix_clausal plain).bind fun found => ?_) operand
  cases found with
  | none => exact .done
  | some shape => exact spanFrom_bind fun _ => .done

variable (joins : JoinsClauses deeper)
include joins

private theorem typeBody_clausal : Clausal none (typeBody deeper) := by
  have type := joins.type.discard
  refine look_bind endOfInput fun token plain => ?_
  dsimp only
  generalize token.kind = kind at plain
  split
  next => exact typeName_clausal
  next => exact bump_bind rfl (type.bind fun _ => .done)
  next => cases plain
  next => cases plain
  next => exact bump_bind rfl (expectKeyword.bind fun _ => type.bind fun _ => .done)
  next => exact bump_bind rfl (eatOperator.discard.bind fun _ => type.bind fun _ => .done)
  next => exact .of_barred mapType_barred
  next => exact bump_bind rfl (.of_barred signature_barred.bind)
  next => exact .of_barred structType_barred
  next => exact .of_barred interfaceType_barred
  next => exact unexpected

private theorem operandShape_clausal {token : Token} (plain : token.kind.isPlain = true) :
    Clausal (some token.kind) (operandShape deeper token) := by
  unfold operandShape
  generalize token.kind = kind at plain
  split
  next => exact bump_bind rfl .done
  next => exact bump_bind rfl .done
  next => cases plain
  next => cases plain
  next => exact .of_barred mapType_barred
  next => exact .of_barred structType_barred
  next => exact joins.type.discard.forget.bind fun _ => .done
  next => exact joins.type.discard.forget.bind fun _ => .done
  next => exact bump_bind rfl (.of_barred signature_barred.bind)
  next => exact unexpected

private theorem operand_clausal : Clausal none (operand deeper) :=
  look_bind endOfInput fun _ plain => (operandShape_clausal joins plain).bind fun _ => spanFrom_bind fun _ => .done

private theorem unaryBody_clausal {place : Place} : Clausal none (unaryBody deeper place) := by
  refine look_bind endOfInput fun token plain => ?_
  dsimp only
  have joined : ∀ {operator : Operator}, token.operator? = some operator → isSemicolon token.kind = false := by
    intro operator found
    unfold Token.operator? at found
    cases isKind : token.kind with
    | operator => rfl
    | identifier | keyword | literal | semicolon | illegal =>
      rw [isKind] at found
      cases found
  split
  next isUnary =>
    cases found : token.operator? with
    | none => simp [found] at isUnary
    | some operator => exact bump_bind (joined found) ((joins.unary place).bind fun _ => .done)
  next =>
    split
    next isArrow =>
      refine bump_bind (joined isArrow) (atKeyword_bind ?_ ((joins.unary place).bind fun _ => .done))
      exact bump_bind rfl (joins.type.discard.bind fun _ => spanFrom_bind fun _ => suffixes_clausal)
    next => exact ((operand_clausal joins).bind fun _ => suffixes_clausal).forget

private theorem binaryTail_clausal {place : Place} {tightness : Nat} {left : Expression} :
    Clausal none (binaryTail deeper place tightness left) := by
  unfold binaryTail
  refine iterate (fun left => operator_bind .done fun operator _ => ?_) left
  dsimp only
  split
  next => exact .done
  next => exact bump_bind rfl ((joins.unary place).bind fun _ => binaryTail_clausal.bind fun _ => .done)
termination_by 6 - tightness
decreasing_by
  have := operator.precedence_le
  omega

private theorem binary_clausal {place : Place} {tightness : Nat} : Clausal none (binary deeper place tightness) :=
  (joins.unary place).bind fun _ => binaryTail_clausal joins

private theorem expressionList_clausal {place : Place} : Clausal none (expressionList deeper place) := by
  refine (joins.expression place).bind fun first => iterate (fun list => eatOperator_bind (fun _ => ?_) .done) _
  exact (joins.expression place).bind fun _ => .done

end expressions

section statements

variable {deeper : Deeper} {front : Option TokenKind}

private theorem declaration_clausal {keyword : Keyword} {kind : StatementKind} {item : Parse Unit}
    (items : Clausal none item) :
    Clausal front (do expectKeyword keyword; group item; return kind) :=
  expectKeyword.bind fun _ => (eatOperator_bind (fun plain => Bool.noConfusion plain) items).bind fun _ => .done

private theorem importItem_clausal : Clausal none importItem := by
  have path : Clausal none (do if (← peekKind 0) = some (.literal .string) then bump else rejectNext ["import path"]) := by
    refine kind_bind rejectNext fun kind _ => ?_
    split
    next isString =>
      cases isString
      exact bump rfl
    next => exact rejectNext
  refine kind_bind path fun kind _ => ?_
  split
  next isPoint =>
    cases isPoint
    exact bump_bind rfl path
  next isName =>
    cases isName
    exact bump_bind rfl path
  next => exact path.forget

private theorem loneExpression_clausal {left : ExpressionList} : Clausal front (loneExpression left) := by
  unfold loneExpression
  split
  next => exact .done
  next => exact rejectNext

variable (joins : JoinsClauses deeper)
include joins

private theorem optionalValues_clausal : Clausal none (optionalValues deeper) :=
  eatOperator_bind (fun _ => (expressionList_clausal joins).discard) .done

private theorem constItem_clausal : Clausal none (constItem deeper) := by
  have values := optionalValues_clausal joins
  have behind : Clausal none (do
      if ← atType then discard deeper.type
      optionalValues deeper) := by
    simp only [atType, bind_assoc, pure_bind]
    refine kind_bind values fun kind _ => ?_
    split
    next => exact (joins.type.discard.bind fun _ => values).forget
    next => exact values.forget
  refine nameList_clausal.bind fun _ => atOperator_bind (fun _ => values.forget) ?_
  simpa using behind

private theorem varItem_clausal : Clausal none (varItem deeper) :=
  nameList_clausal.bind fun _ => eatOperator_bind (fun _ => (expressionList_clausal joins).discard)
    (joins.type.discard.bind fun _ => optionalValues_clausal joins)

private theorem typeItem_clausal : Clausal none (typeItem deeper) :=
  expectName.bind fun _ => eatOperator.discard.bind fun _ => joins.type.discard

private theorem mayRange_clausal {place : Place} {mayRange : Bool} {program : Parse SimpleStatement}
    (elsewhere : Clausal none program) :
    Clausal none (do
      let isRange ← if mayRange then atKeyword .range else pure false
      if isRange then rangeClause deeper place else program) := by
  cases mayRange with
  | true => exact atKeyword_bind (bump_bind rfl ((joins.expression place).discard.bind fun _ => .done)) elsewhere
  | false => exact elsewhere

private theorem rightSide_clausal {place : Place} {mayRange : Bool} {kind : StatementKind} :
    Clausal none (rightSide deeper place mayRange kind) :=
  mayRange_clausal joins ((expressionList_clausal joins).bind fun _ => .done)

private theorem labeledStatement_clausal : Clausal none (labeledStatement deeper) := by
  refine kind_bind endOfInput fun kind _ => ?_
  split
  next => exact endOfInput
  next => exact .done
  next => exact .done
  next => exact (joins.statement .block).discard.forget

private theorem simpleFrom_clausal {place : Place} {mode : SimpleMode} {left : ExpressionList} :
    Clausal none (simpleFrom deeper place mode left) := by
  refine operator_bind loneExpression_clausal fun operator _ => ?_
  split
  next => contradiction
  next found =>
    cases found
    exact bump_bind rfl (rightSide_clausal joins)
  next found =>
    cases found
    split
    next => exact bump_bind rfl (rightSide_clausal joins)
    next =>
      split
      next => exact bump_bind rfl ((labeledStatement_clausal joins).bind fun _ => .done)
      next =>
        split
        next => exact bump_bind rfl ((joins.expression place).bind fun _ => .done)
        next =>
          split
          next => exact bump_bind rfl .done
          next => exact loneExpression_clausal

private theorem simpleStatement_clausal {place : Place} {mode : SimpleMode} :
    Clausal none (simpleStatement deeper place mode) := by
  have list : Clausal none (do simpleFrom deeper place mode (← expressionList deeper place)) :=
    (expressionList_clausal joins).bind fun _ => simpleFrom_clausal joins
  have ranged := @mayRange_clausal deeper joins place (mode = .forClause) _ list
  unfold simpleStatement
  simpa using ranged

omit joins in
private theorem functionStatement_clausal {start : Span} : Clausal front (functionStatement deeper start) := by
  refine expectKeyword.bind fun _ => kind_bind rejectNext fun kind plain => ?_
  split
  next isName =>
    cases isName
    exact bump_bind rfl (.of_barred signature_barred.bind)
  next isOpener =>
    cases isOpener
    cases plain
  next => exact rejectNext

private theorem statementKind_clausal {context : Context} {token : Token} (plain : token.kind.isPlain = true) :
    Clausal (some token.kind) (statementKind deeper context token) := by
  have expression : ∀ kind : StatementKind, Clausal none (do discard (deeper.expression .free); return kind) := fun _ =>
    (joins.expression .free).discard.bind fun _ => .done
  have simple : Clausal none (do return (← simpleStatement deeper .free .statement).kind) :=
    (simpleStatement_clausal joins).bind fun _ => .done
  have label : ∀ kind : StatementKind, Clausal none
      (do
        if (← peekKind 0) = some .identifier then bump
        return kind) := by
    refine fun kind => kind_bind .done fun found _ => ?_
    split
    next isName =>
      cases isName
      exact bump_bind rfl .done
    next => exact .done
  unfold statementKind
  generalize token.kind = kind at plain
  split
  next => exact declaration_clausal (constItem_clausal joins)
  next => exact declaration_clausal (varItem_clausal joins)
  next => exact declaration_clausal (typeItem_clausal joins)
  next =>
    split
    next => exact declaration_clausal importItem_clausal
    next => exact unexpected
  next =>
    split
    next => exact functionStatement_clausal
    next => exact simple.forget
  next => exact bump_bind rfl (expression .go)
  next => exact bump_bind rfl (expression .defer)
  next =>
    refine bump_bind rfl (kind_bind .done fun kind _ => ?_)
    split
    next => exact .done
    next => exact .done
    next => exact .done
    next => exact ((expressionList_clausal joins).discard.bind fun _ => .done).forget
  next => exact bump_bind rfl (label .break)
  next => exact bump_bind rfl (label .continue)
  next => exact bump_bind rfl (expectName.bind fun _ => .done)
  next => exact bump_bind rfl .done
  next => exact .of_barred (ifBody_barred joins).bind
  next => exact .of_barred (forStatement_barred joins)
  next => exact .of_barred (switchStatement_barred joins)
  next => exact .of_barred selectStatement_barred
  next => cases plain
  next => exact simple.forget

private theorem statementBody_clausal {context : Context} : Clausal none (statementBody deeper context) :=
  look_bind endOfInput fun _ plain => (statementKind_clausal joins plain).bind fun _ => spanFrom_bind fun _ => .done

end statements

private theorem levels_joinClauses (limit left : Nat) : JoinsClauses (levels limit left) := by
  have deep : ∀ {C : Coupling}, C.Lawful → C.Deep (levels limit left) (levels limit left) :=
    fun lawful => levels_deep lawful limit left
  induction left with
  | zero => exact ⟨deep, fun _ => .beyondLimit, fun _ => .beyondLimit, .beyondLimit, fun _ => .beyondLimit⟩
  | succ left ih =>
    have joins := ih fun lawful => levels_deep lawful limit left
    exact ⟨deep, fun _ => binary_clausal joins, fun _ => unaryBody_clausal joins, typeBody_clausal joins,
      fun _ => statementBody_clausal joins⟩

private theorem topLevelStatement_clausal (limit : Nat) : Clausal none (topLevelStatement limit) :=
  fun steps begun state =>
  (levels_joinClauses limit (limit - state.depth)).statement .topLevel steps begun state

end Grammar

/-- Where a text has no brackets, a statement that is read ends in front of the next semicolon. -/
theorem topLevelStatement_inClause {text : List Char} {steps : List LexStep} {limit number levels : Nat}
    {state after : ParseState} {statement : Statement} (scans : Scans text steps)
    (plain : ∀ kind ∈ LexStep.kinds steps, kind.isPlain = true) (room : (LexStep.tokens steps).length ≤ limit)
    (isText : state.stream.text = text) (atDepth : AtDepth 0 state) (stands : state.stream.Stands steps limit number)
    (ran : Grammar.topLevelStatement levels state = .ok statement after) :
    ∃ place, number ≤ place ∧ after.stream.Settled (LexStep.clearedTo number steps) limit place ∧
      ∀ earlier, number ≤ earlier → earlier < place → ∀ kind, (LexStep.kinds steps)[earlier]? = some kind →
      isSemicolon kind = false := by
  obtain ⟨_, collected⟩ := scans.collected
  have unbracketed : Unbracketed steps state :=
    ⟨plain, ⟨_, isText ▸ Lexer.Collects.of_steps collected⟩, stands.budget.symm ▸ room, atDepth⟩
  obtain ⟨begun, recalls⟩ := unbracketed.recalls
  obtain rfl : begun = number := recalls.consumed.symm.trans stands.consumed
  have within : InClause steps begun none state := ⟨unbracketed, begun, recalls, Nat.le_refl _, by omega, nofun⟩
  obtain ⟨place, recalls', further, joined, -⟩ :=
    (Grammar.topLevelStatement_clausal levels steps begun state statement after within ran).place
  have reads := topLevelStatement_ends levels stands
  rw [ran] at reads
  obtain ⟨-, reached, -, settled⟩ := reads
  obtain rfl : place = reached := recalls'.consumed.symm.trans settled.consumed
  exact ⟨place, further, settled, joined⟩

end GoPrompt
