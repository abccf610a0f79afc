import GoPrompt.Proofs.Calls.Parsers
import GoPrompt.Proofs.Runs.Operators

/-! The span of an operand. It starts behind what was consumed before the operand and stops where the last token of the
operand does, in every state that a parser comes to.

A chain of binary operators, as the flat loop reads it. -/

namespace GoPrompt

open Parse

/-- A property that no look and no token consumed takes away is kept, whatever fails. -/
private theorem Kept.ofSteps {holds : ParseState → Prop} (counts : ∀ {state : ParseState}, holds state → state.stream.Counts)
    (look : ∀ {state : ParseState} {index : Nat} {found : Option Token} {stream : TokenStream}, holds state →
      state.stream.peek index = (.ok found, stream) → holds { state with stream := stream })
    (take : ∀ {state : ParseState} {token : Token} {stream : TokenStream}, holds state →
      state.stream.next = (.ok (some token), stream) → holds { state with stream := stream, lastSpan := token.span }) :
    Kept holds fun _ _ => True where
  counts := counts
  look {state} index held := by
    have ends := onStream_leaves (fun stream => stream.peek index) state
    cases ran : peek index state with
    | ok found after =>
      rw [show onStream _ state = _ from ran] at ends
      have peeked := of_onStream_ok ran
      dsimp only at peeked ends
      rw [peeked] at ends
      have kept := look held peeked
      rwa [← ends] at kept
    | error => trivial
  take {state} held := by
    have ends := bump_leaves state
    cases ran : bump state with
    | ok _ after =>
      rw [ran] at ends
      obtain ⟨token, stream, took, rfl⟩ := ends
      exact take held took
    | error => trivial
  reject {α state} token expected _ := by
    cases ran : (unexpected token expected : Parse α) state with
    | ok value after => exact absurd ran (unexpected_ne_ok token expected value)
    | error => trivial
  ask _ _ := trivial
  stop {α state} limit _ := by
    cases ran : (Grammar.beyondLimit limit : Parse α) state with
    | ok value after => exact absurd ran (Coupling.beyondLimit_ne_ok limit state value after)
    | error => trivial

/-- The last token consumed starts and stops no earlier than a span does. -/
structure Past (span : Span) (state : ParseState) : Prop where
  reached : state.Reached
  start : span.start ≤ state.lastSpan.start
  stop : span.stop ≤ state.lastSpan.stop

theorem Past.take {span : Span} {state : ParseState} {token : Token} {stream : TokenStream} (past : Past span state)
    (took : state.stream.next = (.ok (some token), stream)) :
    Past span { state with stream := stream, lastSpan := token.span } := by
  have behind := past.reached.behind.next.2 token (congrArg Prod.fst took)
  have within := state.lastSpan.ordered
  have ordered := token.span.ordered
  have start := past.start
  have stop := past.stop
  refine ⟨past.reached.take took, ?_, ?_⟩ <;> dsimp only <;> omega

private theorem ParseState.Reached.of_peek {state : ParseState} {index : Nat} {found : Option Token}
    {stream : TokenStream} (reached : state.Reached) (peeked : state.stream.peek index = (.ok found, stream)) :
    ParseState.Reached { state with stream := stream } := by
  have next := reached.peek index
  rwa [peeked] at next

private theorem kept_past (span : Span) : Kept (Past span) fun _ _ => True :=
  .ofSteps (fun past => past.reached.counts) (fun past peeked => ⟨past.reached.of_peek peeked, past.start, past.stop⟩)
    fun past took => past.take took

/-- A token is still ahead, with nothing consumed, or it is the first of those that have been consumed. -/
structure Onset (first : Token) (whole : Nat) (state : ParseState) : Prop where
  reached : state.Reached
  cases : Past first.span state ∨ (state.remaining = whole ∧ state.stream.lookahead.head? = some first)

private theorem kept_onset (first : Token) (whole : Nat) : Kept (Onset first whole) fun _ _ => True := by
  refine .ofSteps (fun onset => onset.reached.counts) (fun {state index found stream} onset peeked =>
    ⟨onset.reached.of_peek peeked, ?_⟩)
    fun {state token stream} onset took => ⟨onset.reached.take took, .inl ?_⟩
  · refine onset.cases.imp (fun past => ⟨past.reached.of_peek peeked, past.start, past.stop⟩)
      fun ⟨same, front⟩ => ⟨?_, ?_⟩
    · obtain ⟨own, number, counted⟩ := onset.reached.counts
      have counted' := TokenStream.peek_counted index counted
      rw [peeked] at counted'
      rw [← same, ParseState.remaining, ParseState.remaining, counted.remaining, counted'.remaining]
    · obtain ⟨later, ahead⟩ := List.head?_eq_some_iff.mp front
      obtain ⟨more, longer⟩ := (TokenStream.peek_lookahead peeked).1
      rw [ahead] at longer
      show stream.lookahead.head? = some first
      rw [← longer]
      rfl
  · rcases onset.cases with past | ⟨-, front⟩
    · exact past.take took
    · obtain ⟨later, ahead⟩ := List.head?_eq_some_iff.mp front
      cases (TokenStream.next_given ahead).symm.trans took
      exact ⟨onset.reached.take took, Nat.le_refl _, Nat.le_refl _⟩

/-- An expression stands behind a place in the text, and stops where the last token consumed does. -/
structure Stretches (origin : Nat) (expression : Expression) (after : ParseState) : Prop where
  reached : after.Reached
  start : origin ≤ expression.span.start
  begins : expression.span.start ≤ after.lastSpan.start
  stop : expression.span.stop = after.lastSpan.stop

/-- A reader whose expressions stand where their tokens do, behind the last one consumed before. -/
def ReadsInPlace (program : Parse Expression) : Prop :=
  ∀ before expression after, before.Reached → program before = .ok expression after →
    Stretches before.lastSpan.stop expression after

namespace Grammar

open Coupling

variable {limit left : Nat} {place : Place} {before state after : ParseState} {expression : Expression}

private theorem levels_keeping {holds : ParseState → Prop} {fails : Failure → ParseState → Prop}
    (kept : Kept holds fails) (own limit left : Nat) :
    (keeping holds fails own).Deep (levels limit left) (levels limit left) :=
  levels_deep (keeping_lawful kept) limit left

private theorem peekOperator_looked {found : Option Operator} (looked : peekOperator 0 state = .ok found after) :
    ∃ token, peek 0 state = .ok token after ∧ found = token.bind (·.operator?) := by
  obtain ⟨token, ready, looked, ran⟩ := of_bind_ok looked
  cases ran
  exact ⟨token, looked, rfl⟩

private theorem atKeyword_looked {keyword : Keyword} {answer : Bool}
    (looked : atKeyword keyword state = .ok answer after) :
    ∃ token, peek 0 state = .ok token after := by
  obtain ⟨kind, middle, looked, ran⟩ := of_bind_ok looked
  obtain ⟨token, ready, looked, ran'⟩ := of_bind_ok looked
  cases ran'
  cases ran
  exact ⟨token, looked⟩

private theorem reached_of_peek {found : Option Token} (reached : before.Reached)
    (looked : peek 0 before = .ok found after) :
    after.Reached ∧ after.lastSpan = before.lastSpan ∧ after.stream.lookahead[0]? = found := by
  have ends := onStream_leaves (fun stream => stream.peek 0) before
  rw [show onStream _ before = _ from looked] at ends
  have there := (TokenStream.peek_lookahead (of_onStream_ok looked)).2
  refine ⟨?_, ?_, there.symm⟩
  · exact ends ▸ reached.peek 0
  · rw [ends]

private theorem suffix_past {shape : Shape} {operator : Operator} {found : Option Shape} {ready : ParseState}
    (reached : state.Reached) (looked : peekOperator 0 state = .ok (some operator) ready)
    (ran : suffix (levels limit left) place shape operator ready = .ok found after) : Past state.lastSpan after := by
  obtain ⟨token, looked, isOperator⟩ := peekOperator_looked looked
  obtain ⟨readied, same, front⟩ := reached_of_peek reached looked
  obtain ⟨token, rfl, isToken⟩ := Option.bind_eq_some_iff.mp isOperator.symm
  obtain ⟨own, number, counted⟩ := readied.counts
  have kept := kept_past state.lastSpan
  have held : Past state.lastSpan ready := ⟨readied, Nat.le_of_eq (by rw [same]), Nat.le_of_eq (by rw [same])⟩
  have kind : token.kind = .operator operator := by
    unfold Token.operator? TokenKind.operator? at isToken
    split at isToken
    next isKind => rw [isKind, Option.some.inj isToken]
    next => cases isToken
  have outcome := keeping_outcome
    (@suffix_coupled _ (keeping_lawful kept) _ _ (levels_keeping kept own limit left) number place shape operator)
    ⟨some token, some token, .same _, congrArg some kind, number, Nat.le_refl _, ⟨rfl, rfl⟩, ⟨held, counted⟩, front⟩
  rw [ran] at outcome
  dsimp only at outcome
  split at outcome
  next => exact outcome.choose_spec.2.2.1
  next => exact outcome.choose_spec.2.2.1

private theorem suffix_none {shape : Shape} {operator : Operator}
    (ran : suffix (levels limit left) place shape operator state = .ok none after) :
    after = state := by
  unfold suffix at ran
  split at ran
  next =>
    obtain ⟨_, _, -, ran⟩ := of_bind_ok ran
    obtain ⟨_, _, -, ran⟩ := of_bind_ok ran
    cases ran
  next =>
    obtain ⟨_, _, -, ran⟩ := of_bind_ok ran
    obtain ⟨_, _, -, ran⟩ := of_bind_ok ran
    obtain ⟨_, _, -, ran⟩ := of_bind_ok ran
    cases ran
  next =>
    obtain ⟨_, _, -, ran⟩ := of_bind_ok ran
    obtain ⟨_, _, -, ran⟩ := of_bind_ok ran
    obtain ⟨_, _, -, ran⟩ := of_bind_ok ran
    cases ran
  next =>
    split at ran
    next =>
      obtain ⟨_, _, -, ran⟩ := of_bind_ok ran
      cases ran
    next =>
      cases ran
      rfl
  next =>
    cases ran
    rfl

private theorem suffixes_stretches {origin : Nat} {operand : Expression} (stretches : Stretches origin operand state)
    (ran : suffixes (levels limit left) place operand state = .ok expression after) :
    Stretches origin expression after := by
  refine @of_iterate _ _ _ (Stretches origin) (Stretches origin) ?_ ?_ _ _ _ _ stretches ran
  · intro value state next after stretches ran
    obtain ⟨found, ready, looked, ran⟩ := of_bind_ok ran
    cases found with
    | none => cases ran
    | some operator =>
      obtain ⟨found, ended, suffixed, ran⟩ := of_bind_ok ran
      cases found with
      | none => cases ran
      | some shape =>
        cases ran
        have past := suffix_past stretches.reached looked suffixed
        have begins := stretches.begins
        have start := stretches.start
        have stop := stretches.stop
        have first := past.start
        have last := past.stop
        refine ⟨past.reached, ?_, ?_, ?_⟩ <;> simp only [Span.merge] <;> omega
  · intro value state result after stretches ran
    obtain ⟨found, ready, looked, ran⟩ := of_bind_ok ran
    have same : Stretches origin value ready := by
      obtain ⟨token, looked, -⟩ := peekOperator_looked looked
      obtain ⟨readied, same, -⟩ := reached_of_peek stretches.reached looked
      exact ⟨readied, stretches.start, same ▸ stretches.begins, same ▸ stretches.stop⟩
    cases found with
    | none =>
      cases ran
      exact same
    | some operator =>
      obtain ⟨found, ended, suffixed, ran⟩ := of_bind_ok ran
      cases found with
      | some shape => cases ran
      | none =>
        cases ran
        exact suffix_none suffixed ▸ same

theorem operandShape_consumes (limit left : Nat) (token : Token) :
    Consumes (operandShape (levels limit left) token) := by
  have measures := Metered.operandShape_consumes (Metered.levels_measure limit left) token
  rw [Marked.levels_erased] at measures
  exact measures.advances

private theorem start_of_front {token : Token} (reached : state.Reached)
    (front : state.stream.lookahead[0]? = some token) :
    state.lastSpan.stop ≤ token.span.start := by
  obtain ⟨later, ahead⟩ := List.head?_eq_some_iff.mp (List.head?_eq_getElem?.trans front)
  have behind := reached.behind
  unfold TokenStream.Behind at behind
  rw [ahead] at behind
  exact behind.1

private theorem operand_stretches (reached : before.Reached)
    (ran : operand (levels limit left) before = .ok expression after) :
    Stretches before.lastSpan.stop expression after := by
  obtain ⟨found, begun, looked, ran⟩ := of_bind_ok ran
  obtain ⟨readied, same, front⟩ := reached_of_peek reached looked
  cases found with
  | none => cases ran
  | some token =>
    obtain ⟨shape, ended, shaped, ran⟩ := of_bind_ok ran
    cases ran
    obtain ⟨own, number, counted⟩ := readied.counts
    have kept := kept_onset token begun.remaining
    have onset : Onset token begun.remaining begun := ⟨readied, .inr ⟨rfl, List.head?_eq_getElem?.trans front⟩⟩
    have outcome := keeping_outcome
      (@operandShape_coupled _ (keeping_lawful kept) _ _ (levels_keeping kept own limit left) number _ _ (.same _))
      ⟨number, Nat.le_refl _, ⟨rfl, rfl⟩, ⟨onset, counted⟩, front⟩
    have consumed := operandShape_consumes limit left token begun readied.counts
    rw [shaped] at outcome consumed
    obtain ⟨_, -, -, ended, -⟩ := outcome
    have past := ended.cases.resolve_right fun still => Nat.ne_of_lt (consumed.moved trivial) still.1
    have begins := same ▸ start_of_front readied front
    have first := past.start
    have last := past.stop
    refine ⟨past.reached, ?_, ?_, ?_⟩ <;> simp only [Span.merge] <;> omega

private theorem signed_stretches {origin : Nat} {token : Token} {operand : Expression}
    (begins : origin ≤ token.span.start) (stretches : Stretches token.span.stop operand after) :
    Stretches origin ⟨.other, token.span.merge operand.span⟩ after := by
  have ordered := token.span.ordered
  have within := operand.span.ordered
  have start := stretches.start
  have first := stretches.begins
  have last := stretches.stop
  refine ⟨stretches.reached, ?_, ?_, ?_⟩ <;> simp only [Span.merge] <;> omega

private theorem channel_stretches {origin : Nat} {token : Token} (begins : origin ≤ token.span.start)
    (past : Past token.span after) :
    Stretches origin ⟨.other, token.span.merge after.lastSpan⟩ after := by
  have first := past.start
  have last := past.stop
  refine ⟨past.reached, ?_, ?_, ?_⟩ <;> simp only [Span.merge] <;> omega

/-- A unary expression stands where its tokens do, at every level. -/
private theorem unary_inPlace (limit left : Nat) (place : Place) : ReadsInPlace ((levels limit left).unary place) := by
  induction left with
  | zero => exact fun before expression after _ ran => absurd ran (beyondLimit_ne_ok limit before expression after)
  | succ left ih =>
    intro before expression after reached ran
    obtain ⟨found, begun, looked, ran'⟩ := of_bind_ok (show unaryBody (levels limit left) place before = _ from ran)
    obtain ⟨readied, same, front⟩ := reached_of_peek reached looked
    cases found with
    | none => cases ran'
    | some token =>
      have begins := same ▸ start_of_front readied front
      obtain ⟨later, ahead⟩ := List.head?_eq_some_iff.mp (List.head?_eq_getElem?.trans front)
      have bumped := bump_some (TokenStream.next_given ahead)
      have taken := readied.take (TokenStream.next_given ahead)
      dsimp only at ran'
      split at ran'
      next =>
        rw [bind_ok bumped] at ran'
        obtain ⟨operand, _, read, ran'⟩ := of_bind_ok ran'
        cases ran'
        exact signed_stretches begins (ih _ _ _ taken read)
      next =>
        split at ran'
        next =>
          rw [bind_ok bumped] at ran'
          obtain ⟨channel, asked, looked, ran'⟩ := of_bind_ok ran'
          obtain ⟨_, looked⟩ := atKeyword_looked looked
          split at ran'
          next =>
            obtain ⟨_, ended, took, ran'⟩ := of_bind_ok ran'
            obtain ⟨_, typed, read, ran'⟩ := of_bind_ok ran'
            have kept := kept_past token.span
            have past : Past token.span asked := by
              have held := kept.look 0 ⟨taken, Nat.le_refl _, Nat.le_refl _⟩
              rwa [looked] at held
            have past : Past token.span ended := by
              have held := kept.take past
              rwa [took] at held
            have past : Past token.span typed := by
              have held := kept.leaves (discard (levels limit left).type)
                (fun own => (levels_keeping kept own limit left).type.discard) past
              rwa [read] at held
            exact suffixes_stretches (channel_stretches begins past) ran'
          next =>
            obtain ⟨operand, _, read, ran'⟩ := of_bind_ok ran'
            cases ran'
            obtain ⟨asked, same, -⟩ := reached_of_peek taken looked
            have stretches := ih _ _ _ asked read
            rw [same] at stretches
            exact signed_stretches begins stretches
        next =>
          obtain ⟨operand, ended, read, suffixed⟩ := of_bind_ok ran'
          exact suffixes_stretches (same ▸ operand_stretches readied read) suffixed

end Grammar

namespace Grammar

/-- The operands of a chain of binary operators, in the order of the text. -/
structure Operands where
  first : Expression
  later : List Expression

namespace Operands

def add (operands : Operands) (operand : Expression) : Operands :=
  { operands with later := operands.later ++ [operand] }

def last (operands : Operands) : Expression := operands.later.getLast?.getD operands.first

/-- The expression that a chain is, from its first operand to its last one. -/
def whole (operands : Operands) : Expression :=
  if operands.later = [] then operands.first else ⟨.other, operands.first.span.merge operands.last.span⟩

private theorem last_add (operands : Operands) (operand : Expression) : (operands.add operand).last = operand := by
  simp only [last, add, List.getLast?_concat, Option.getD_some]

private theorem whole_add (operands : Operands) (operand : Expression) :
    (operands.add operand).whole = join operands.first operand := by
  have nonempty : (operands.add operand).later ≠ [] := List.append_ne_nil_of_right_ne_nil _ (List.cons_ne_nil _ _)
  rw [whole, last_add, if_neg nonempty]
  rfl

/-- The operands stand one behind the other, up to the last token consumed. -/
structure InOrder (operands : Operands) (state : ParseState) : Prop where
  reached : state.Reached
  start : operands.first.span.start ≤ operands.last.span.start
  stop : operands.first.span.stop ≤ operands.last.span.stop
  ends : operands.last.span.stop = state.lastSpan.stop

variable {operands : Operands} {operand : Expression} {state : ParseState}

theorem InOrder.add (inOrder : operands.InOrder state) {origin : Nat} (further : state.lastSpan.stop ≤ origin)
    {after : ParseState} (stretches : Stretches origin operand after) : (operands.add operand).InOrder after := by
  have first := operands.first.span.ordered
  have last := operands.last.span.ordered
  have next := operand.span.ordered
  have start := inOrder.start
  have stop := inOrder.stop
  have ends := inOrder.ends
  have behind := stretches.start
  refine ⟨stretches.reached, ?_, ?_, ?_⟩ <;> rw [last_add]
  · show operands.first.span.start ≤ operand.span.start
    omega
  · show operands.first.span.stop ≤ operand.span.stop
    omega
  · exact stretches.stop

theorem InOrder.span (inOrder : operands.InOrder state) :
    operands.whole.span.start = operands.first.span.start ∧ operands.whole.span.stop = operands.last.span.stop := by
  have start := inOrder.start
  have stop := inOrder.stop
  unfold whole
  split
  next alone => exact ⟨rfl, by rw [last, alone]; rfl⟩
  next => exact ⟨Nat.min_eq_left start, Nat.max_eq_right stop⟩

private theorem InOrder.join_whole (inOrder : operands.InOrder state)
    (further : operands.last.span.stop ≤ operand.span.start) :
    join operands.whole operand = (operands.add operand).whole := by
  rw [whole_add]
  unfold whole
  split
  next => rfl
  next =>
    have start := inOrder.start
    have last := operands.last.span.ordered
    have next := operand.span.ordered
    simp only [join, Span.merge, Expression.mk.injEq, Span.mk.injEq, true_and]
    omega

end Operands

section

variable {unary : Parse Expression}

/-- Reads one unary expression, and then one more behind each operator that is a binary one. -/
def operatorChain (unary : Parse Expression) : Parse Operands := do
  let first ← unary
  iterate (fun (operands : Operands) => do
    match ← peekOperator 0 with
    | none => return .done operands
    | some operator =>
      if operator.precedence = 0 then return .done operands
      else
        bump
        return .again (operands.add (← unary))) ⟨first, []⟩

/-- Reads on behind the operands that have been read. -/
def chainTail (unary : Parse Expression) : Operands → Parse Operands :=
  operatorLoop (fun operator => decide (operator.precedence = 0)) (fun _ => unary) Operands.add

private theorem operatorChain_eq : operatorChain unary = unary >>= fun first => chainTail unary ⟨first, []⟩ := by
  refine bind_congr fun first => congrArg (fun turn => iterate turn (⟨first, []⟩ : Operands))
    (funext fun operands => bind_congr fun found => ?_)
  cases found with
  | none => rfl
  | some operator =>
    dsimp only
    by_cases ends : operator.precedence = 0
    · rw [if_pos ends, if_pos (decide_eq_true ends)]
    · rw [if_neg ends, if_neg (mt of_decide_eq_true ends)]

variable (inPlace : ReadsInPlace unary)
include inPlace

/-- Behind an operator the next operand stands behind those read before, and so does whatever is left. -/
theorem Operands.InOrder.next {operands : Operands} {state ready middle after : ParseState} {operator : Option Operator}
    {operand : Expression} (inOrder : operands.InOrder state) (looked : peekOperator 0 state = .ok operator ready)
    (bumped : bump ready = .ok () middle) (read : unary middle = .ok operand after) :
    operands.last.span.stop ≤ operand.span.start ∧ (operands.add operand).InOrder after := by
  obtain ⟨token, looked, -⟩ := peekOperator_looked looked
  obtain ⟨readied, same, -⟩ := reached_of_peek inOrder.reached looked
  have ends := bump_leaves ready
  rw [bumped] at ends
  obtain ⟨token, stream, took, rfl⟩ := ends
  have stretches := inPlace _ _ _ (readied.take took) read
  have begins := (readied.behind.next.2 token (congrArg Prod.fst took)).1
  rw [same] at begins
  have further := Nat.le_trans begins token.span.ordered
  refine ⟨?_, inOrder.add further stretches⟩
  rw [inOrder.ends]
  exact Nat.le_trans further stretches.start

private theorem chainTail_inOrder {operands whole : Operands} {state after : ParseState}
    (inOrder : operands.InOrder state) (ran : chainTail unary operands state = .ok whole after) :
    whole.InOrder after := by
  refine @of_iterate _ _ _ Operands.InOrder Operands.InOrder ?_ ?_ _ _ _ _ inOrder ran
  · intro operands state next after inOrder ran
    obtain ⟨found, ready, looked, ran⟩ := of_bind_ok ran
    cases found with
    | none => cases ran
    | some operator =>
      dsimp only at ran
      split at ran
      next => cases ran
      next =>
        obtain ⟨_, middle, bumped, ran⟩ := of_bind_ok ran
        obtain ⟨operand, _, read, ran⟩ := of_bind_ok ran
        cases ran
        exact (inOrder.next inPlace looked bumped read).2
  · intro operands state result after inOrder ran
    obtain ⟨found, ready, looked, ran⟩ := of_bind_ok ran
    have same : operands.InOrder ready := by
      obtain ⟨token, looked, -⟩ := peekOperator_looked looked
      obtain ⟨readied, same, -⟩ := reached_of_peek inOrder.reached looked
      exact ⟨readied, inOrder.start, inOrder.stop, same ▸ inOrder.ends⟩
    cases found with
    | none =>
      cases ran
      exact same
    | some operator =>
      dsimp only at ran
      split at ran
      next =>
        cases ran
        exact same
      next =>
        obtain ⟨_, middle, -, ran⟩ := of_bind_ok ran
        obtain ⟨operand, _, -, ran⟩ := of_bind_ok ran
        cases ran

variable (proceeds : Proceeds unary)
include proceeds

/-- The flat loop puts together the whole that its operands are. -/
private theorem flatTail_chain {operands : Operands} {state : ParseState} (inOrder : operands.InOrder state) :
    flatTail unary 1 operands.whole state = (Operands.whole <$> chainTail unary operands) state := by
  have counts := inOrder.reached.counts
  cases looked : peekOperator 0 state with
  | error failure after =>
    have fails : flatTail unary 1 operands.whole state = .error failure after :=
      (operatorLoop_eq (fun _ => proceeds) counts).trans (bind_error looked)
    have fails' : chainTail unary operands state = .error failure after :=
      (operatorLoop_eq (fun _ => proceeds) counts).trans (bind_error looked)
    rw [fails, map_error fails']
  | ok found ready =>
    have readied := proceeds_peekOperator 0 state counts
    rw [looked] at readied
    have flat : flatTail unary 1 operands.whole state =
        operatorTurn (looser 1) (fun _ => unary) join operands.whole found ready :=
      operatorLoop_looked (fun _ => proceeds) counts looked
    have chain : (Operands.whole <$> chainTail unary operands) state = (Operands.whole <$>
        operatorTurn (fun operator => decide (operator.precedence = 0))
          (fun _ => unary) Operands.add operands found) ready :=
      bind_run_congr (operatorLoop_looked (fun _ => proceeds) counts looked)
    rw [flat, chain]
    cases found with
    | none => rfl
    | some operator =>
      have same : looser 1 operator = decide (operator.precedence = 0) := by
        rw [looser, decide_eq_decide]
        omega
      simp only [operatorTurn, same]
      split
      next => rfl
      next =>
        simp only [map_bind]
        refine behindOperator_congr proceeds readied.counts fun middle operand after bumped read _ fewer => ?_
        obtain ⟨further, inOrder'⟩ := inOrder.next inPlace looked bumped read
        have fewer : after.remaining < state.remaining := Nat.lt_of_lt_of_le fewer readied.remaining
        rw [inOrder.join_whole further]
        exact flatTail_chain inOrder'
termination_by state.remaining

end

private theorem unary_proceeds (limit left : Nat) (place : Place) : Proceeds ((levels limit left).unary place) := by
  have measures := (Metered.levels_measure limit left).unary place
  rw [Marked.levels_erased] at measures
  exact measures.advances.weaken fun _ => False.elim

/-- Precedence climbing reads what the flat loop reads, from every state that a parser comes to and with every number of
levels left: it succeeds and fails alike and leaves the same state. Where it succeeds, the expression reaches from the
first operand to the last one, and it has the shape of the first operand unless an operator was consumed. -/
theorem binary_flat (limit left : Nat) (place : Place) {state : ParseState} (reached : state.Reached) :
    binary (levels limit left) place 1 state =
    (Operands.whole <$> operatorChain ((levels limit left).unary place)) state ∧
      ∀ operands after, operatorChain ((levels limit left).unary place) state = .ok operands after →
        operands.whole.span.start = operands.first.span.start ∧ operands.whole.span.stop = operands.last.span.stop ∧
          operands.whole.shape = if operands.later = [] then operands.first.shape else .other := by
  have inPlace := unary_inPlace limit left place
  have proceeds := unary_proceeds limit left place
  have single : ∀ first after, (levels limit left).unary place state = .ok first after →
      Operands.InOrder ⟨first, []⟩ after := by
    intro first after read
    have stretches := inPlace _ _ _ reached read
    exact ⟨stretches.reached, Nat.le_refl _, Nat.le_refl _, stretches.stop⟩
  rw [operatorChain_eq]
  refine ⟨?_, fun operands after ran => ?_⟩
  · rw [binary, map_bind]
    cases read : (levels limit left).unary place state with
    | error failure after => rw [bind_error read, bind_error read]
    | ok first after =>
      have inOrder := single first after read
      rw [bind_ok read, bind_ok read, binaryTail_flat proceeds 1 first inOrder.reached.counts]
      exact flatTail_chain inPlace proceeds inOrder
  · obtain ⟨first, middle, read, ran⟩ := of_bind_ok ran
    have inOrder := chainTail_inOrder inPlace (single first middle read) ran
    refine ⟨inOrder.span.1, inOrder.span.2, ?_⟩
    unfold Operands.whole
    split <;> rfl

/-- Both read three operands, although the climbing nests the second operator. -/
theorem binary_flat_sum : ∃ operands after,
    operatorChain ((levels 8 8).unary .free) { stream := .ofText "a + b * c".toList 9 } = .ok operands after ∧
      operands.later.length = 2 ∧ binary (levels 8 8) .free 1 { stream := .ofText "a + b * c".toList 9 } =
      .ok operands.whole after ∧
      operands.whole.shape = .other ∧ operands.whole.span.stop = operands.last.span.stop := by
  have same := binary_flat 8 8 .free (.ofText "a + b * c".toList 9)
  have computed : (match operatorChain ((levels 8 8).unary .free) { stream := .ofText "a + b * c".toList 9 } with
      | .ok operands _ => decide (operands.later.length = 2)
      | .error _ _ => false) = true := by decide +kernel
  cases ran : operatorChain ((levels 8 8).unary .free) { stream := .ofText "a + b * c".toList 9 } with
  | error failure after =>
    rw [ran] at computed
    cases computed
  | ok operands after =>
    rw [ran] at computed
    have two := of_decide_eq_true computed
    obtain ⟨-, stop, shape⟩ := same.2 operands after ran
    refine ⟨operands, after, rfl, two, same.1.trans (map_ok ran), ?_, stop⟩
    rw [shape, if_neg (List.ne_nil_of_length_pos (two ▸ Nat.zero_lt_two))]

end Grammar

end GoPrompt
