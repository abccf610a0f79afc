import GoPrompt.Proofs.Calls.Parsers
import GoPrompt.Proofs.Runs.Invariants
import GoPrompt.Proofs.Stream.Steps

/-! Precedence climbing reads what a flat loop reads. The loop takes one unary expression behind each operator and does
not look at how tightly the operators bind; climbing takes the same operands in the same order, and only nests its calls
by their precedence. -/

namespace GoPrompt

open Parse

namespace TokenStream

/-- Looking once more finds the same and changes nothing. -/
private theorem peek_again {stream after : TokenStream} {found : Option Token}
    (looked : stream.peek 0 = (.ok found, after)) :
    after.peek 0 = (.ok found, after) := by
  obtain ⟨-, there⟩ := peek_lookahead looked
  cases found with
  | some token => exact peek_front (List.head?_eq_getElem?.trans there.symm)
  | none =>
    have exhausted := peek_exhausted looked
    have nothing : after.lookahead = [] := List.head?_eq_none_iff.mp (List.head?_eq_getElem?.trans there.symm)
    have noted : after.noteEnd = after := by
      cases filled : stream.fillTo 0 with
      | mk result ready =>
        cases result with
        | error error => cases (serve_unfilled (.peek 0) (Nat.zero_le _) filled).symm.trans looked
        | ok =>
          obtain ⟨-, rfl⟩ := Prod.mk.inj ((serve_filled (.peek 0) (Nat.zero_le _) filled).symm.trans looked)
          by_cases empty : ready.lookahead.isEmpty
          · simp only [settle, empty, and_self, ↓reduceIte]
            rfl
          · simp only [settle, empty, and_false, ↓reduceIte, Bool.false_eq_true] at nothing
            exact absurd (List.isEmpty_iff.mpr nothing) empty
    have filled : after.fillTo 0 = (.ok (), after) := by
      simp only [fillTo, nothing, List.length_nil, fill, exhausted, ↓reduceIte]
    have again := serve_filled (.peek 0) (Nat.zero_le _) filled
    simp only [settle, nothing, noted, List.isEmpty_nil, and_self, ↓reduceIte] at again
    exact again

end TokenStream

namespace Parse

variable {α β : Type} {turn : α → Parse (Turn α β)} {moves : β → Prop}

/-- What a repetition does behind a turn. -/
def goOn (turn : α → Parse (Turn α β)) : Turn α β → Parse β
  | .again next => iterate turn next
  | .done result => pure result

/-- A repetition whose turns consume tokens is its first turn and what comes behind it. -/
theorem iterate_turn {value : α} (advances : Advances (Turn.Moves moves) (turn value)) {state : ParseState}
    (counts : state.stream.Counts) : iterate turn value state = (turn value >>= goOn turn) state := by
  have reached := advances state counts
  cases ran : turn value state with
  | error failure after => rw [iterate_error ran, bind_error ran]
  | ok answer after =>
    rw [ran] at reached
    rw [bind_ok ran]
    cases answer with
    | done result => exact iterate_done ran
    | again next => exact iterate_again ran (reached.moved trivial)

theorem of_iterate {holds : α → ParseState → Prop} {ends : β → ParseState → Prop}
    (again : ∀ {value state next after}, holds value state → turn value state = .ok (.again next) after → holds next after)
    (done : ∀ {value state result after}, holds value state → turn value state = .ok (.done result) after → ends result after)
    {value : α} {state after : ParseState} {result : β} (start : holds value state)
    (ran : iterate turn value state = .ok result after) : ends result after := by
  cases turned : turn value state with
  | error failure reached =>
    rw [iterate_error turned] at ran
    cases ran
  | ok answer reached =>
    cases answer with
    | done found =>
      rw [iterate_done turned] at ran
      cases ran
      exact done start turned
    | again next =>
      by_cases progress : reached.remaining < state.remaining
      · rw [iterate_again turned progress] at ran
        exact of_iterate again done (again start turned) ran
      · rw [iterate_stuck turned progress] at ran
        cases ran
termination_by state.remaining

private theorem peekOperator_again {state after : ParseState} {found : Option Operator}
    (looked : peekOperator 0 state = .ok found after) :
    peekOperator 0 after = .ok found after := by
  obtain ⟨token, ready, looked, ran⟩ := of_bind_ok looked
  cases ran
  exact bind_ok (onStream_ok (TokenStream.peek_again (of_onStream_ok looked)))

theorem bind_run_congr {program other : Parse α} {next : α → Parse β} {state reached : ParseState}
    (same : program state = other reached) : (program >>= next) state = (other >>= next) reached := by
  show EStateM.bind program next state = EStateM.bind other next reached
  simp only [EStateM.bind, same]

end Parse

namespace Span

private theorem merge_assoc (first second third : Span) :
    (first.merge second).merge third = first.merge (second.merge third) := by
  simp only [merge, Nat.min_assoc, Nat.max_assoc]

end Span

namespace Grammar

section loop

variable {α : Type}

/-- Reads what stands behind the next operator, if there is one that does not end the loop. -/
def readBehind (ends : Operator → Bool) (read : Operator → Parse Expression) (extend : α → Expression → α) (value : α) :
    Parse (Turn α α) := do
  match ← peekOperator 0 with
  | none => return .done value
  | some operator =>
    if ends operator then return .done value
    else
      bump
      let right ← read operator
      return .again (extend value right)

/-- Reads what stands behind the next operators, one after the other, up to one that ends the loop. -/
def operatorLoop (ends : Operator → Bool) (read : Operator → Parse Expression) (extend : α → Expression → α) :
    α → Parse α :=
  iterate (readBehind ends read extend)

variable {ends : Operator → Bool} {read : Operator → Parse Expression} {extend : α → Expression → α}

/-- What the loop does with the next operator. -/
def operatorTurn (ends : Operator → Bool) (read : Operator → Parse Expression) (extend : α → Expression → α) (value : α) :
    Option Operator → Parse α
  | none => pure value
  | some operator =>
    if ends operator then pure value
    else do
      bump
      let right ← read operator
      operatorLoop ends read extend (extend value right)

variable (proceeds : ∀ operator, Proceeds (read operator)) {value : α} {state after : ParseState}
include proceeds

private theorem readBehind_advances (value : α) :
    Advances (Turn.Moves fun _ => False) (readBehind ends read extend value) := by
  have done : Advances (Turn.Moves fun _ => False) (pure (.done value) : Parse (Turn α α)) := advances_pure id
  refine (proceeds_peekOperator 0).bind fun found => ?_
  cases found with
  | none => exact done
  | some operator =>
    dsimp only
    split
    next => exact done
    next => exact consumes_bump.bind fun _ => (proceeds operator).bind fun _ => proceeds_pure _

private theorem operatorLoop_proceeds (value : α) : Proceeds (operatorLoop ends read extend value) :=
  advances_iterate (readBehind_advances proceeds) value

theorem operatorLoop_eq (counts : state.stream.Counts) :
    operatorLoop ends read extend value state = (peekOperator 0 >>= operatorTurn ends read extend value) state := by
  unfold operatorLoop
  rw [iterate_turn (readBehind_advances proceeds value) counts, readBehind, bind_assoc]
  refine congrFun (bind_congr fun found => ?_) state
  cases found with
  | none => rfl
  | some operator =>
    dsimp only [operatorTurn]
    split
    next => rfl
    next =>
      simp only [bind_assoc]
      rfl

/-- Where the next operator has been looked at, the loop goes on as from in front of the look. -/
theorem operatorLoop_looked (counts : state.stream.Counts) {found : Option Operator}
    (looked : peekOperator 0 state = .ok found after) :
    operatorLoop ends read extend value state = operatorTurn ends read extend value found after := by
  rw [operatorLoop_eq proceeds counts, bind_ok looked]

private theorem operatorLoop_again (counts : state.stream.Counts) {found : Option Operator}
    (looked : peekOperator 0 state = .ok found after) :
    operatorLoop ends read extend value after = operatorLoop ends read extend value state := by
  have reached := proceeds_peekOperator 0 state counts
  rw [looked] at reached
  rw [operatorLoop_looked proceeds counts looked,
    operatorLoop_looked proceeds reached.counts (peekOperator_again looked)]

end loop

section flat

/-- Whether an operator is left to the loops further out. -/
def looser (tightness : Nat) (operator : Operator) : Bool :=
  decide (operator.precedence = 0 ∨ operator.precedence < tightness)

/-- Two operands as one. -/
def join (left right : Expression) : Expression := ⟨.other, left.span.merge right.span⟩

private theorem join_assoc (left middle right : Expression) :
    join (join left middle) right = join left (join middle right) := by
  simp only [join, Span.merge_assoc]

/-- The loop over the operators that bind at least as tightly as `tightness`, with one operand behind each. -/
def flatTail (unary : Parse Expression) (tightness : Nat) : Expression → Parse Expression :=
  operatorLoop (looser tightness) (fun _ => unary) join

variable {unary : Parse Expression} (proceeds : Proceeds unary)
include proceeds

private theorem flatTail_proceeds (tightness : Nat) (left : Expression) : Proceeds (flatTail unary tightness left) :=
  operatorLoop_proceeds (fun _ => proceeds) left

/-- What is done behind an operator and an operand only has to agree on fewer tokens. -/
theorem behindOperator_congr {β : Type} {next other : Expression → Parse β} {state : ParseState} (counts : state.stream.Counts)
    (same : ∀ middle operand (after : ParseState), bump state = .ok () middle → unary middle = .ok operand after →
      after.stream.Counts → after.remaining < state.remaining → next operand after = other operand after) :
    (do bump; next (← unary) : Parse β) state = (do bump; other (← unary) : Parse β) state := by
  have taken := consumes_bump state counts
  cases bumped : bump state with
  | error failure stopped => rw [bind_error bumped, bind_error bumped]
  | ok _ middle =>
    rw [bumped] at taken
    rw [bind_ok bumped, bind_ok bumped]
    have read := proceeds middle taken.counts
    cases ran : unary middle with
    | error failure stopped => rw [bind_error ran, bind_error ran]
    | ok operand after =>
      rw [ran] at read
      rw [bind_ok ran, bind_ok ran]
      exact same middle operand after bumped ran read.counts (Nat.lt_of_le_of_lt read.remaining (taken.moved trivial))

/-- A loop over the operands of tighter operators can be left out in front of a loop over looser ones: what the tighter
loop puts together is one operand of the other, and it does not matter how a chain is put together. -/
private theorem flatTail_fuse {loose tight : Nat} (inside : loose ≤ tight) (left operand : Expression)
    {state : ParseState} (counts : state.stream.Counts) :
    (flatTail unary tight operand >>= fun right => flatTail unary loose (join left right)) state =
      flatTail unary loose (join left operand) state := by
  cases looked : peekOperator 0 state with
  | error failure after =>
    have fails : ∀ (tightness : Nat) (value : Expression),
        flatTail unary tightness value state = .error failure after :=
      fun _ _ => (operatorLoop_eq (fun _ => proceeds) counts).trans (bind_error looked)
    rw [bind_error (fails tight operand), fails loose]
  | ok found after =>
    have ready := proceeds_peekOperator 0 state counts
    rw [looked] at ready
    have turns : ∀ (tightness : Nat) (value : Expression), flatTail unary tightness value state =
        operatorTurn (looser tightness) (fun _ => unary) join value found after :=
      fun _ _ => operatorLoop_looked (fun _ => proceeds) counts looked
    -- Where the tighter loop ends, the looser one sees the same operator.
    have ends (isTurn : operatorTurn (looser tight) (fun _ => unary) join operand found = pure operand) :
        (flatTail unary tight operand >>= fun right => flatTail unary loose (join left right)) state =
          flatTail unary loose (join left operand) state := by
      rw [bind_ok ((turns tight operand).trans (congrFun isTurn after))]
      exact operatorLoop_again (fun _ => proceeds) counts looked
    cases found with
    | none => exact ends rfl
    | some operator =>
      by_cases isLooser : looser tight operator = true
      · exact ends (if_pos isLooser)
      have isTighter : ¬ looser loose operator = true := by
        simp only [looser, decide_eq_true_eq] at isLooser ⊢
        omega
      have goesOn : ∀ (tightness : Nat) (value : Expression), ¬ looser tightness operator = true →
          flatTail unary tightness value state =
            (do bump; let right ← unary; flatTail unary tightness (join value right) : Parse Expression) after :=
        fun tightness value binds => (turns tightness value).trans (congrFun (if_neg binds) after)
      rw [goesOn loose _ isTighter, bind_run_congr (goesOn tight operand isLooser)]
      simp only [bind_assoc]
      refine behindOperator_congr proceeds ready.counts fun _ right reached _ _ counts fewer => ?_
      have fewer : reached.remaining < state.remaining := Nat.lt_of_lt_of_le fewer ready.remaining
      rw [join_assoc]
      exact flatTail_fuse inside left (join operand right) counts
termination_by state.remaining

end flat

section climbing

variable {deeper : Deeper} {place : Place}

private theorem binaryTail_loop (tightness : Nat) :
    binaryTail deeper place tightness = operatorLoop (looser tightness)
      (fun operator => do binaryTail deeper place (operator.precedence + 1) (← deeper.unary place)) join := by
  funext left
  refine (binaryTail.eq_def deeper place tightness left).trans ?_
  refine congrArg (fun turn => iterate turn left) (funext fun left => bind_congr fun found => ?_)
  cases found with
  | none => rfl
  | some operator =>
    dsimp only
    by_cases binds : operator.precedence = 0 ∨ operator.precedence < tightness
    · have isLooser : looser tightness operator = true := decide_eq_true binds
      rw [dif_pos binds, if_pos isLooser]
    · have isTighter : ¬ looser tightness operator = true := mt of_decide_eq_true binds
      rw [dif_neg binds, if_neg isTighter]
      simp only [bind_assoc]
      rfl

variable (proceeds : Proceeds (deeper.unary place))
include proceeds

theorem binaryTail_proceeds (tightness : Nat) (left : Expression) :
    Proceeds (binaryTail deeper place tightness left) := by
  rw [binaryTail.eq_def]
  refine advances_iterate (fun left => (proceeds_peekOperator 0).bind fun found => ?_) left
  have done : Advances (Turn.Moves fun _ => False) (pure (.done left) : Parse (Turn Expression Expression)) :=
    advances_pure id
  cases found with
  | none => exact done
  | some operator =>
    dsimp only
    split
    next => exact done
    next binds =>
      exact consumes_bump.bind fun _ => proceeds.bind fun operand =>
        (binaryTail_proceeds (operator.precedence + 1) operand).bind fun _ => proceeds_pure _
termination_by 6 - tightness
decreasing_by
  have := operator.precedence_le
  omega

/-- Climbing by precedence comes to the same as the flat loop. -/
theorem binaryTail_flat (tightness : Nat) (left : Expression) {state : ParseState} (counts : state.stream.Counts) :
    binaryTail deeper place tightness left state = flatTail (deeper.unary place) tightness left state := by
  have climbs : ∀ operator : Operator,
      Proceeds (do binaryTail deeper place (operator.precedence + 1) (← deeper.unary place) : Parse Expression) :=
    fun operator => proceeds.bind fun operand => binaryTail_proceeds proceeds _ operand
  cases looked : peekOperator 0 state with
  | error failure after =>
    have fails : flatTail (deeper.unary place) tightness left state = .error failure after :=
      (operatorLoop_eq (fun _ => proceeds) counts).trans (bind_error looked)
    rw [binaryTail_loop, operatorLoop_eq climbs counts, bind_error looked, fails]
  | ok found after =>
    have ready := proceeds_peekOperator 0 state counts
    rw [looked] at ready
    have flat : flatTail (deeper.unary place) tightness left state =
        operatorTurn (looser tightness) (fun _ => deeper.unary place) join left found after :=
      operatorLoop_looked (fun _ => proceeds) counts looked
    rw [binaryTail_loop, operatorLoop_looked climbs counts looked, flat]
    cases found with
    | none => rfl
    | some operator =>
      dsimp only [operatorTurn]
      split
      next => rfl
      next isTighter =>
        have binds : ¬ (operator.precedence = 0 ∨ operator.precedence < tightness) := mt decide_eq_true isTighter
        have inside : tightness ≤ operator.precedence + 1 := by omega
        simp only [bind_assoc]
        refine behindOperator_congr proceeds ready.counts fun _ operand reached _ _ counts fewer => ?_
        have fewer : reached.remaining < state.remaining := Nat.lt_of_lt_of_le fewer ready.remaining
        -- The operators behind that bind more tightly are read first; they could as well be left to the loop itself.
        have tighter := binaryTail_flat (operator.precedence + 1) operand counts
        refine Eq.trans ?_ (flatTail_fuse proceeds inside left operand counts)
        rw [bind_congr_left tighter, ← binaryTail_loop]
        have read := flatTail_proceeds proceeds (operator.precedence + 1) operand reached counts
        cases ran : flatTail (deeper.unary place) (operator.precedence + 1) operand reached with
        | error failure stopped => rw [bind_error ran, bind_error ran]
        | ok right behind =>
          rw [ran] at read
          have fewer : behind.remaining < state.remaining := Nat.lt_of_le_of_lt read.remaining fewer
          rw [bind_ok ran, bind_ok ran]
          exact binaryTail_flat tightness (join left right) read.counts
termination_by state.remaining

end climbing

end Grammar

end GoPrompt
