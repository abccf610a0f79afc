import GoPrompt.Proofs.Parse.Run

/-! Two runs of the parser side by side. What the grammar does depends on the kinds of the tokens that it
looks at, so two runs do the same as long as they see kinds that resemble each other. A `Coupling` says which
pairs of states count as the same and when the first run has left the common path for good; the rules below
carry a coupling through every computation, and its laws only concern single tokens. -/

namespace GoPrompt

namespace TokenKind

/-- Kinds between which the grammar hardly tells a difference: it never asks where a semicolon comes from, and a
literal that has been spoilt can only be missed where a literal would be consumed. -/
inductive Resembles : TokenKind → TokenKind → Prop
  | same (kind : TokenKind) : Resembles kind kind
  | semicolons (one other : SemicolonKind) : Resembles (.semicolon one) (.semicolon other)
  | spoilt (kind : LiteralKind) : Resembles (.literal kind) .illegal

/-- A decision that does not tell a difference between such kinds. -/
def Blind {γ : Type} (decision : TokenKind → γ) : Prop :=
  ∀ one other, Resembles one other → decision one = decision other

theorem Blind.of {γ : Type} {decision : TokenKind → γ}
    (semicolons : ∀ one other, decision (.semicolon one) = decision (.semicolon other))
    (literals : ∀ kind, decision (.literal kind) = decision .illegal) : Blind decision := by
  rintro one other (_ | _ | _)
  · rfl
  · exact semicolons _ _
  · exact literals _

theorem blind_operator? : Blind operator? := Blind.of (fun _ _ => rfl) fun _ => rfl

theorem Resembles.of_eq {one other : TokenKind} (same : one = other) : one.Resembles other := same ▸ .same one

theorem Resembles.cases {one other : TokenKind} (resembles : one.Resembles other) :
    one = other ∨ (∃ origin origin', one = .semicolon origin ∧ other = .semicolon origin') ∨
      ∃ kind, one = .literal kind ∧ other = .illegal := by
  cases resembles with
  | same => exact .inl rfl
  | semicolons origin origin' => exact .inr (.inl ⟨origin, origin', rfl, rfl⟩)
  | spoilt kind => exact .inr (.inr ⟨kind, rfl, rfl⟩)

theorem Resembles.legal {one other : TokenKind} (resembles : one.Resembles other) (legal : other ≠ .illegal) :
    one ≠ .illegal := by
  cases resembles with
  | same => exact legal
  | semicolons => exact nofun
  | spoilt => exact absurd rfl legal

theorem Resembles.of_identifier {kind : TokenKind} (resembles : kind.Resembles .identifier) : kind = .identifier := by
  cases resembles
  rfl

end TokenKind

/-- What two values have in common when their places in the text do not count. -/
class Alike (α : Type) where
  alike : α → α → Prop
  refl : ∀ value, alike value value

/-- Values without places are alike only if they are equal. -/
@[reducible] def Alike.ofEq (α : Type) : Alike α := ⟨Eq, fun _ => rfl⟩

instance : Alike Unit := .ofEq Unit
instance : Alike Bool := .ofEq Bool
instance : Alike Shape := .ofEq Shape
instance : Alike (Option Shape) := .ofEq (Option Shape)
instance : Alike (Option Operator) := .ofEq (Option Operator)
instance : Alike StatementKind := .ofEq StatementKind
instance : Alike Grammar.SimpleStatement := .ofEq Grammar.SimpleStatement
instance : Alike (Option Grammar.SimpleStatement) := .ofEq (Option Grammar.SimpleStatement)
instance : Alike Span := ⟨fun _ _ => True, fun _ => trivial⟩
instance : Alike Token := ⟨fun first second => first.kind.Resembles second.kind, fun _ => .same _⟩
instance : Alike Expression := ⟨fun first second => first.shape = second.shape, fun _ => rfl⟩
instance : Alike Statement := ⟨fun first second => first.kind = second.kind, fun _ => rfl⟩

instance : Alike (Option Token) where
  alike
    | none, none => True
    | some first, some second => first.kind.Resembles second.kind
    | _, _ => False
  refl
    | none => trivial
    | some _ => .same _

instance : Alike Grammar.ExpressionList where
  alike first second :=
    first.count = second.count ∧ first.first.shape = second.first.shape ∧ first.last.shape = second.last.shape
  refl _ := ⟨rfl, rfl, rfl⟩

namespace Parse.Turn

variable {α β : Type} [Alike α] [Alike β]

def Same : Turn α β → Turn α β → Prop
  | .again first, .again second => Alike.alike first second
  | .done first, .done second => Alike.alike first second
  | _, _ => False

instance : Alike (Turn α β) where
  alike := Same
  refl turn := by cases turn <;> exact Alike.refl _

end Parse.Turn

/-- The relations of a coupling. The number is that of the tokens which both runs have consumed. -/
structure Coupling where
  marks : Nat → ParseState → ParseState → Prop
  /-- Between two decisions of the grammar. -/
  settled : Nat → ParseState → ParseState → Prop
  /-- The next token, or the lack of one, has been looked at. -/
  seen : Nat → Option Token → Option Token → ParseState → ParseState → Prop
  /-- The next token is a name, and what follows it has been looked at, too. -/
  window : Nat → Token → Token → Option Token → Option Token → ParseState → ParseState → Prop
  /-- The first run has left the common path, and nothing is said of it any more. -/
  gone : ParseState → Prop
  excused : Failure → ParseState → Prop
  /-- Nothing is said of the second run either, once the first one has left. -/
  free : Prop
  /-- What the second run fails with, otherwise. -/
  stray : Failure → ParseState → Prop
  fails : Failure → ParseState → Failure → ParseState → Prop

namespace Coupling

open Parse

variable (C : Coupling) {α β : Type} [Alike α] [Alike β]

def Lost : EStateM.Result Failure ParseState α → Prop
  | .ok _ state => C.gone state
  | .error failure state => C.excused failure state

/-- What is said of the second run when the first one is lost. -/
def Strays : EStateM.Result Failure ParseState α → Prop
  | .ok _ _ => C.free
  | .error failure state => C.free ∨ C.stray failure state

/-- What two runs come to when the first one is not lost. -/
def Matches (post : α → α → ParseState → ParseState → Prop) :
    EStateM.Result Failure ParseState α → EStateM.Result Failure ParseState α → Prop
  | .ok first before, .ok second after => Alike.alike first second ∧ post first second before after
  | .error first before, .error second after => C.fails first before second after
  | _, _ => False

/-- A run that has left the common path stays away from it. -/
def Keeps (program : Parse α) : Prop := ∀ state, C.gone state → C.Lost (program state)

structure Coupled (pre : ParseState → ParseState → Prop) (first second : Parse α)
    (post : α → α → ParseState → ParseState → Prop) : Prop where
  keeps : C.Keeps first
  outcome : ∀ before after, pre before after →
    (C.Lost (first before) ∧ C.Strays (second after)) ∨ C.Matches post (first before) (second after)

/-- At least `number` tokens are consumed, and the next one has not been looked at. -/
def after (number : Nat) (first second : ParseState) : Prop :=
  ∃ reached, number ≤ reached ∧ C.settled reached first second

def afterSeen (number : Nat) (one other : Option Token) (first second : ParseState) : Prop :=
  ∃ reached, number ≤ reached ∧ C.seen reached one other first second

/-- A computation that may start and end between any two decisions. -/
def Steady (first second : Parse α) : Prop :=
  ∀ number, C.Coupled (C.after number) first second (fun _ _ => C.after number)

/-- A turn that goes on has consumed a token. -/
def turned (number : Nat) : Turn α β → Turn α β → ParseState → ParseState → Prop
  | .again _, _ => C.after (number + 1)
  | .done _, _ => C.after number

/-- What is needed of the steps on single tokens. -/
structure Lawful : Prop where
  excuse : ∀ {state} failure, C.gone state → C.excused failure state
  settled_marks : ∀ {number first second}, C.settled number first second → C.marks number first second
  window_marks : ∀ {number one other next later first second},
    C.window number one other next later first second → C.marks number first second
  progress : ∀ {number reached first second before after},
    C.marks number first second → C.marks reached before after → number < reached →
      before.remaining < first.remaining ∧ after.remaining < second.remaining
  seen_settled : ∀ {number one other first second}, C.seen number one other first second → C.settled number first second
  look : ∀ number, C.Coupled (C.settled number) (peek 0) (peek 0) (C.seen number)
  take : ∀ number {one other : Token}, one.kind ≠ .illegal → other.kind ≠ .illegal →
    C.Coupled (C.seen number (some one) (some other)) bump bump (fun _ _ => C.settled (number + 1))
  reject : ∀ {α : Type} [Alike α] number {one other : Token} expected, one.kind.Resembles other.kind →
    C.Coupled (C.seen number (some one) (some other)) (unexpected one expected : Parse α) (unexpected other expected)
      (fun _ _ _ _ => False)
  /-- A literal is consumed by the first run where it is spoilt for the second one. -/
  lose : ∀ {number kind first second} {one other : Token}, one.kind = .literal kind → other.kind = .illegal →
    C.seen number (some one) (some other) first second → C.Lost (bump first)
  spoil : ∀ {α : Type} {number kind first second} {one other : Token} expected,
    one.kind = .literal kind → other.kind = .illegal →
    C.seen number (some one) (some other) first second → C.Strays ((unexpected other expected : Parse α) second)
  loose : ∀ {number first second} {one other : Token}, one.kind = .literal .string → other.kind = .illegal →
    C.seen number (some one) (some other) first second → C.free
  ended : ∀ {α : Type} [Alike α] number expected,
    C.Coupled (C.seen number none none) (endOfInput expected : Parse α) (endOfInput expected) (fun _ _ _ _ => False)
  stop : ∀ {α : Type} [Alike α] number limit,
    C.Coupled (C.marks number) (Grammar.beyondLimit limit : Parse α) (Grammar.beyondLimit limit) (fun _ _ _ _ => False)
  lookBeyond : ∀ number {one other : Token}, one.kind = .identifier → other.kind = .identifier →
    C.Coupled (C.seen number (some one) (some other)) (peek 1) (peek 1) (C.window number one other)
  lookInWindow : ∀ {number one other next later first second}, C.window number one other next later first second →
    peek 0 first = .ok (some one) first ∧ peek 0 second = .ok (some other) second
  takeInWindow : ∀ number {one other : Token} {next later},
    C.Coupled (C.window number one other next later) bump bump (fun _ _ => C.settled (number + 1))
  takeBoth : ∀ number {one other next later : Token},
    C.Coupled (C.window number one other (some next) (some later)) bump bump
      (fun _ _ => C.seen (number + 1) (some next) (some later))
  loseBeyond : ∀ {number first second} {one other next later : Token},
    next.kind = .literal .string → later.kind = .illegal →
    C.window number one other (some next) (some later) first second →
      C.free ∧ C.Lost ((do bump; if (← peekKind 0) = some (.literal .string) then bump : Parse Unit) first)

section rules

variable {C} {pre : ParseState → ParseState → Prop} {first second : Parse α}
  {post middle : α → α → ParseState → ParseState → Prop}

theorem Coupled.weaken {stronger : ParseState → ParseState → Prop} {weaker : α → α → ParseState → ParseState → Prop}
    (coupled : C.Coupled pre first second post) (enter : ∀ before after, stronger before after → pre before after)
    (leave : ∀ one other, Alike.alike one other → ∀ before after, post one other before after → weaker one other before after) :
    C.Coupled stronger first second weaker := by
  refine ⟨coupled.keeps, fun before after holds => ?_⟩
  refine (coupled.outcome before after (enter before after holds)).imp_right fun matched => ?_
  cases h : first before <;> cases h' : second after <;> simp only [h, h', Matches] at matched ⊢
  · exact ⟨matched.1, leave _ _ matched.1 _ _ matched.2⟩
  · exact matched

theorem Coupled.pure {one other : α} (same : Alike.alike one other)
    (holds : ∀ before after, pre before after → post one other before after) :
    C.Coupled pre (Pure.pure one) (Pure.pure other) post :=
  ⟨fun _ gone => gone, fun _ _ entered => .inr ⟨same, holds _ _ entered⟩⟩

omit [Alike α] [Alike β] in
theorem Lost.bind {next : α → Parse β} {state : ParseState} (lost : C.Lost (first state))
    (keeps : ∀ value, C.Keeps (next value)) :
    C.Lost ((first >>= next) state) := by
  cases h : first state with
  | ok value reached =>
    rw [h] at lost
    rw [bind_ok h]
    exact keeps value reached lost
  | error failure reached =>
    rw [h] at lost
    rw [bind_error h]
    exact lost

omit [Alike α] in
theorem strays_of_free (free : C.free) (result : EStateM.Result Failure ParseState α) : C.Strays result := by
  cases result with
  | ok => exact free
  | error => exact .inl free

omit [Alike α] [Alike β] in
theorem Lost.alone {one : EStateM.Result Failure ParseState α} {other : EStateM.Result Failure ParseState β}
    (lost : C.Lost one) (free : C.free) : C.Lost one ∧ C.Strays other := ⟨lost, strays_of_free free other⟩

omit [Alike α] [Alike β] in
theorem Strays.bind {next : α → Parse β} {state : ParseState} (strays : C.Strays (first state)) :
    C.Strays ((first >>= next) state) := by
  cases h : first state with
  | ok value reached =>
    rw [h] at strays
    exact strays_of_free strays _
  | error failure reached =>
    rw [h] at strays
    rw [bind_error h]
    exact strays

omit [Alike α] [Alike β] in
theorem Keeps.bind {next : α → Parse β} (keeps : C.Keeps first) (rest : ∀ value, C.Keeps (next value)) :
    C.Keeps (first >>= next) := fun state gone => Lost.bind (keeps state gone) rest

theorem Coupled.bind {next later : α → Parse β} {last : β → β → ParseState → ParseState → Prop}
    (coupled : C.Coupled pre first second middle)
    (rest : ∀ one other, Alike.alike one other → C.Coupled (middle one other) (next one) (later other) last) :
    C.Coupled pre (first >>= next) (second >>= later) last := by
  have keeps : ∀ value, C.Keeps (next value) := fun value => (rest value value (Alike.refl value)).keeps
  refine ⟨coupled.keeps.bind keeps, fun before after holds => ?_⟩
  rcases coupled.outcome before after holds with left | matched
  · exact .inl ⟨Lost.bind left.1 keeps, Strays.bind left.2⟩
  · cases h : first before <;> cases h' : second after <;> simp only [h, h', Matches] at matched
    · rw [bind_ok h, bind_ok h']
      exact (rest _ _ matched.1).outcome _ _ matched.2
    · rw [bind_error h, bind_error h']
      exact .inr matched

theorem Coupled.map {before after : α → β} {last : β → β → ParseState → ParseState → Prop}
    (coupled : C.Coupled pre first second middle)
    (same : ∀ one other, Alike.alike one other → Alike.alike (before one) (after other))
    (leave : ∀ one other state reached, middle one other state reached → last (before one) (after other) state reached) :
    C.Coupled pre (before <$> first) (after <$> second) last :=
  coupled.bind fun one other alike => .pure (same one other alike) (leave one other)

theorem Coupled.discard {last : ParseState → ParseState → Prop} (coupled : C.Coupled pre first second fun _ _ => last) :
    C.Coupled pre (discard first) (discard second) (fun _ _ => last) :=
  coupled.map (fun _ _ _ => rfl) fun _ _ _ _ holds => holds

theorem Steady.bind {next later : α → Parse β} {last : β → β → ParseState → ParseState → Prop}
    (steady : C.Steady first second)
    (rest : ∀ one other, Alike.alike one other → C.Coupled (C.after number) (next one) (later other) last) :
    C.Coupled (C.after number) (first >>= next) (second >>= later) last :=
  (steady number).bind rest

theorem after_of_le {number reached : Nat} (before : number ≤ reached) {one other : ParseState}
    (holds : C.after reached one other) : C.after number one other := by
  obtain ⟨place, later, settled⟩ := holds
  exact ⟨place, Nat.le_trans before later, settled⟩

theorem Coupled.pureAfter {one other : α} (same : Alike.alike one other) {number reached : Nat} (far : number ≤ reached) :
    C.Coupled (C.after reached) (Pure.pure one) (Pure.pure other) (fun _ _ => C.after number) :=
  .pure same fun _ _ => after_of_le far

theorem Steady.reaching {number reached : Nat} (steady : C.Steady first second) (far : number ≤ reached) :
    C.Coupled (C.after reached) first second (fun _ _ => C.after number) :=
  (steady reached).weaken (fun _ _ holds => holds) fun _ _ _ _ _ => after_of_le far

theorem Steady.discard (steady : C.Steady first second) : C.Steady (discard first) (discard second) := fun number =>
  (steady number).discard

end rules

section loops

variable {C} {turn other : α → Parse (Turn α β)}

omit [Alike α] [Alike β] in
theorem Strays.iterate {value : α} {state : ParseState} (strays : C.Strays (turn value state)) :
    C.Strays (Parse.iterate turn value state) := by
  cases ran : turn value state with
  | ok result reached =>
    rw [ran] at strays
    exact strays_of_free strays _
  | error failure reached =>
    rw [ran] at strays
    rw [iterate_error ran]
    exact strays

omit [Alike α] [Alike β] in
theorem Lawful.iterate_keeps (lawful : C.Lawful) (keeps : ∀ value, C.Keeps (turn value))
    (value : α) (state : ParseState) (gone : C.gone state) : C.Lost (Parse.iterate turn value state) := by
  have left := keeps value state gone
  cases ran : turn value state with
  | error failure reached =>
    rw [ran] at left
    rw [iterate_error ran]
    exact left
  | ok result reached =>
    rw [ran] at left
    cases result with
    | done result =>
      rw [iterate_done ran]
      exact left
    | again next =>
      by_cases progress : reached.remaining < state.remaining
      · rw [iterate_again ran progress]
        exact iterate_keeps lawful keeps next reached left
      · rw [iterate_stuck ran progress]
        exact lawful.excuse _ left
termination_by state.remaining

/-- What a repetition comes to, by recursion on what is left of the first run. -/
private theorem Lawful.iterate_outcome (lawful : C.Lawful) {number reached : Nat} {before after : ParseState} {one later : α}
    (turns : ∀ number one later, Alike.alike one later → C.Coupled (C.settled number) (turn one) (other later) (C.turned number))
    (far : number ≤ reached) (marked : C.marks reached before after)
    (outcome : (C.Lost (turn one before) ∧ C.Strays (other later after)) ∨
      C.Matches (C.turned reached) (turn one before) (other later after)) :
    (C.Lost (Parse.iterate turn one before) ∧ C.Strays (Parse.iterate other later after)) ∨
      C.Matches (fun _ _ => C.after number) (Parse.iterate turn one before) (Parse.iterate other later after) := by
  have keeps := iterate_keeps lawful fun value => (turns 0 value value (Alike.refl value)).keeps
  cases ran : turn one before with
  | error failure stopped =>
    rw [ran] at outcome
    rw [iterate_error ran]
    refine outcome.imp (fun left => ⟨left.1, left.2.iterate⟩) fun matched => ?_
    cases ran' : other later after with
    | error failure' stopped' =>
      rw [iterate_error ran']
      rwa [ran'] at matched
    | ok result stopped' => simp only [ran', Matches] at matched
  | ok result stopped =>
    rw [ran] at outcome
    rcases outcome with ⟨left, strays⟩ | matched
    · refine .inl ⟨?_, strays.iterate⟩
      cases result with
      | done result =>
        rw [iterate_done ran]
        exact left
      | again next =>
        by_cases progress : stopped.remaining < before.remaining
        · rw [iterate_again ran progress]
          exact keeps next stopped left
        · rw [iterate_stuck ran progress]
          exact lawful.excuse _ left
    · cases ran' : other later after with
      | error failure' stopped' => simp only [ran', Matches] at matched
      | ok result' stopped' =>
        rw [ran'] at matched
        obtain ⟨same, holds⟩ := matched
        cases result with
        | done result =>
          cases result' with
          | again next' => exact same.elim
          | done result' =>
            rw [iterate_done ran, iterate_done ran']
            exact .inr ⟨same, after_of_le far holds⟩
        | again next =>
          cases result' with
          | done result' => exact same.elim
          | again next' =>
            obtain ⟨place, further, settled⟩ := holds
            have marked' := lawful.settled_marks settled
            have progress := lawful.progress marked marked' further
            rw [iterate_again ran progress.1, iterate_again ran' progress.2]
            exact iterate_outcome lawful turns (by omega) marked'
              ((turns place next next' same).outcome stopped stopped' settled)
termination_by before.remaining
decreasing_by exact progress.1

/-- A repetition couples when its turns do. The first turn may start in a state of its own. -/
theorem Lawful.iterateFrom (lawful : C.Lawful) {number : Nat} {pre : ParseState → ParseState → Prop}
    (marked : ∀ before after, pre before after → C.marks number before after)
    (turns : ∀ number one later, Alike.alike one later → C.Coupled (C.settled number) (turn one) (other later) (C.turned number))
    {one later : α} (start : C.Coupled pre (turn one) (other later) (C.turned number)) :
    C.Coupled pre (Parse.iterate turn one) (Parse.iterate other later) (fun _ _ => C.after number) :=
  ⟨iterate_keeps lawful (fun value => (turns 0 value value (Alike.refl value)).keeps) one, fun before after holds =>
    iterate_outcome lawful turns (Nat.le_refl _) (marked before after holds) (start.outcome before after holds)⟩

theorem Lawful.iterate (lawful : C.Lawful)
    (turns : ∀ number one later, Alike.alike one later → C.Coupled (C.after number) (turn one) (other later) (C.turned number))
    {one later : α} (same : Alike.alike one later) : C.Steady (Parse.iterate turn one) (Parse.iterate other later) := by
  have settledTurns : ∀ number one later, Alike.alike one later →
      C.Coupled (C.settled number) (turn one) (other later) (C.turned number) := fun number one later alike =>
    (turns number one later alike).weaken (fun _ _ settled => ⟨number, Nat.le_refl _, settled⟩)
      fun _ _ _ _ _ holds => holds
  intro number
  refine ⟨iterate_keeps lawful (fun value => (turns 0 value value (Alike.refl value)).keeps) one, ?_⟩
  rintro before after ⟨reached, far, settled⟩
  exact iterate_outcome lawful settledTurns far (lawful.settled_marks settled)
    ((settledTurns reached one later same).outcome before after settled)

end loops

end Coupling

end GoPrompt
