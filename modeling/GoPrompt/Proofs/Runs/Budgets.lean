import GoPrompt.Proofs.Coupled.Statements
import GoPrompt.Proofs.Runs.Front
import GoPrompt.Proofs.Runs.Onward
import GoPrompt.Proofs.Runs.Parsed
import GoPrompt.Proofs.Stream.Budgets

/-! The same text under two budgets. The token budget of the second run may be larger or smaller than that of the first
one, and it may have more nesting levels. Both runs scan the same tokens in the same order, until one of them is out of
budget. -/

namespace GoPrompt

open Parse

def ParseState.withBudget (state : ParseState) (limit : Nat) : ParseState :=
  { state with stream := state.stream.withBudget limit }

/-- Two states that differ in the token budget only, with no more tokens scanned than both budgets allow. -/
structure ParseState.Rebudgeted (own limit number : Nat) (first second : ParseState) : Prop where
  other : second = first.withBudget limit
  counted : first.stream.Counted own number
  within : first.stream.scanned ≤ limit

namespace Coupling

/-- A run with its own token budget, and the run with another one. Where the other one is no smaller, nothing is said of
the second run once the first one is out of budget. -/
def budgets (own limit : Nat) (free : Prop) : Coupling where
  marks := ParseState.Rebudgeted own limit
  settled := ParseState.Rebudgeted own limit
  seen number one other first second :=
    ParseState.Rebudgeted own limit number first second ∧ other = one ∧ first.stream.lookahead.head? = one
  window number one other next later first second :=
    ParseState.Rebudgeted own limit number first second ∧
      (other = one ∧ first.stream.lookahead.head? = some one) ∧ later = next ∧ first.stream.lookahead[1]? = next
  gone state := limit < state.stream.scanned
  excused failure state := limit < state.stream.scanned ∨ ∃ error, failure = .rejected error ∧ error.isFault
  free := free
  stray failure _ := ∃ error, failure = .rejected error ∧ error.kind = .tokenLimitExceeded
  fails failure first failure' second :=
    failure' = failure ∧ second = first.withBudget limit ∧ first.stream.scanned ≤ limit

section

variable {own limit number : Nat} {free : Prop} {α : Type} [Alike α]

omit [Alike α] in
private theorem budgets_keeps {program : Parse α} (onwards : Onwards program) :
    (budgets own limit free).Keeps program := by
  intro state gone
  have moved := onwards state
  cases ran : program state with
  | ok value after =>
    rw [ran] at moved
    exact Nat.lt_of_lt_of_le gone moved.scanned
  | error failure after =>
    rw [ran] at moved
    exact .inl (Nat.lt_of_lt_of_le gone moved.scanned)

private theorem budgets_fail {pre : ParseState → ParseState → Prop} {post : α → α → ParseState → ParseState → Prop} {program : Parse α}
    (onwards : Onwards program)
    (marked : ∀ before after, pre before after → after = before.withBudget limit ∧ before.stream.scanned ≤ limit)
    (fails : ∀ before after, pre before after → ∃ failure reached, program before = .error failure reached ∧
      program (before.withBudget limit) = .error failure (reached.withBudget limit) ∧
      reached.stream.scanned = before.stream.scanned) :
    (budgets own limit free).Coupled pre program program post := by
  refine ⟨budgets_keeps onwards, fun before after holds => .inr ?_⟩
  obtain ⟨failure, reached, failed, failed', same⟩ := fails before after holds
  obtain ⟨rfl, within⟩ := marked before after holds
  rw [failed, failed']
  exact ⟨rfl, rfl, same ▸ within⟩

private theorem budgets_unexpected {pre : ParseState → ParseState → Prop}
    {post : α → α → ParseState → ParseState → Prop} (token : Token) (expected : List String)
    (marked : ∀ before after, pre before after → after = before.withBudget limit ∧ before.stream.scanned ≤ limit) :
    (budgets own limit free).Coupled pre (unexpected token expected : Parse α) (unexpected token expected) post :=
  budgets_fail (onwards_unexpected token expected) marked fun before _ _ => by
    cases kind : token.kind with
    | semicolon origin =>
      cases origin <;> simp only [unexpected, kind] <;> exact ⟨_, _, rfl, rfl, rfl⟩
    | illegal =>
      simp only [unexpected, kind, bind_ok (show (get : Parse ParseState) before = .ok before before from rfl),
        bind_ok (show (get : Parse ParseState) (before.withBudget limit) = .ok _ (before.withBudget limit) from rfl)]
      rw [show (before.withBudget limit).stream.invalidDiagnostic? token =
        before.stream.invalidDiagnostic? token from rfl]
      cases before.stream.invalidDiagnostic? token <;> exact ⟨_, _, rfl, rfl, rfl⟩
    | identifier | keyword | literal | operator =>
      simp only [unexpected, kind]
      exact ⟨_, _, rfl, rfl, rfl⟩

/-- What two runs that look at a token come to. -/
private theorem budgets_peek {pre : ParseState → ParseState → Prop}
    {post : Option Token → Option Token → ParseState → ParseState → Prop} (index : Nat) (smaller : limit < own ∨ free)
    (marked : ∀ before after, pre before after → ParseState.Rebudgeted own limit number before after)
    (leave : ∀ before after found reached, pre before after → before.stream.peek index = (.ok found, reached.stream) →
      ParseState.Rebudgeted own limit number reached (reached.withBudget limit) → post found found reached (reached.withBudget limit)) :
    (budgets own limit free).Coupled pre (peek index) (peek index) post := by
  refine ⟨budgets_keeps (onwards_peek index), fun before after holds => ?_⟩
  obtain ⟨rfl, counted, within⟩ := marked before after holds
  have counted' := TokenStream.peek_counted index counted
  have peeked := TokenStream.peek_rebudgets index within
  rw [peek, onStream, onStream, show (before.withBudget limit).stream = before.stream.withBudget limit from rfl]
  generalize looked : before.stream.peek index = answer at peeked counted' ⊢
  generalize (before.stream.withBudget limit).peek index = other at peeked ⊢
  cases peeked with
  | @same result reached within' =>
    cases result with
    | error error => exact .inr ⟨rfl, rfl, within'⟩
    | ok found =>
      exact .inr ⟨Alike.refl found,
        leave before _ found { before with stream := reached } holds looked ⟨rfl, counted', within'⟩⟩
  | @beyond result error reached stopped behind spent =>
    have strays : (budgets own limit free).Strays
        (.error (.rejected error) { before.withBudget limit with stream :=
          stopped } : EStateM.Result _ _ (Option Token)) :=
      .inr ⟨error, rfl, spent⟩
    cases result with
    | error error => exact .inl ⟨.inl behind, strays⟩
    | ok found => exact .inl ⟨behind, strays⟩
  | @spent error reached other spent full =>
    have noRoom : own ≤ limit := counted'.budget ▸ full
    refine .inl (Lost.alone (.inr ⟨error, rfl, ?_⟩) (smaller.resolve_left (Nat.not_lt_of_le noRoom)))
    rw [ParseError.isFault, spent]
    rfl

private theorem budgets_bump {pre : ParseState → ParseState → Prop} {post : Unit → Unit → ParseState → ParseState → Prop}
    (entered : ∀ before after, pre before after →
      ParseState.Rebudgeted own limit number before after ∧ ∃ token, before.stream.lookahead.head? = some token)
    (leave : ∀ before after reached, pre before after →
      ParseState.Rebudgeted own limit (number + 1) reached (reached.withBudget limit) →
      reached.stream.lookahead = before.stream.lookahead.tail → post () () reached (reached.withBudget limit)) :
    (budgets own limit free).Coupled pre bump bump post := by
  refine ⟨budgets_keeps onwards_bump, fun before after holds => .inr ?_⟩
  obtain ⟨⟨rfl, counted, within⟩, token, front⟩ := entered before after holds
  obtain ⟨reached, took, counted', scanned, ahead, took'⟩ := TokenStream.next_counted limit front counted
  rw [bump_some took, bump_some (show (before.withBudget limit).stream.next = _ from took')]
  refine ⟨rfl, leave before _ { before with stream := reached, lastSpan := token.span } holds ⟨rfl, counted', ?_⟩ ahead⟩
  exact scanned ▸ within

private theorem budgets_lawful (smaller : limit < own ∨ free) : (budgets own limit free).Lawful where
  excuse _ gone := .inl gone
  settled_marks := id
  window_marks window := window.1
  progress := by
    rintro number reached first _ before _ ⟨rfl, counted, -⟩ ⟨rfl, counted', within⟩ further
    have bounded : ∀ {limit : Nat}, before.stream.scanned ≤ limit →
        limit - reached < limit - number := fun {limit} within =>
      Nat.sub_lt_sub_left (Nat.lt_of_lt_of_le further (Nat.le_trans counted'.number_le within)) further
    refine ⟨?_, ?_⟩
    · show before.stream.remaining < first.stream.remaining
      rw [counted.remaining, counted'.remaining]
      exact bounded counted'.within
    · show limit - before.stream.consumed < limit - first.stream.consumed
      rw [counted.consumed, counted'.consumed]
      exact bounded within
  seen_settled seen := seen.1
  look number := budgets_peek 0 smaller (fun _ _ => id) fun before after found reached _ looked marked => by
    refine ⟨marked, rfl, ?_⟩
    rw [(TokenStream.peek_lookahead looked).2, List.head?_eq_getElem?]
  take number one other _ _ := budgets_bump (fun _ _ seen => ⟨seen.1, one, seen.2.2⟩) fun _ _ _ _ marked _ => marked
  reject number one other expected _ := by
    by_cases same : other = one
    · subst same
      exact budgets_unexpected _ expected fun _ _ seen => ⟨seen.1.other, seen.1.within⟩
    · exact ⟨budgets_keeps (onwards_unexpected one expected), fun _ _ seen => absurd (Option.some.inj seen.2.1) same⟩
  lose literal illegal seen := by
    obtain rfl := Option.some.inj seen.2.1
    cases literal.symm.trans illegal
  spoil _ literal illegal seen := by
    obtain rfl := Option.some.inj seen.2.1
    cases literal.symm.trans illegal
  loose literal illegal seen := by
    obtain rfl := Option.some.inj seen.2.1
    cases literal.symm.trans illegal
  ended number expected := budgets_fail (onwards_endOfInput expected) (fun _ _ seen => ⟨seen.1.other, seen.1.within⟩)
    fun _ _ _ => ⟨_, _, rfl, rfl, rfl⟩
  stop {α} _ number levels := by
    -- The run goes one level deeper, looks at the next token and fails.
    have deeper : (budgets own limit free).Coupled ((budgets own limit free).marks number)
        (modify fun state : ParseState => { state with depth := state.depth + 1 })
        (modify fun state : ParseState => { state with depth := state.depth + 1 })
        fun _ _ => (budgets own limit free).marks number := by
      refine ⟨fun _ gone => gone, ?_⟩
      rintro before _ ⟨rfl, counted, within⟩
      exact .inr ⟨rfl, rfl, counted, within⟩
    have looks : (budgets own limit free).Coupled ((budgets own limit free).marks number) (peek 0)
        (peek 0) fun one other first second =>
        one = other ∧ second = first.withBudget limit ∧ first.stream.scanned ≤ limit :=
      budgets_peek 0 smaller (fun _ _ => id) fun _ _ _ _ _ _ marked => ⟨rfl, marked.other, marked.within⟩
    refine deeper.bind fun _ _ _ => looks.bind fun one other _ => ?_
    refine ⟨budgets_keeps (onwards_throw _), ?_⟩
    rintro before _ ⟨rfl, rfl, within⟩
    exact .inr ⟨rfl, rfl, within⟩
  lookBeyond number one other _ _ :=
      budgets_peek 1 smaller (fun _ _ seen => seen.1) fun _ _ found reached seen looked marked => by
    have kept := TokenStream.peek_keeps_front 1 seen.2.2
    rw [looked] at kept
    exact ⟨marked, ⟨Option.some.inj seen.2.1, kept⟩, rfl, (TokenStream.peek_lookahead looked).2.symm⟩
  lookInWindow := by
    rintro number one other next later first _ ⟨⟨rfl, -, -⟩, ⟨rfl, front⟩, -⟩
    exact ⟨onStream_ok (TokenStream.peek_front front), onStream_ok (TokenStream.peek_front front)⟩
  takeInWindow number one other next later :=
    budgets_bump (fun _ _ window => ⟨window.1, one, window.2.1.2⟩) fun _ _ _ _ marked _ => marked
  takeBoth number one other next later := budgets_bump (fun _ _ window => ⟨window.1, one, window.2.1.2⟩)
    fun before _ reached window marked ahead => by
      refine ⟨marked, window.2.2.1, ?_⟩
      rw [ahead, List.head?_eq_getElem?, List.getElem?_tail]
      exact window.2.2.2
  loseBeyond literal illegal window := by
    obtain rfl := Option.some.inj window.2.2.1
    cases literal.symm.trans illegal

end

end Coupling

/-- Whether the end of a run says something of the text. -/
def Parse.Conclusive {α : Type} : EStateM.Result Failure ParseState α → Prop
  | .ok _ _ | .error (.needMoreInput _) _ => True
  | .error (.rejected error) _ => error.isFault = false

/-- Ends of two runs that differ in the token budget and in places only. -/
inductive EndsAlike (limit : Nat) :
    EStateM.Result Failure ParseState Statement → EStateM.Result Failure ParseState Statement → Prop
  | ok {statement other : Statement} {after : ParseState} (same : other.kind = statement.kind) :
      EndsAlike limit (.ok statement after) (.ok other (after.withBudget limit))
  | error {failure : Failure} {after : ParseState} :
      EndsAlike limit (.error failure after) (.error failure (after.withBudget limit))

section

variable {limits : Limits} {text : List Char}

private theorem ParseState.ofText_rebudgeted (limits : Limits) (text : List Char) (limit : Nat) :
    ParseState.Rebudgeted limits.maxTokens limit 0 (.ofText limits text)
      (.ofText { limits with maxTokens := limit } text) :=
  ⟨rfl, ⟨rfl, rfl, Nat.zero_le _⟩, Nat.zero_le _⟩

private theorem EndsAlike.of_matches {own limit : Nat} {free : Prop} {result other : EStateM.Result Failure ParseState Statement}
    (matched : (Coupling.budgets own limit free).Matches (fun _ _ => (Coupling.budgets own limit free).afterSeen 0 none none)
      result other) : EndsAlike limit result other ∧ (ended result).stream.scanned ≤ limit := by
  cases result with
  | ok statement after =>
    cases other with
    | ok statement' after' =>
      obtain ⟨alike, reached, _, ⟨rfl, -, within⟩, -⟩ := matched
      exact ⟨.ok alike.symm, within⟩
    | error => exact matched.elim
  | error failure after =>
    cases other with
    | ok => exact matched.elim
    | error failure' after' =>
      obtain ⟨rfl, rfl, within⟩ := matched
      exact ⟨.error, within⟩

theorem wholeText_within (limits : Limits) (text : List Char) (nesting : Nat) :
    (ended (Grammar.wholeText nesting (.ofText limits text))).stream.scanned ≤ limits.maxTokens := by
  have onward := wholeText_onward nesting (show (ParseState.ofText limits text).depth = 0 from rfl)
  have begun : (ParseState.ofText limits text).stream.scanned ≤ (ParseState.ofText limits text).stream.maxTokens :=
    Nat.zero_le _
  cases ran : Grammar.wholeText nesting (.ofText limits text) <;> rw [ran] at onward <;>
    exact Nat.le_trans (onward.within begun) (Nat.le_of_eq onward.budget)

/-- A conclusive run does the same with any budgets that suffice for it. -/
theorem wholeText_enough {nesting tokens : Nat} (deeper : limits.maxNesting ≤ nesting)
    (conclusive : Conclusive (Grammar.wholeText limits.maxNesting (.ofText limits text)))
    (enough : (ended (Grammar.wholeText limits.maxNesting (.ofText limits text))).stream.scanned ≤ tokens) :
    EndsAlike tokens (Grammar.wholeText limits.maxNesting (.ofText limits text))
      (Grammar.wholeText nesting (.ofText { limits with maxTokens := tokens } text)) := by
  have lawful : (Coupling.budgets limits.maxTokens tokens True).Lawful := Coupling.budgets_lawful (.inr trivial)
  have lost : ∀ {α : Type} (state : ParseState), (Coupling.budgets limits.maxTokens tokens True).Lost
      ((Grammar.beyondLimit limits.maxNesting : Parse α) state) := by
    intro α state
    obtain ⟨error, after, failed, fault⟩ := beyondLimit_faults (α := α) limits.maxNesting state
    rw [failed]
    exact .inr ⟨error, rfl, fault⟩
  have deep := Grammar.levels_deep_of_le lawful trivial nesting lost deeper
  have outcome := Grammar.wholeText_outcome_of_deep lawful deep
    (ParseState.ofText_rebudgeted limits text tokens) rfl rfl
  rcases outcome with ⟨left, -⟩ | matched
  · cases ran : Grammar.wholeText limits.maxNesting (.ofText limits text) with
    | ok statement after =>
      rw [ran] at left enough
      exact absurd left (Nat.not_lt_of_le enough)
    | error failure after =>
      rw [ran] at left enough conclusive
      rcases left with gone | ⟨error, rfl, fault⟩
      · exact absurd gone (Nat.not_lt_of_le enough)
      · cases fault.symm.trans conclusive
  · exact (EndsAlike.of_matches matched).1

theorem wholeText_short {tokens : Nat}
    (short : tokens < (ended (Grammar.wholeText limits.maxNesting (.ofText limits text))).stream.scanned) :
    ∃ error after, Grammar.wholeText limits.maxNesting (.ofText { limits with maxTokens := tokens } text) =
      .error (.rejected error) after ∧ error.kind = .tokenLimitExceeded := by
  have smaller := Nat.lt_of_lt_of_le short (wholeText_within limits text limits.maxNesting)
  have lawful : (Coupling.budgets limits.maxTokens tokens False).Lawful := Coupling.budgets_lawful (.inl smaller)
  have outcome := Grammar.wholeText_outcome lawful limits.maxNesting
    (ParseState.ofText_rebudgeted limits text tokens) rfl rfl
  rcases outcome with ⟨-, strays⟩ | matched
  · cases ran : Grammar.wholeText limits.maxNesting (.ofText { limits with maxTokens := tokens } text) with
    | ok =>
      rw [ran] at strays
      exact strays.elim
    | error failure after =>
      rw [ran] at strays
      obtain ⟨error, rfl, spent⟩ := strays.resolve_left id
      exact ⟨error, after, rfl, spent⟩
  · exact absurd short (Nat.not_lt_of_le (EndsAlike.of_matches matched).2)

end

end GoPrompt
