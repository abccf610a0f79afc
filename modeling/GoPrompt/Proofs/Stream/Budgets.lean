import GoPrompt.Proofs.Stream.Onward

/-! A stream and the same stream with another token budget. Both do the same, up to the token for which the
smaller budget has no room. -/

namespace GoPrompt

namespace TokenStream

def withBudget (stream : TokenStream) (limit : Nat) : TokenStream := { stream with maxTokens := limit }

/-- A stream that has given away so many tokens, within its budget. -/
structure Counted (own number : Nat) (stream : TokenStream) : Prop where
  budget : stream.maxTokens = own
  count : stream.scanned = number + stream.lookahead.length
  within : stream.scanned ≤ own

/-- What an operation comes to with its own budget, and what with another one. -/
inductive Rebudgets {α : Type} (limit : Nat) :
    Except ParseError α × TokenStream → Except ParseError α × TokenStream → Prop
  | same {result : Except ParseError α} {after : TokenStream} (within : after.scanned ≤ limit) :
      Rebudgets limit (result, after) (result, after.withBudget limit)
  /-- The other budget has no room for a token that is scanned. -/
  | beyond {result : Except ParseError α} {error : ParseError} {after stopped : TokenStream}
      (behind : limit < after.scanned) (spent : error.kind = .tokenLimitExceeded) :
      Rebudgets limit (result, after) (.error error, stopped)
  /-- The own budget is used up, and the other one is no smaller. -/
  | spent {error : ParseError} {after : TokenStream} {other : Except ParseError α × TokenStream}
      (spent : error.kind = .tokenLimitExceeded) (full : after.maxTokens ≤ limit) :
      Rebudgets limit (.error error, after) other

section

variable {own number : Nat} {stream : TokenStream}

theorem Counted.consumed (counted : stream.Counted own number) : stream.consumed = number := by
  rw [TokenStream.consumed, counted.count, Nat.add_sub_cancel]

theorem Counted.remaining (counted : stream.Counted own number) : stream.remaining = own - number := by
  rw [TokenStream.remaining, counted.budget, counted.consumed]

theorem Counted.number_le (counted : stream.Counted own number) : number ≤ stream.scanned := by
  rw [counted.count]
  exact Nat.le_add_right _ _

theorem Counted.remaining_lt {before after : TokenStream} {reached : Nat} (counted : before.Counted own number)
    (later : after.Counted own reached) (further : number < reached) : after.remaining < before.remaining := by
  have within := Nat.le_trans later.number_le later.within
  rw [counted.remaining, later.remaining]
  omega

theorem fetch_counted (counted : stream.Counted own number) : stream.fetch.2.Counted own number := by
  have fetches := stream.fetch_fetches
  generalize stream.fetch = outcome at fetches ⊢
  cases fetches with
  | fault | refused | ended => exact ⟨counted.budget, counted.count, counted.within⟩
  | found _ _ room =>
    have count := counted.count
    refine ⟨counted.budget, ?_, counted.budget ▸ room⟩
    simp only [withFound, List.length_append, List.length_singleton]
    omega

theorem fill_counted (missing : Nat) (counted : stream.Counted own number) :
    (fill missing stream).2.Counted own number := fill_keeps (Counted own number) fetch_counted missing counted

theorem peek_counted (index : Nat) (counted : stream.Counted own number) :
    (stream.peek index).2.Counted own number :=
  peek_keeps (Counted own number) fetch_counted (fun counted => ⟨counted.budget, counted.count, counted.within⟩) index
    counted

theorem next_counted (limit : Nat) {token : Token} (front : stream.lookahead.head? = some token)
    (counted : stream.Counted own number) :
    ∃ after, stream.next = (.ok (some token), after) ∧ after.Counted own (number + 1) ∧ after.scanned = stream.scanned ∧
      after.lookahead = stream.lookahead.tail ∧
      (stream.withBudget limit).next = (.ok (some token), after.withBudget limit) := by
  obtain ⟨later, ahead⟩ := List.head?_eq_some_iff.mp front
  have count := counted.count
  rw [ahead, List.length_cons] at count
  simp only [TokenStream.next, fillTo, withBudget, ahead, List.length_cons,
    show 0 + 1 - (later.length + 1) = 0 by omega, fill]
  refine ⟨_, rfl, ⟨counted.budget, ?_, counted.within⟩, rfl, rfl, rfl⟩
  simp only
  omega

end

section

variable {limit : Nat} {stream : TokenStream}

private theorem fetch_rebudgets (within : stream.scanned ≤ limit) :
    Rebudgets limit stream.fetch (stream.withBudget limit).fetch := by
  have fetches := stream.fetch_fetches
  generalize stream.fetch = outcome at fetches ⊢
  cases fetches with
  | fault answered =>
    rw [(@Fetches.fault (stream.withBudget limit) _ _ answered).eq]
    exact .same within
  | ended answered ends =>
    rw [(@Fetches.ended (stream.withBudget limit) _ _ answered ends).eq]
    exact .same within
  | refused _ _ full => exact .spent rfl (Nat.le_trans full within)
  | found answered isToken =>
    by_cases room : stream.scanned < limit
    · rw [(@Fetches.found (stream.withBudget limit) _ _ _ answered isToken room).eq]
      exact .same room
    · have full := Nat.le_of_not_lt room
      rw [(@Fetches.refused (stream.withBudget limit) _ _ _ answered isToken full).eq]
      exact .beyond (Nat.lt_succ_of_le full) rfl

private theorem fill_rebudgets (missing : Nat) (within : stream.scanned ≤ limit) :
    Rebudgets limit (fill missing stream) (fill missing (stream.withBudget limit)) := by
  induction missing generalizing stream with
  | zero => exact .same within
  | succ missing ih =>
    unfold fill
    rw [show (stream.withBudget limit).exhausted = stream.exhausted from rfl]
    split
    next => exact .same within
    next =>
      have fetched := fetch_rebudgets within
      generalize stream.fetch = answer at fetched ⊢
      generalize (stream.withBudget limit).fetch = other at fetched ⊢
      cases fetched with
      | @same result after within =>
        cases result with
        | ok => exact ih within
        | error => exact .same within
      | @beyond result error after stopped behind spent =>
        cases result with
        | ok =>
          have more := (fill_onward missing after).scanned
          exact .beyond (Nat.lt_of_lt_of_le behind more) spent
        | error => exact .beyond behind spent
      | spent spent full => exact .spent spent full

theorem peek_rebudgets (index : Nat) (within : stream.scanned ≤ limit) :
    Rebudgets limit (stream.peek index) ((stream.withBudget limit).peek index) := by
  unfold TokenStream.peek
  split
  next => exact .same within
  next =>
    have filled : Rebudgets limit (stream.fillTo index) ((stream.withBudget limit).fillTo index) :=
      fill_rebudgets _ within
    generalize stream.fillTo index = answer at filled ⊢
    generalize (stream.withBudget limit).fillTo index = other at filled ⊢
    cases filled with
    | @same result after within =>
      cases result with
      | error => exact .same within
      | ok =>
        dsimp only
        rw [show (after.withBudget limit).lookahead = after.lookahead from rfl]
        split
        next => exact .same within
        next => exact .same within
    | @beyond result error after stopped behind spent =>
      cases result with
      | error => exact .beyond behind spent
      | ok =>
        dsimp only
        split
        next => exact .beyond behind spent
        next => exact .beyond behind spent
    | spent spent full => exact .spent spent full

end

end TokenStream

end GoPrompt
