import GoPrompt.Proofs.Stream.Parsing

/-! Tokens that are all whole and legal, and for which the budget has room. A parser that reads them stands in
front of the kinds of tokens still to come, and neither looking at a token nor consuming one can fail. -/

namespace GoPrompt

/-- The tokens of a text, one after the other, and the budgets for reading them. -/
structure Supply where
  tokens : List Token
  budget : Nat
  /-- The levels of nesting that the grammar allows. -/
  nesting : Nat
  fits : tokens.length ≤ budget
  legal : ∀ token ∈ tokens, token.kind ≠ .illegal

namespace Supply

def steps (supply : Supply) : List LexStep := supply.tokens.map .token

/-- The parser has consumed all but tokens of the given kinds. -/
def Ahead (supply : Supply) (rest : List TokenKind) (state : ParseState) : Prop :=
  ∃ number, state.stream.Reading supply.steps supply.budget number ∧ number ≤ supply.tokens.length ∧
    (supply.tokens.drop number).map (·.kind) = rest

section

variable {supply : Supply} {number : Nat} {stream : TokenStream}

private theorem tokenAt_steps (supply : Supply) (number : Nat) :
    tokenAt supply.steps number = supply.tokens[number]? := by
  rw [tokenAt, steps, List.getElem?_map]
  cases supply.tokens[number]? <;> rfl

private theorem ahead_of_exhausted (reading : stream.Reading supply.steps supply.budget number)
    (exhausted : stream.exhausted = true) (index : Nat) :
    stream.lookahead[index]? = supply.tokens[number + index]? := by
  have count := reading.count
  rw [← tokenAt_steps]
  cases there : stream.lookahead[index]? with
  | some token => exact (reading.ahead index token there).symm
  | none =>
    have behind := List.getElem?_eq_none_iff.mp there
    exact (reading.ended exhausted (number + index) (by omega)).symm

private theorem fill_exhausted (exhausted : stream.exhausted = true) (missing : Nat) :
    TokenStream.fill missing stream = (.ok (), stream) := by
  cases missing with
  | zero => rfl
  | succ missing => simp only [TokenStream.fill, exhausted, ↓reduceIte]

private theorem fill_ok (reading : stream.Reading supply.steps supply.budget number) (missing : Nat) :
    ∃ after, TokenStream.fill missing stream = (.ok (), after) ∧ after.Reading supply.steps supply.budget number ∧
      ∀ index < stream.lookahead.length + missing, after.lookahead[index]? = supply.tokens[number + index]? := by
  induction missing generalizing stream with
  | zero =>
    refine ⟨stream, rfl, reading, fun index inside => ?_⟩
    have there := reading.ahead index _ (List.getElem?_eq_getElem inside)
    rw [List.getElem?_eq_getElem inside, ← there, tokenAt_steps]
  | succ missing ih =>
    cases exhausted : stream.exhausted with
    | true =>
      exact ⟨stream, fill_exhausted exhausted _, reading, fun index _ => ahead_of_exhausted reading exhausted index⟩
    | false =>
      simp only [TokenStream.fill, exhausted, Bool.false_eq_true, ↓reduceIte]
      cases there : tokenAt supply.steps stream.scanned with
      | none =>
        obtain ⟨after, fetched, reading', ended, _⟩ := reading.fetch_ended exhausted there
        simp only [fetched, fill_exhausted ended]
        exact ⟨after, rfl, reading', fun index _ => ahead_of_exhausted reading' ended index⟩
      | some token =>
        have inside : stream.scanned < supply.tokens.length := by
          rw [tokenAt_steps] at there
          exact (List.getElem?_eq_some_iff.mp there).1
        have room : stream.scanned < supply.budget := Nat.lt_of_lt_of_le inside supply.fits
        rcases reading.fetch_found exhausted there with ⟨full, _⟩ | ⟨_, after, fetched, reading', ahead, _⟩
        · omega
        · simp only [fetched]
          obtain ⟨last, filled, reading'', found⟩ := ih reading'
          refine ⟨last, filled, reading'', fun index inside => found index ?_⟩
          rw [ahead, List.length_append, List.length_singleton]
          omega

private theorem peek_ok (reading : stream.Reading supply.steps supply.budget number) {index : Nat}
    (near : index ≤ maxLookahead) :
    ∃ after, stream.peek index = (.ok supply.tokens[number + index]?, after) ∧
      after.Reading supply.steps supply.budget number := by
  obtain ⟨filled, fills, reading', found⟩ := fill_ok reading (index + 1 - stream.lookahead.length)
  have there := found index (by omega)
  have within : ¬ maxLookahead < index := by omega
  simp only [TokenStream.peek, within, ↓reduceIte, TokenStream.fillTo, fills]
  split
  next => exact ⟨{ filled with observedEnd := true }, by rw [← there], { reading' with }⟩
  next => exact ⟨_, by rw [← there], reading'⟩

private theorem next_ok (reading : stream.Reading supply.steps supply.budget number) {token : Token}
    (there : supply.tokens[number]? = some token) :
    ∃ after, stream.next = (.ok (some token), after) ∧ after.Reading supply.steps supply.budget (number + 1) := by
  obtain ⟨filled, fills, reading', found⟩ := fill_ok reading (0 + 1 - stream.lookahead.length)
  have first := found 0 (by omega)
  rw [Nat.add_zero, there, ← List.head?_eq_getElem?] at first
  obtain ⟨later, front⟩ := List.head?_eq_some_iff.mp first
  obtain ⟨after, taken, reading'', -, -⟩ := reading'.next front (supply.legal token (List.mem_of_getElem? there))
  refine ⟨after, ?_, reading''⟩
  have again : filled.fillTo 0 = (.ok (), filled) := by
    rw [TokenStream.fillTo, front, List.length_cons, show 0 + 1 - (later.length + 1) = 0 by omega]
    rfl
  have fillsTo : stream.fillTo 0 = (.ok (), filled) := fills
  rw [← taken, TokenStream.next, TokenStream.next, fillsTo, again]

end

section

variable {supply : Supply} {rest : List TokenKind} {state : ParseState}

theorem Ahead.peek (ahead : supply.Ahead rest state) {index : Nat} (near : index ≤ maxLookahead) :
    ∃ found after, Parse.peek index state = .ok found after ∧ supply.Ahead rest after ∧
      found.map (·.kind) = rest[index]? := by
  obtain ⟨number, reading, within, kinds⟩ := ahead
  obtain ⟨after, peeked, reading'⟩ := peek_ok reading near
  refine ⟨_, _, Parse.onStream_ok peeked, ⟨number, reading', within, kinds⟩, ?_⟩
  rw [← kinds, List.getElem?_map, List.getElem?_drop]

theorem Ahead.bump {kind : TokenKind} (ahead : supply.Ahead (kind :: rest) state) :
    ∃ after, Parse.bump state = .ok () after ∧ supply.Ahead rest after := by
  obtain ⟨number, reading, within, kinds⟩ := ahead
  have inside : number < supply.tokens.length := by
    have length := congrArg List.length kinds
    simp only [List.length_map, List.length_drop, List.length_cons] at length
    omega
  obtain ⟨after, taken, reading'⟩ := next_ok reading (List.getElem?_eq_getElem inside)
  refine ⟨_, Parse.bump_some taken, number + 1, reading', inside, ?_⟩
  rw [List.drop_eq_getElem_cons inside, List.map_cons] at kinds
  exact (List.cons.inj kinds).2

theorem Ahead.remaining (ahead : supply.Ahead rest state) :
    state.remaining = supply.budget - supply.tokens.length + rest.length := by
  obtain ⟨number, reading, within, rfl⟩ := ahead
  have fits := supply.fits
  rw [ParseState.remaining, reading.remaining, List.length_map, List.length_drop]
  omega

theorem Ahead.tail_eq_none (ahead : supply.Ahead rest state) : state.stream.tail = none := by
  obtain ⟨number, reading, _, _⟩ := ahead
  rw [reading.tail]
  split
  next =>
    rw [steps, List.getLast?_map]
    cases supply.tokens.getLast? <;> rfl
  next => rfl

end

end Supply

end GoPrompt
