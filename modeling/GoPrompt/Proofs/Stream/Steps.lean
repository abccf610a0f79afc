import GoPrompt.Proofs.Parse.Run
import GoPrompt.Proofs.Stream.Calls
import GoPrompt.Proofs.Stream.Reading

/-! What the grammar finds when it looks at tokens, consumes them and fails because of them. Between two of
its decisions at most the next token has been looked at, and no token behind it.

What a stream keeps of the tokens that it has given away: the delimiters among them that are still open, and the
last one. Looking ahead changes nothing of it. -/

namespace GoPrompt

namespace TokenStream

/-- At most the next token has been looked at. -/
structure Settled (steps : List LexStep) (limit number : Nat) (stream : TokenStream) : Prop
    extends stream.Reading steps limit number where
  short : stream.lookahead.length ≤ 1
  fresh : stream.lookahead ≠ [] → stream.exhausted = true → CutsOff steps number

/-- The next token has been looked at, or the lack of one has been observed. -/
structure Seen (steps : List LexStep) (limit number : Nat) (found : Option Token) (stream : TokenStream) : Prop
    extends stream.Reading steps limit number where
  front : stream.lookahead = found.toList
  fresh : found ≠ none → stream.exhausted = true → CutsOff steps number
  missing : found = none → stream.exhausted = true ∧ stream.observedEnd = true

/-- A name and what follows it have been looked at. -/
structure Window (steps : List LexStep) (limit number : Nat) (name : Token) (following : Option Token)
    (stream : TokenStream) : Prop extends stream.Reading steps limit number where
  named : name.kind = .identifier
  front : stream.lookahead = name :: following.toList
  fresh : following ≠ none → stream.exhausted = true → CutsOff steps (number + 1)
  missing : following = none → stream.exhausted = true

section

variable {steps : List LexStep} {limit number : Nat} {stream : TokenStream} {found following : Option Token}
  {token name : Token}

theorem Seen.isNext (seen : stream.Seen steps limit number found) : tokenAt steps number = found := by
  cases found with
  | some token => exact seen.ahead 0 token (by rw [seen.front]; rfl)
  | none =>
    refine seen.ended (seen.missing rfl).1 number ?_
    rw [seen.count, seen.front]
    exact Nat.le_refl _

theorem Seen.settled (seen : stream.Seen steps limit number found) : stream.Settled steps limit number where
  toReading := seen.toReading
  short := by
    rw [seen.front]
    cases found <;> simp
  fresh := by
    intro nonempty
    refine seen.fresh fun none => nonempty ?_
    rw [seen.front, none]
    rfl

theorem Seen.room (seen : stream.Seen steps limit number found) (some : found.isSome = true) : number < limit := by
  obtain ⟨token, rfl⟩ := Option.isSome_iff_exists.mp some
  have count := seen.count
  rw [seen.front] at count
  exact Nat.lt_of_lt_of_le (count ▸ Nat.lt_succ_self number) seen.within

theorem Window.room (window : stream.Window steps limit number name following) (some : following.isSome = true) :
    number + 1 < limit := by
  obtain ⟨token, rfl⟩ := Option.isSome_iff_exists.mp some
  have count := window.count
  rw [window.front] at count
  exact Nat.lt_of_lt_of_le (count ▸ Nat.lt_succ_self (number + 1)) window.within

theorem fill_one (stream : TokenStream) :
    fill 1 stream = if stream.exhausted then (.ok (), stream) else stream.fetch := by
  simp only [fill]
  split
  next => rfl
  next =>
    rcases stream.fetch with ⟨result, after⟩
    cases result <;> rfl

/-- What one more fetch brings: the token behind those ahead, unless the budget has no room for it. -/
theorem Reading.fill_one (reading : stream.Reading steps limit number) :
    (limit ≤ stream.scanned ∧ ∃ token after, tokenAt steps stream.scanned = some token ∧
      fill 1 stream = (.error (.tokenLimitExceeded limit token.span), after)) ∨
    ∃ after, fill 1 stream = (.ok (), after) ∧ after.Reading steps limit number ∧
      after.lookahead = stream.lookahead ++ (tokenAt steps stream.scanned).toList ∧
      (tokenAt steps stream.scanned ≠ none → after.exhausted = true → CutsOff steps stream.scanned) ∧
      (tokenAt steps stream.scanned = none → after.exhausted = true) := by
  rw [TokenStream.fill_one]
  cases exhausted : stream.exhausted with
  | true =>
    have none := reading.ended exhausted _ (Nat.le_refl _)
    rw [none]
    exact .inr ⟨stream, rfl, reading, by simp, fun some => absurd rfl some, fun _ => exhausted⟩
  | false =>
    rw [if_neg Bool.false_ne_true]
    cases there : tokenAt steps stream.scanned with
    | none =>
      obtain ⟨after, fetched, reading', ended, same⟩ := reading.fetch_ended exhausted there
      exact .inr ⟨after, fetched, reading', by simp [same], fun some => absurd rfl some, fun _ => ended⟩
    | some token =>
      rcases reading.fetch_found exhausted there with
        ⟨full, after, failed⟩ | ⟨room, after, fetched, reading', ahead, fresh⟩
      · exact .inl ⟨full, token, after, rfl, failed⟩
      · exact .inr ⟨after, fetched, reading', ahead, fun _ => fresh, fun none => by cases none⟩

/-- Looking at the next token finds the one that the text has there. -/
theorem Settled.peek (settled : stream.Settled steps limit number) :
    (limit ≤ number ∧ stream.lookahead = [] ∧ ∃ token after, tokenAt steps number = some token ∧
      stream.peek 0 = (.error (.tokenLimitExceeded limit token.span), after)) ∨
    ∃ after, stream.peek 0 = (.ok (tokenAt steps number), after) ∧
    after.Seen steps limit number (tokenAt steps number) := by
  have within : ¬ maxLookahead < 0 := Nat.not_lt_zero _
  cases ahead : stream.lookahead with
  | cons token later =>
    have short := settled.short
    rw [ahead] at short
    obtain rfl : later = [] := List.length_eq_zero_iff.mp (Nat.le_zero.mp (Nat.le_of_succ_le_succ short))
    have there := settled.ahead 0 token (by rw [ahead]; rfl)
    refine .inr ⟨stream, ?_, ?_⟩
    · rw [show tokenAt steps number = some token from there]
      simp [TokenStream.peek, within, fillTo, ahead, fill]
    · rw [show tokenAt steps number = some token from there]
      exact ⟨settled.toReading, ahead, fun _ => settled.fresh (by simp [ahead]), fun none => by cases none⟩
  | nil =>
    have scanned : stream.scanned = number := by
      rw [settled.count, ahead]
      rfl
    have fills : stream.fillTo 0 = fill 1 stream := by simp [fillTo, ahead]
    rcases settled.fill_one with ⟨full, token, after, there, failed⟩ | ⟨after, filled, reading, front, fresh, missing⟩
    · rw [scanned] at full there
      refine .inl ⟨full, rfl, token, after, there, ?_⟩
      simp only [TokenStream.peek, within, ↓reduceIte, fills, failed]
    · rw [scanned] at front fresh missing
      rw [ahead, List.nil_append] at front
      right
      simp only [TokenStream.peek, within, ↓reduceIte, fills, filled, front]
      cases there : tokenAt steps number with
      | none =>
        rw [there] at front fresh missing
        refine ⟨{ after with observedEnd := true }, by simp [front], ?_⟩
        exact ⟨{ reading with }, front, fresh, fun _ => ⟨missing rfl, rfl⟩⟩
      | some token =>
        rw [there] at front fresh
        exact ⟨after, by simp [front], reading, front, fresh, fun none => by cases none⟩

theorem Seen.peekBeyond (seen : stream.Seen steps limit number (some name)) (named : name.kind = .identifier) :
    (limit ≤ number + 1 ∧ ∃ token after, tokenAt steps (number + 1) = some token ∧
      stream.peek 1 = (.error (.tokenLimitExceeded limit token.span), after)) ∨
    ∃ after, stream.peek 1 = (.ok (tokenAt steps (number + 1)), after) ∧
      after.Window steps limit number name (tokenAt steps (number + 1)) := by
  have within : ¬ maxLookahead < 1 := by decide
  have ahead : stream.lookahead = [name] := seen.front
  have scanned : stream.scanned = number + 1 := by
    rw [seen.count, ahead]
    rfl
  have fills : stream.fillTo 1 = fill 1 stream := by simp [fillTo, ahead]
  rcases seen.fill_one with ⟨full, token, after, there, failed⟩ | ⟨after, filled, reading, front, fresh, missing⟩
  · rw [scanned] at full there
    refine .inl ⟨full, token, after, there, ?_⟩
    simp only [TokenStream.peek, within, ↓reduceIte, fills, failed]
  · rw [scanned] at front fresh missing
    rw [ahead, List.singleton_append] at front
    refine .inr ⟨after, ?_, reading, named, front, fresh, missing⟩
    simp only [TokenStream.peek, within, ↓reduceIte, fills, filled, Nat.one_ne_zero, false_and, front,
      List.getElem?_cons_succ]
    cases tokenAt steps (number + 1) <;> rfl

theorem peek_front (front : stream.lookahead.head? = some token) : stream.peek 0 = (.ok (some token), stream) := by
  obtain ⟨later, ahead⟩ := List.head?_eq_some_iff.mp front
  simp [TokenStream.peek, fillTo, ahead, fill]

theorem Window.peek (window : stream.Window steps limit number name following) :
    stream.peek 0 = (.ok (some name), stream) :=
  peek_front (by rw [window.front]; rfl)

theorem Placed.next (placed : stream.Placed steps limit number) {later : List Token}
    (front : stream.lookahead = token :: later) :
    ∃ after, stream.next = (.ok (some token), after) ∧ after.Placed steps limit (number + 1) ∧ after.lookahead = later ∧
      after.exhausted = stream.exhausted ∧ after.openDelimiters = delimitersAfter token.kind stream.openDelimiters := by
  have count := placed.count
  have ahead := placed.ahead
  have explained := placed.explained
  rw [front] at count ahead explained
  rw [List.length_cons] at count
  refine ⟨{ stream with
      lookahead := later
      openDelimiters := delimitersAfter token.kind stream.openDelimiters
      lastConsumed := some token.kind }, by simp [TokenStream.next, fillTo, front, fill], ?_, rfl, rfl, rfl⟩
  exact
    { placed with
      count := by
        simp only
        omega
      ahead := fun index found there => by
        rw [show number + 1 + index = number + (index + 1) by omega]
        exact ahead (index + 1) found there
      explained := fun found mem => explained found (List.mem_cons_of_mem _ mem) }

theorem Reading.next (reading : stream.Reading steps limit number) {later : List Token}
    (front : stream.lookahead = token :: later) (legal : token.kind ≠ .illegal) :
    ∃ after, stream.next = (.ok (some token), after) ∧
      after.Reading steps limit (number + 1) ∧ after.lookahead = later ∧ after.exhausted = stream.exhausted := by
  obtain ⟨after, taken, placed, ahead, ended, -⟩ := reading.toPlaced.next front
  refine ⟨after, taken, ⟨placed, fun earlier found less there => ?_⟩, ahead, ended⟩
  rcases Nat.lt_succ_iff_lt_or_eq.mp less with less | rfl
  · exact reading.legal earlier found less there
  · have same := reading.ahead 0 token (by rw [front]; rfl)
    rw [Nat.add_zero, there] at same
    obtain rfl := Option.some.inj same
    exact legal

end

end TokenStream

namespace TokenStream

/-- Streams that keep the same of what they have given away. -/
structure SameGiven (before after : TokenStream) : Prop where
  openDelimiters : before.openDelimiters = after.openDelimiters
  lastConsumed : before.lastConsumed = after.lastConsumed

theorem SameGiven.refl (stream : TokenStream) : stream.SameGiven stream := ⟨rfl, rfl⟩

theorem SameGiven.symm {first second : TokenStream} (same : first.SameGiven second) : second.SameGiven first :=
  ⟨same.openDelimiters.symm, same.lastConsumed.symm⟩

theorem SameGiven.trans {first second third : TokenStream} (before : first.SameGiven second)
    (after : second.SameGiven third) :
    first.SameGiven third :=
  ⟨before.openDelimiters.trans after.openDelimiters, before.lastConsumed.trans after.lastConsumed⟩

/-- Streams that keep the same of their tokens and end within the same construct want more input for the same reason. -/
theorem SameGiven.pendingReason {first second : TokenStream} (given : first.SameGiven second)
    (constructs : first.tail.map (·.construct) = second.tail.map (·.construct)) :
    first.pendingReason = second.pendingReason := by
  unfold TokenStream.pendingReason
  rw [given.openDelimiters, given.lastConsumed]
  cases isTail : first.tail with
  | some =>
    cases isTail' : second.tail with
    | some =>
      rw [isTail, isTail'] at constructs
      exact congrArg PendingReason.cutOff (Option.some.inj constructs)
    | none => simp [isTail, isTail'] at constructs
  | none =>
    cases isTail' : second.tail with
    | some => simp [isTail, isTail'] at constructs
    | none => rfl

private theorem fetch_given (stream : TokenStream) : stream.SameGiven stream.fetch.2 := by
  have fetches := stream.fetch_fetches
  generalize stream.fetch = outcome at fetches ⊢
  cases fetches with
  | fault | refused | found | ended => exact ⟨rfl, rfl⟩

theorem fill_given (missing : Nat) (stream : TokenStream) : stream.SameGiven (fill missing stream).2 :=
  fill_keeps stream.SameGiven (·.trans (fetch_given _)) missing (.refl stream)

theorem peek_given (index : Nat) (stream : TokenStream) : stream.SameGiven (stream.peek index).2 :=
  peek_keeps stream.SameGiven (·.trans (fetch_given _)) (fun given => ⟨given.openDelimiters, given.lastConsumed⟩) index
    (.refl stream)

/-- A stream that gives away its next token, which has been looked at, notes the token. -/
theorem next_given {stream : TokenStream} {token : Token} {later : List Token}
    (front : stream.lookahead = token :: later) :
    stream.next = (.ok (some token),
      { stream with
        lookahead := later
        openDelimiters := delimitersAfter token.kind stream.openDelimiters
        lastConsumed := some token.kind }) := by
  simp [TokenStream.next, fillTo, front, fill]

end TokenStream

namespace Parse

variable {state reached : ParseState}

theorem peek_given {index : Nat} {found : Option Token} (ran : peek index state = .ok found reached) :
    state.stream.SameGiven reached.stream := by
  have same := state.stream.peek_given index
  rwa [of_onStream_ok ran] at same

theorem bump_given {token : Token} {later : List Token} (front : state.stream.lookahead = token :: later)
    (ran : bump state = .ok () reached) :
    reached.stream.openDelimiters = TokenStream.delimitersAfter token.kind state.stream.openDelimiters ∧
      reached.stream.lastConsumed = some token.kind := by
  rw [bump_some (TokenStream.next_given front)] at ran
  cases ran
  exact ⟨rfl, rfl⟩

end Parse

end GoPrompt
