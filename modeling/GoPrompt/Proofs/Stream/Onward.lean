import GoPrompt.Grammar.Levels
import GoPrompt.Proofs.Lexical.Collected
import GoPrompt.Proofs.Parse.Run
import GoPrompt.Proofs.Stream.Calls

/-! The stream only goes on: nothing that the parser does gives back a token, takes back what has been
scanned or forgets that the text has ended. -/

namespace GoPrompt

namespace TokenStream

/-- The lexer of a stream stands in the text of the stream, and when the stream has come to the end of the text with
nothing cut off, the text is within the offsets that there are. -/
structure Trails (stream : TokenStream) : Prop where
  place : stream.lexer.offset + byteSize stream.lexer.rest = byteSize stream.text
  fits : stream.exhausted = true → stream.tail = none → byteSize stream.text ≤ maxOffset

/-- A stream of the same text that has scanned or given away more within the budget, and forgets nothing. -/
structure Onward (before after : TokenStream) : Prop where
  text : after.text = before.text
  consumed : before.consumed ≤ after.consumed
  scanned : before.scanned ≤ after.scanned
  exhausted : before.exhausted = true → after.exhausted = true
  begun : before.lastConsumed ≠ none → after.lastConsumed ≠ none
  budget : after.maxTokens = before.maxTokens
  within : before.scanned ≤ before.maxTokens → after.scanned ≤ after.maxTokens
  trails : before.Trails → after.Trails

theorem Onward.refl (stream : TokenStream) : stream.Onward stream :=
  ⟨rfl, Nat.le_refl _, Nat.le_refl _, id, id, rfl, id, id⟩

theorem Onward.trans {first second third : TokenStream} (before : first.Onward second) (after : second.Onward third) :
    first.Onward third :=
  ⟨after.text.trans before.text, Nat.le_trans before.consumed after.consumed, Nat.le_trans before.scanned after.scanned,
    after.exhausted ∘ before.exhausted, after.begun ∘ before.begun, after.budget.trans before.budget,
    after.within ∘ before.within, after.trails ∘ before.trails⟩

private theorem fetch_onward (stream : TokenStream) : stream.Onward stream.fetch.2 := by
  have placed := stream.lexer.next_place
  have fetches := stream.fetch_fetches
  generalize stream.fetch = outcome at fetches ⊢
  cases fetches with
  | fault answered | refused answered =>
    rw [answered] at placed
    exact ⟨rfl, Nat.le_refl _, Nat.le_refl _, id, id, rfl, id, fun trails => ⟨placed.trans trails.place, trails.fits⟩⟩
  | found answered _ room =>
    rw [answered] at placed
    refine ⟨rfl, by simp [consumed, withFound], Nat.le_succ _, fun exhausted => by simp [withFound, exhausted], id, rfl,
      fun _ => room, fun trails => ⟨placed.trans trails.place, fun exhausted whole => ?_⟩⟩
    obtain ⟨uncut, whole⟩ := Option.or_eq_none_iff.mp whole
    exact trails.fits (by simpa [withFound, uncut] using exhausted) whole
  | @ended step _ answered ends =>
    rw [answered] at placed
    refine ⟨rfl, Nat.le_refl _, Nat.le_refl _, fun _ => rfl, id, rfl, id,
      fun trails => ⟨placed.trans trails.place, fun _ whole => ?_⟩⟩
    have place := placed.trans trails.place
    cases step with
    | token | truncated | invalid => cases ends
    | incomplete => cases whole
    | endOfInput =>
      obtain ⟨empty, within⟩ := Lexer.next_ended answered
      simp only [empty, byteSize_nil, Nat.add_zero] at place
      exact place ▸ within

theorem Onward.noteEnd {before after : TokenStream} (onward : before.Onward after) : before.Onward after.noteEnd :=
  { onward with trails := fun trails => ⟨(onward.trails trails).place, (onward.trails trails).fits⟩ }

theorem fill_onward (missing : Nat) (stream : TokenStream) : stream.Onward (fill missing stream).2 :=
  fill_keeps stream.Onward (·.trans (fetch_onward _)) missing (.refl stream)

theorem peek_onward (index : Nat) (stream : TokenStream) : stream.Onward (stream.peek index).2 :=
  peek_keeps stream.Onward (·.trans (fetch_onward _)) .noteEnd index (.refl stream)

theorem next_onward (stream : TokenStream) : stream.Onward stream.next.2 := by
  have onward : stream.Onward (stream.fillTo 0).2 := fill_onward _ stream
  obtain served | ⟨_, filled, fills, served⟩ | ⟨filled, fills, served⟩ := serve_cases .next stream <;>
    rw [show stream.next = _ from served]
  · exact .refl stream
  · rwa [show stream.fillTo 0 = _ from fills] at onward
  · rw [show stream.fillTo 0 = _ from fills] at onward
    dsimp only [settle]
    split
    next => exact onward.noteEnd
    next token later ahead =>
      refine ⟨onward.text, Nat.le_trans onward.consumed ?_, onward.scanned, onward.exhausted, nofun, onward.budget,
        onward.within, fun trails => ⟨(onward.trails trails).place, (onward.trails trails).fits⟩⟩
      simp only [consumed, ahead, List.length_cons]
      omega

private theorem fetch_ahead {stream after : TokenStream} (fetched : stream.fetch = (.ok (), after)) :
    after.lookahead.length = stream.lookahead.length + 1 ∨ after.exhausted = true := by
  have fetches := stream.fetch_fetches
  rw [fetched] at fetches
  cases fetches with
  | found => exact .inl (by simp [withFound])
  | ended => exact .inr rfl

theorem fill_ahead {missing : Nat} {stream after : TokenStream} (filled : fill missing stream = (.ok (), after)) :
    stream.lookahead.length + missing ≤ after.lookahead.length ∨ after.exhausted = true := by
  fun_induction fill missing stream with
  | case1 =>
    cases filled
    exact .inl (Nat.le_refl _)
  | case2 _ _ exhausted =>
    cases filled
    exact .inr exhausted
  | case3 missing stream _ fetched fetches further =>
    rcases fetch_ahead fetches with longer | exhausted
    · exact (further filled).imp_left fun enough => by omega
    · exact .inr (by simpa only [filled] using (fill_onward missing fetched).exhausted exhausted)
  | case4 _ _ _ failed => exact absurd filled (failed after)

theorem peek_exhausted {stream after : TokenStream} (peeked : stream.peek 0 = (.ok none, after)) :
    after.exhausted = true := by
  obtain ⟨filled, fills, missing, same⟩ := of_peek peeked
  have none : filled.lookahead[0]? = none := by rcases same with rfl | rfl <;> exact missing.symm
  have exhausted : filled.exhausted = true := by
    refine (fill_ahead fills).resolve_left fun longer => ?_
    rw [List.getElem?_eq_none_iff] at none
    omega
  rcases same with rfl | rfl <;> exact exhausted

end TokenStream

namespace Parse

variable {α β : Type}

/-- A computation that only ever goes on in its stream. -/
def Onwards (program : Parse α) : Prop := ∀ state, match program state with
  | .ok _ after | .error _ after => state.stream.Onward after.stream

theorem onwards_onStream {operation : TokenStream → Except ParseError α × TokenStream}
    (onward : ∀ stream : TokenStream, stream.Onward (operation stream).2) : Onwards (onStream operation) := by
  intro state
  have moved := onward state.stream
  unfold onStream
  generalize operation state.stream = answer at moved ⊢
  rcases answer with ⟨result, after⟩
  cases result <;> exact moved

theorem Onwards.bind {program : Parse α} {next : α → Parse β} (onwards : Onwards program)
    (later : ∀ value, Onwards (next value)) : Onwards (program >>= next) := by
  intro state
  have moved := onwards state
  cases ran : program state with
  | ok value reached =>
    rw [ran] at moved
    have moved' := later value reached
    rw [bind_ok ran]
    cases ran' : next value reached <;> rw [ran'] at moved' <;> exact moved.trans moved'
  | error failure reached =>
    rw [ran] at moved
    rw [bind_error ran]
    exact moved

theorem onwards_throw (failure : Failure) : Onwards (throw failure : Parse α) := fun state => .refl state.stream

theorem onwards_endOfInput (expected : List String) : Onwards (endOfInput expected : Parse α) :=
  fun state => .refl state.stream

theorem onwards_peek (index : Nat) : Onwards (peek index) := onwards_onStream fun stream => stream.peek_onward index

theorem onwards_bump : Onwards bump := by
  refine (onwards_onStream TokenStream.next_onward).bind fun found => ?_
  cases found with
  | none => exact onwards_endOfInput _
  | some token => exact fun state => .refl state.stream

private theorem onwards_modify {change : ParseState → ParseState}
    (onward : ∀ state : ParseState, state.stream.Onward (change state).stream) :
    Onwards (modify change : Parse PUnit) :=
  onward

private theorem onwards_get : Onwards (get : Parse ParseState) := fun state => .refl state.stream

theorem onwards_unexpected (token : Token) (expected : List String) :
    Onwards (unexpected token expected : Parse α) := by
  unfold unexpected
  split
  next =>
    refine (onwards_modify fun state => ?_).bind fun _ => onwards_throw _
    exact ⟨rfl, Nat.le_refl _, Nat.le_refl _, id, id, rfl, id, fun trails => ⟨trails.place, trails.fits⟩⟩
  next =>
    refine onwards_get.bind fun state => ?_
    split <;> exact onwards_throw _
  next => exact onwards_throw _

theorem onwards_beyondLimit (limit : Nat) : Onwards (Grammar.beyondLimit limit : Parse α) := by
  have deeper : Onwards (modify fun state : ParseState => { state with depth := state.depth + 1 }) :=
    onwards_modify fun state => .refl state.stream
  exact deeper.bind fun _ => (onwards_peek 0).bind fun _ => onwards_throw _

end Parse

end GoPrompt
