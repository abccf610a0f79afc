import GoPrompt.Proofs.Calls.Progress
import GoPrompt.Proofs.Lexical.Order
import GoPrompt.Proofs.Stream.Lookahead
import GoPrompt.Proofs.Stream.Visits

/-! The states that a parser comes by. It looks ahead, takes tokens and counts levels, over any text and also behind a
step that has failed. In all of them the tokens are counted, and whatever is ahead stands behind the last token
consumed. -/

namespace GoPrompt

namespace Lexer

private theorem next_offset_le (lexer : Lexer) : lexer.offset ≤ lexer.next.2.offset := by
  obtain ⟨length, armed, answered⟩ := lexer.next_skips
  rw [answered]
  exact Nat.le_add_right _ _

end Lexer

/-- Tokens one behind the other, between two places of a text. -/
def Spread : Nat → List Token → Nat → Prop
  | first, [], last => first ≤ last
  | first, token :: later, last => first ≤ token.span.start ∧ Spread token.span.stop later last

namespace Spread

variable {first middle last : Nat} {token : Token} {tokens : List Token}

theorem mono (spread : Spread first tokens middle) (further : middle ≤ last) : Spread first tokens last := by
  induction tokens generalizing first with
  | nil => exact Nat.le_trans spread further
  | cons token later ih => exact ⟨spread.1, ih spread.2⟩

theorem concat (spread : Spread first tokens middle) (behind : middle ≤ token.span.start)
    (within : token.span.stop ≤ last) :
    Spread first (tokens ++ [token]) last := by
  induction tokens generalizing first with
  | nil => exact ⟨Nat.le_trans spread behind, within⟩
  | cons token later ih => exact ⟨spread.1, ih spread.2⟩

end Spread

namespace TokenStream

/-- All that a stream has still to give stands behind a place. -/
def Behind (stream : TokenStream) (place : Nat) : Prop := Spread place stream.lookahead stream.lexer.offset

variable {stream : TokenStream} {place : Nat}

theorem Behind.fetch (behind : stream.Behind place) : stream.fetch.2.Behind place := by
  have fetches := stream.fetch_fetches
  generalize stream.fetch = outcome at fetches ⊢
  have onward := stream.lexer.next_offset_le
  cases fetches with
  | fault answered | refused answered | ended answered =>
    rw [answered] at onward
    exact Spread.mono behind onward
  | found answered isToken =>
    obtain ⟨begins, ends⟩ := (Lexer.Reads.of_next answered).span isToken
    exact Spread.concat behind begins (Nat.le_of_eq ends.symm)

theorem Behind.fill (behind : stream.Behind place) (missing : Nat) : (fill missing stream).2.Behind place :=
  fill_keeps (·.Behind place) Behind.fetch missing behind

theorem Behind.peek (behind : stream.Behind place) (index : Nat) : (stream.peek index).2.Behind place :=
  peek_keeps (·.Behind place) Behind.fetch id index behind

/-- What is behind a place does not come back when it is skipped, and the token that is taken stands between the place
and all the others. -/
theorem Behind.next (behind : stream.Behind place) :
    stream.next.2.Behind place ∧ ∀ token, stream.next.1 = .ok (some token) →
      place ≤ token.span.start ∧ stream.next.2.Behind token.span.stop := by
  have filled : (stream.fillTo 0).2.Behind place := behind.fill _
  obtain served | ⟨_, _, fills, served⟩ | ⟨_, fills, served⟩ := serve_cases .next stream <;>
    rw [show stream.next = _ from served]
  · exact ⟨behind, nofun⟩
  · rw [show stream.fillTo 0 = _ from fills] at filled
    exact ⟨filled, nofun⟩
  · rw [show stream.fillTo 0 = _ from fills] at filled
    dsimp only [settle, StreamCall.reach]
    unfold Behind at filled
    split
    next front => exact ⟨filled, by simp [front]⟩
    next token later front =>
      rw [front] at filled ⊢
      obtain ⟨begins, rest⟩ := filled
      refine ⟨?_, ?_⟩
      · cases later with
        | nil => exact Nat.le_trans (Nat.le_trans begins token.span.ordered) rest
        | cons next later => exact ⟨Nat.le_trans (Nat.le_trans begins token.span.ordered) rest.1, rest.2⟩
      · rintro _ ⟨⟩
        exact ⟨begins, rest⟩

section

variable {lexer : Lexer} {steps : List LexStep} {number : Nat}

/-- A stream that has given away the first tokens, and keeps the kind of the last one. -/
structure Recalls (steps : List LexStep) (number : Nat) (stream : TokenStream) :
    Prop extends stream.Serves steps number where
  recalls : stream.lastConsumed = ((LexStep.kinds steps).take number).getLast?

theorem Recalls.consumed (recalls : stream.Recalls steps number) : stream.consumed = number := by
  have length := recalls.length
  have taken := recalls.taken
  rw [TokenStream.consumed]
  omega

theorem Recalls.peek (recalls : stream.Recalls steps number) (lexes : lexer.Lexes steps) (index : Nat) :
    (stream.peek index).2.Recalls steps number := by
  by_cases near : index ≤ maxLookahead
  · obtain ⟨after, served, serves, -⟩ := recalls.serve lexes (.peek index) near
    have few : number ≤ (LexStep.tokens steps).length := Nat.le_trans recalls.taken recalls.scanned
    have same : (stream.peek index).2 = after := congrArg Prod.snd served
    refine ⟨same ▸ Nat.min_eq_left few ▸ serves, ?_⟩
    rw [← (stream.peek_given index).lastConsumed, recalls.recalls]
  · rwa [show stream.peek index = _ from serve_far (.peek index) (Nat.lt_of_not_le near)]

theorem Recalls.next (recalls : stream.Recalls steps number) (lexes : lexer.Lexes steps) :
    stream.next.2.Recalls steps (min (number + 1) (LexStep.tokens steps).length) := by
  obtain ⟨after, served, serves, -⟩ := recalls.serve lexes .next (Nat.zero_le _)
  have answered : stream.next = (.ok (LexStep.tokens steps)[number]?, after) := served
  have oneMore : [StreamCall.next].count .next = 1 := rfl
  rw [oneMore] at serves
  rw [answered]
  obtain ⟨filled, fills, -⟩ := recalls.fillTo lexes 0
  have kept := (fill_given (0 + 1 - stream.lookahead.length) stream).lastConsumed
  rw [show fill (0 + 1 - stream.lookahead.length) stream = _ from fills] at kept
  refine ⟨serves, ?_⟩
  cases isNext : (LexStep.tokens steps)[number]? with
  | none =>
    have all : (LexStep.tokens steps).length = number :=
      Nat.le_antisymm (List.getElem?_eq_none_iff.mp isNext) (Nat.le_trans recalls.taken recalls.scanned)
    rw [all, Nat.min_eq_right (Nat.le_succ number), ← recalls.recalls, kept]
    unfold TokenStream.next at answered
    rw [fills, isNext] at answered
    dsimp only at answered
    split at answered <;> cases answered
    rfl
  | some token =>
    have less := (List.getElem?_eq_some_iff.mp isNext).1
    have isKind : (LexStep.kinds steps)[number]? = some token.kind := by
      rw [LexStep.kinds, List.getElem?_map, isNext]
      rfl
    rw [Nat.min_eq_left less, List.take_add_one, isKind, Option.toList_some, List.getLast?_concat]
    unfold TokenStream.next at answered
    rw [fills, isNext] at answered
    dsimp only at answered
    split at answered <;> cases answered
    rfl

end

end TokenStream

/-- A state that a parser can come to, whatever it reads and however its calls end. -/
inductive ParseState.Reached : ParseState → Prop
  | ofText (text : List Char) (maxTokens : Nat) : Reached { stream := .ofText text maxTokens }
  | peek {state : ParseState} (reached : Reached state) (index : Nat) :
      Reached { state with stream := (state.stream.peek index).2 }
  | skip {state : ParseState} (reached : Reached state) : Reached { state with stream := state.stream.next.2 }
  | take {state : ParseState} {token : Token} {stream : TokenStream} (reached : Reached state)
      (took : state.stream.next = (.ok (some token), stream)) :
      Reached { state with stream := stream, lastSpan := token.span }
  | noteEnd {state : ParseState} (reached : Reached state) : Reached { state with stream := state.stream.noteEnd }
  | atDepth {state : ParseState} (reached : Reached state) (depth : Nat) : Reached { state with depth := depth }

namespace ParseState.Reached

variable {state : ParseState}

theorem counts (reached : state.Reached) : state.stream.Counts := by
  induction reached with
  | ofText text maxTokens => exact TokenStream.ofText_counts text maxTokens
  | peek _ index ih =>
    obtain ⟨own, number, counted⟩ := ih
    exact ⟨own, number, TokenStream.peek_counted index counted⟩
  | skip _ ih =>
    obtain ⟨own, number, counted⟩ := ih
    obtain ⟨more, counted, -⟩ := TokenStream.next_consumes counted
    exact ⟨own, _, counted⟩
  | take _ took ih =>
    obtain ⟨own, number, counted⟩ := ih
    obtain ⟨more, counted, -⟩ := TokenStream.next_consumes counted
    rw [took] at counted
    exact ⟨own, _, counted⟩
  | noteEnd _ ih =>
    obtain ⟨own, number, counted⟩ := ih
    exact ⟨own, number, counted.budget, counted.count, counted.within⟩
  | atDepth _ _ ih => exact ih

theorem behind (reached : state.Reached) : state.stream.Behind state.lastSpan.stop := by
  induction reached with
  | ofText text maxTokens => exact Nat.zero_le _
  | peek _ index ih => exact ih.peek index
  | skip _ ih => exact ih.next.1
  | take _ took ih =>
    have taken := ih.next.2
    rw [took] at taken
    exact (taken _ rfl).2
  | noteEnd _ ih => exact ih
  | atDepth _ _ ih => exact ih

/-- With room for all tokens of the text, those consumed are the first ones. -/
theorem recalls {steps : List LexStep} {last : Lexer} (reached : state.Reached)
    (collects : (Lexer.ofText 0 state.stream.text).Collects steps last)
    (room : (LexStep.tokens steps).length ≤ state.stream.maxTokens) :
    ∃ number, state.stream.Recalls steps number := by
  induction reached with
  | ofText text maxTokens => exact ⟨0, TokenStream.ofText_serves collects room, rfl⟩
  | @peek state _ index ih =>
    have onward := state.stream.peek_onward index
    obtain ⟨number, recalls⟩ := ih (onward.text ▸ collects) (onward.budget ▸ room)
    exact ⟨number, recalls.peek collects.lexes index⟩
  | @skip state _ ih =>
    have onward := state.stream.next_onward
    obtain ⟨number, recalls⟩ := ih (onward.text ▸ collects) (onward.budget ▸ room)
    exact ⟨_, recalls.next collects.lexes⟩
  | @take state token stream _ took ih =>
    have onward := state.stream.next_onward
    rw [took] at onward
    obtain ⟨number, recalls⟩ := ih (onward.text ▸ collects) (onward.budget ▸ room)
    have taken := recalls.next collects.lexes
    rw [took] at taken
    exact ⟨_, taken⟩
  | noteEnd _ ih =>
    obtain ⟨number, recalls⟩ := ih collects room
    exact ⟨number, recalls.noteEnd, recalls.recalls⟩
  | atDepth _ _ ih => exact ih collects room

end ParseState.Reached

namespace Parse

variable {α : Type}

theorem onStream_leaves (operation : TokenStream → Except ParseError α × TokenStream) (state : ParseState) :
    match onStream operation state with
    | .ok _ after | .error _ after => after = { state with stream := (operation state.stream).2 } := by
  rcases answered : operation state.stream with ⟨result, stream⟩
  cases result with
  | ok value => rw [onStream_ok answered]
  | error error => rw [onStream_error answered]

theorem bump_leaves (state : ParseState) :
    match bump state with
    | .ok _ after => ∃ token stream, state.stream.next = (.ok (some token), stream) ∧
        after = { state with stream := stream, lastSpan := token.span }
    | .error _ after => after = { state with stream := state.stream.next.2 } := by
  rcases took : state.stream.next with ⟨result, stream⟩
  match result with
  | .ok (some token) =>
    rw [bump_some took]
    exact ⟨token, stream, rfl, rfl⟩
  | .ok none =>
    have ran : bump state = (endOfInput ["token"] : Parse Unit) { state with stream := stream } :=
      bind_ok (onStream_ok took)
    rw [ran]
    rfl
  | .error error =>
    have ran : bump state = .error _ _ := bind_error (onStream_error took)
    rw [ran]

end Parse

end GoPrompt
