import GoPrompt.Proofs.Stream.Onward
import GoPrompt.Proofs.Stream.Traces

/-! The streams that a parse comes by. A parse looks ahead, takes tokens and notes that it has asked for more input; the
open delimiters of its stream follow from the tokens that it has taken. -/

namespace GoPrompt

theorem foldl_delimitersAfter {opened after : List Operator} {kinds : List TokenKind}
    (matched : unmatched opened kinds = some after) :
    kinds.foldl (fun delimiters kind => TokenStream.delimitersAfter kind delimiters) opened = after := by
  induction kinds generalizing opened with
  | nil => exact Option.some.inj matched
  | cons kind later ih =>
    obtain ⟨between, next, rest⟩ := Option.bind_eq_some_iff.mp matched
    rw [List.foldl_cons, delimitersAfter_eq next]
    exact ih rest

namespace TokenStream

/-- A stream that comes from another one, which has given away these tokens meanwhile. -/
inductive Visits (origin : TokenStream) : List Token → TokenStream → Prop
  | start : Visits origin [] origin
  | peek {taken : List Token} {point after : TokenStream} {index : Nat} {found : Option Token}
      (visits : Visits origin taken point) (peeked : point.peek index = (.ok found, after)) : Visits origin taken after
  | next {taken : List Token} {point after : TokenStream} {token : Token} (visits : Visits origin taken point)
      (took : point.next = (.ok (some token), after)) : Visits origin (taken ++ [token]) after
  | noteEnd {taken : List Token} {point : TokenStream} (visits : Visits origin taken point) :
      Visits origin taken point.noteEnd

variable {stream origin point after : TokenStream} {taken : List Token}

theorem of_next {token : Token} (took : stream.next = (.ok (some token), after)) :
    ∃ filled later, stream.fillTo 0 = (.ok (), filled) ∧ filled.lookahead = token :: later ∧
      filled.next = (.ok (some token), after) := by
  unfold next at took
  split at took
  next => cases took
  next filled fills =>
    split at took
    next => cases took
    next found later front =>
      cases took
      exact ⟨filled, later, fills, front, next_given front⟩

namespace Visits

theorem text (visits : origin.Visits taken point) : point.text = origin.text := by
  induction visits with
  | start => rfl
  | @peek taken point after index found _ peeked ih =>
    have onward := point.peek_onward index
    rw [peeked] at onward
    exact onward.text.trans ih
  | @next taken point after token _ took ih =>
    have onward := point.next_onward
    rw [took] at onward
    exact onward.text.trans ih
  | noteEnd _ ih => exact ih

theorem traces (visits : origin.Visits taken point) (start : origin.Traces []) : point.Traces taken := by
  induction visits with
  | start => exact start
  | peek _ peeked ih => exact ((ih.peek peeked).2 _ rfl).1
  | next _ took ih =>
    obtain ⟨filled, later, fills, front, took⟩ := of_next took
    exact (((ih.fill fills).2 rfl).next front took).1
  | noteEnd _ ih => exact ih.noteEnd

/-- The open delimiters of a stream are those that the tokens taken meanwhile leave. -/
theorem openDelimiters (visits : origin.Visits taken point) :
    point.openDelimiters =
      (taken.map (·.kind)).foldl (fun delimiters kind => delimitersAfter kind delimiters) origin.openDelimiters := by
  induction visits with
  | start => rfl
  | @peek taken point after index found _ peeked ih =>
    have given := point.peek_given index
    rw [peeked] at given
    exact given.openDelimiters.symm.trans ih
  | @next taken point after token _ took ih =>
    obtain ⟨filled, later, fills, front, took⟩ := of_next took
    have given := fill_given (0 + 1 - point.lookahead.length) point
    rw [show fill _ point = _ from fills] at given
    cases (next_given front).symm.trans took
    rw [List.map_append, List.map_singleton, List.foldl_append, List.foldl_cons, List.foldl_nil,
      ← ih, given.openDelimiters]
  | noteEnd _ ih => exact ih

end Visits

end TokenStream

end GoPrompt
