import GoPrompt.Proofs.Stream.Supply

/-! Programs that succeed. A program runs in front of tokens of given kinds if it answers, and leaves it to a
postcondition what it answers and which kinds it leaves ahead. The rules go through a program from its
first step to its last. -/

namespace GoPrompt

open Parse Grammar

/-- The program answers, and its answer and the kinds left ahead satisfy the postcondition. -/
def Runs {α : Type} (supply : Supply) (kinds : List TokenKind) (program : Parse α)
    (post : α → List TokenKind → Prop) : Prop :=
  ∀ state, supply.Ahead kinds state → ∃ value after left, program state = .ok value after ∧ supply.Ahead left after ∧
    post value left

theorem apart {α : Type} {p : α → Bool} {one other : α} (holds : p one = true) (fails : p other = false) :
    one ≠ other := by
  rintro rfl
  rw [holds] at fails
  cases fails

theorem head?_append_of_any {p : TokenKind → Bool} {kinds : List TokenKind} (starts : kinds.head?.any p = true)
    (rest : List TokenKind) : (kinds ++ rest).head?.any p = true := by
  cases kinds with
  | nil => cases starts
  | cons kind later => exact starts

namespace Runs

variable {α β : Type} {supply : Supply} {kinds rest : List TokenKind} {program : Parse α}
  {post : α → List TokenKind → Prop}

theorem pure {value : α} (holds : post value kinds) : Runs supply kinds (pure value) post :=
  fun state ahead => ⟨value, state, kinds, rfl, ahead, holds⟩

theorem bind {next : α → Parse β} {post : β → List TokenKind → Prop}
    (runs : Runs supply kinds program fun value left => Runs supply left (next value) post) :
    Runs supply kinds (program >>= next) post := by
  intro state ahead
  obtain ⟨value, reached, left, ran, ahead, continues⟩ := runs state ahead
  obtain ⟨result, after, last, ran', ahead, holds⟩ := continues reached ahead
  exact ⟨result, after, last, by rw [bind_ok ran, ran'], ahead, holds⟩

theorem weaken {stronger : α → List TokenKind → Prop} (runs : Runs supply kinds program stronger)
    (implies : ∀ value left, stronger value left → post value left) : Runs supply kinds program post := by
  intro state ahead
  obtain ⟨value, after, left, ran, ahead, holds⟩ := runs state ahead
  exact ⟨value, after, left, ran, ahead, implies value left holds⟩

theorem map {f : α → β} {post : β → List TokenKind → Prop}
    (runs : Runs supply kinds program fun value left => post (f value) left) :
    Runs supply kinds (f <$> program) post := by
  intro state ahead
  obtain ⟨value, after, left, ran, ahead, holds⟩ := runs state ahead
  exact ⟨f value, after, left, map_ok ran, ahead, holds⟩

theorem discard {post : Unit → List TokenKind → Prop} (runs : Runs supply kinds program fun _ left => post () left) :
    Runs supply kinds (discard program) post := map runs

section decisions

variable {other : Parse α}

theorem ite_pos {condition : Prop} [Decidable condition] (holds : condition) (runs : Runs supply kinds program post) :
    Runs supply kinds (if condition then program else other) post := by
  rw [if_pos holds]
  exact runs

theorem ite_neg {condition : Prop} [Decidable condition] (fails : ¬ condition) (runs : Runs supply kinds other post) :
    Runs supply kinds (if condition then program else other) post := by
  rw [if_neg fails]
  exact runs

end decisions

section tokens

variable {kind : TokenKind}

theorem peek {index : Nat} {post : Option Token → List TokenKind → Prop} (near : index ≤ maxLookahead)
    (holds : ∀ found, found.map (·.kind) = kinds[index]? → post found kinds) :
    Runs supply kinds (Parse.peek index) post := by
  intro state ahead
  obtain ⟨found, after, looked, ahead, same⟩ := ahead.peek near
  exact ⟨found, after, kinds, looked, ahead, holds found same⟩

theorem peek_cons {post : Option Token → List TokenKind → Prop}
    (holds : ∀ token, token.kind = kind → post (some token) (kind :: rest)) :
    Runs supply (kind :: rest) (Parse.peek 0) post := by
  apply peek (Nat.zero_le _)
  intro found same
  obtain ⟨token, rfl, isKind⟩ := Option.map_eq_some_iff.mp same
  exact holds token isKind

theorem peekKind {index : Nat} {post : Option TokenKind → List TokenKind → Prop} (near : index ≤ maxLookahead)
    (holds : post kinds[index]? kinds) : Runs supply kinds (Parse.peekKind index) post := by
  apply bind
  apply peek near
  intro found same
  apply pure
  rw [same]
  exact holds

theorem peekKind_head {post : Option TokenKind → List TokenKind → Prop} (holds : post kinds.head? kinds) :
    Runs supply kinds (Parse.peekKind 0) post := by
  apply peekKind (Nat.zero_le _)
  rw [← List.head?_eq_getElem?]
  exact holds

theorem peekKind_cons {post : Option TokenKind → List TokenKind → Prop} (holds : post (some kind) (kind :: rest)) :
    Runs supply (kind :: rest) (Parse.peekKind 0) post := peekKind_head holds

theorem peekOperator {index : Nat} {post : Option Operator → List TokenKind → Prop} (near : index ≤ maxLookahead)
    (holds : post (kinds[index]?.bind TokenKind.operator?) kinds) :
    Runs supply kinds (Parse.peekOperator index) post := by
  apply bind
  apply peek near
  intro found same
  apply pure
  have operator : found.bind (·.operator?) = kinds[index]?.bind TokenKind.operator? := by
    rw [← same]
    cases found <;> rfl
  rw [operator]
  exact holds

theorem peekOperator_head {post : Option Operator → List TokenKind → Prop}
    (holds : post (kinds.head?.bind TokenKind.operator?) kinds) : Runs supply kinds (Parse.peekOperator 0) post := by
  apply peekOperator (Nat.zero_le _)
  rw [← List.head?_eq_getElem?]
  exact holds

theorem peekOperator_cons {operator : Operator} {post : Option Operator → List TokenKind → Prop}
    (holds : post (some operator) (.operator operator :: rest)) :
    Runs supply (.operator operator :: rest) (Parse.peekOperator 0) post := peekOperator_head holds

theorem bump {post : Unit → List TokenKind → Prop} (holds : post () rest) :
    Runs supply (kind :: rest) Parse.bump post := by
  intro state ahead
  obtain ⟨after, ran, ahead⟩ := ahead.bump
  exact ⟨(), after, rest, ran, ahead, holds⟩

theorem expect {accepts : TokenKind → Bool} {expected : List String} {post : Unit → List TokenKind → Prop}
    (accepted : accepts kind = true) (holds : post () rest) :
    Runs supply (kind :: rest) (Parse.expect accepts expected) post := by
  apply bind
  apply peek_cons
  intro token isKind
  apply ite_pos (by rw [isKind]; exact accepted)
  exact bump holds

theorem expectOperator {operator : Operator} {post : Unit → List TokenKind → Prop} (holds : post () rest) :
    Runs supply (.operator operator :: rest) (Parse.expectOperator operator) post := expect (beq_self_eq_true _) holds

theorem expectKeyword {keyword : Keyword} {post : Unit → List TokenKind → Prop} (holds : post () rest) :
    Runs supply (.keyword keyword :: rest) (Parse.expectKeyword keyword) post := expect (beq_self_eq_true _) holds

theorem expectName {post : Unit → List TokenKind → Prop} (holds : post () rest) :
    Runs supply (.identifier :: rest) Parse.expectName post := expect rfl holds

theorem atOperator_yes {operator : Operator} {post : Bool → List TokenKind → Prop}
    (holds : post true (.operator operator :: rest)) :
    Runs supply (.operator operator :: rest) (Parse.atOperator operator) post := by
  apply bind
  apply peekOperator_cons
  apply pure
  rw [beq_self_eq_true]
  exact holds

theorem atOperator_no {operator : Operator} {post : Bool → List TokenKind → Prop}
    (differs : kinds.head? ≠ some (.operator operator)) (holds : post false kinds) :
    Runs supply kinds (Parse.atOperator operator) post := by
  apply bind
  apply peekOperator_head
  apply pure
  have other : (kinds.head?.bind TokenKind.operator? == some operator) = false := by
    rw [beq_eq_false_iff_ne]
    intro same
    obtain ⟨kind, isHead, isOperator⟩ := Option.bind_eq_some_iff.mp same
    cases kind <;> cases isOperator
    exact differs isHead
  rw [other]
  exact holds

theorem atKeyword_yes {keyword : Keyword} {post : Bool → List TokenKind → Prop}
    (holds : post true (.keyword keyword :: rest)) :
    Runs supply (.keyword keyword :: rest) (Parse.atKeyword keyword) post := by
  apply bind
  apply peekKind_cons
  apply pure
  rw [beq_self_eq_true]
  exact holds

theorem atKeyword_no {keyword : Keyword} {post : Bool → List TokenKind → Prop}
    (differs : kinds.head? ≠ some (.keyword keyword)) (holds : post false kinds) :
    Runs supply kinds (Parse.atKeyword keyword) post := by
  apply bind
  apply peekKind_head
  apply pure
  rw [beq_eq_false_iff_ne.mpr differs]
  exact holds

theorem atSemicolon {post : Bool → List TokenKind → Prop} (holds : post (kinds.head?.any isSemicolon) kinds) :
    Runs supply kinds Parse.atSemicolon post := by
  apply bind
  apply peekKind_head
  exact pure holds

theorem eatOperator_yes {operator : Operator} {post : Bool → List TokenKind → Prop} (holds : post true rest) :
    Runs supply (.operator operator :: rest) (Parse.eatOperator operator) post := by
  apply bind
  apply atOperator_yes
  apply ite_pos rfl
  apply bind
  apply bump
  exact pure holds

theorem eatOperator_no {operator : Operator} {post : Bool → List TokenKind → Prop}
    (differs : kinds.head? ≠ some (.operator operator)) (holds : post false kinds) :
    Runs supply kinds (Parse.eatOperator operator) post := by
  apply bind
  apply atOperator_no differs
  apply ite_neg Bool.false_ne_true
  exact pure holds

theorem spanFrom {start : Span} {post : Span → List TokenKind → Prop} (holds : ∀ span, post span kinds) :
    Runs supply kinds (Parse.spanFrom start) post :=
  fun state ahead => ⟨_, state, kinds, rfl, ahead, holds _⟩

end tokens

section repetition

variable {turn : α → Parse (Turn α β)} {value : α} {post : β → List TokenKind → Prop}

theorem iterate_turn (runs : Runs supply kinds (turn value) fun result left =>
      match result with
      | .done answer => post answer left
      | .again next => left.length < kinds.length ∧ Runs supply left (iterate turn next) post) :
    Runs supply kinds (iterate turn value) post := by
  intro state ahead
  obtain ⟨result, reached, left, ran, ahead', holds⟩ := runs state ahead
  cases result with
  | done answer => exact ⟨answer, reached, left, Parse.iterate_done ran, ahead', holds⟩
  | again next =>
    obtain ⟨fewer, continues⟩ := holds
    obtain ⟨answer, after, last, ran', ahead'', holds⟩ := continues reached ahead'
    have progress : reached.remaining < state.remaining := by
      rw [ahead.remaining, ahead'.remaining]
      omega
    exact ⟨answer, after, last, by rw [Parse.iterate_again ran progress, ran'], ahead'', holds⟩

theorem iterate_done
    (runs : Runs supply kinds (turn value) fun result left => ∃ answer, result = .done answer ∧ post answer left) :
    Runs supply kinds (iterate turn value) post := by
  apply iterate_turn
  apply runs.weaken
  rintro _ left ⟨answer, rfl, holds⟩
  exact holds

theorem iterate_again (runs : Runs supply kinds (turn value) fun result left => ∃ next, result = .again next ∧
      left.length < kinds.length ∧ Runs supply left (iterate turn next) post) : Runs supply kinds (iterate turn value) post := by
  apply iterate_turn
  apply runs.weaken
  rintro _ left ⟨next, rfl, continues⟩
  exact continues

variable {isDone : Parse Bool} {post : Unit → List TokenKind → Prop}

theorem repeatUntil_turn (runs : Runs supply kinds isDone fun done left =>
      if done then post () left else left.length < kinds.length ∧ Runs supply left (repeatUntil isDone) post) :
    Runs supply kinds (repeatUntil isDone) post := by
  apply iterate_turn
  apply bind
  apply runs.weaken
  intro done left holds
  cases done with
  | true => exact pure holds
  | false => exact pure holds

theorem repeatUntil_done (runs : Runs supply kinds isDone fun done left => done = true ∧ post () left) :
    Runs supply kinds (repeatUntil isDone) post := by
  apply repeatUntil_turn
  apply runs.weaken
  rintro _ left ⟨rfl, holds⟩
  exact holds

theorem repeatUntil_again (runs : Runs supply kinds isDone fun done left => done = false ∧ left.length < kinds.length ∧
      Runs supply left (repeatUntil isDone) post) : Runs supply kinds (repeatUntil isDone) post := by
  apply repeatUntil_turn
  apply runs.weaken
  rintro _ left ⟨rfl, continues⟩
  exact continues

end repetition

end Runs

end GoPrompt
