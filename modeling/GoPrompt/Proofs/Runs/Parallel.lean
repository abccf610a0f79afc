import GoPrompt.Proofs.Coupled.Statements
import GoPrompt.Proofs.Lexical.Parallel
import GoPrompt.Proofs.Stream.Parsing
import GoPrompt.Proofs.Stream.Steps

/-! Runs over two texts that say the same. They do the same from the first token to the end, and the streams behind them
have scanned as many tokens, have the same delimiters open and the same reason to need more input. -/

namespace GoPrompt

open Parse

namespace TokenStream

/-- Streams that have scanned as many tokens and keep the same of what they have given away. -/
structure Paired (first second : TokenStream) : Prop extends first.SameGiven second where
  scanned : first.scanned = second.scanned

section

variable {steps steps' : List LexStep} {limit number : Nat} {first second : TokenStream} {one other : Option Token}

private theorem Seen.tail_of_some {lexer : Lexer} (lexes : lexer.Lexes steps) {token : Token}
    (seen : first.Seen steps limit number (some token)) :
    first.tail = steps[number]?.bind LexStep.cutoff? := by
  rw [seen.tail]
  cases exhausted : first.exhausted with
  | true =>
    obtain ⟨found, cutoff, isCut⟩ := seen.fresh nofun exhausted
    rw [if_pos rfl, List.getLast?_eq_getElem?, lexes.truncated_last isCut, Nat.add_sub_cancel]
  | false =>
    obtain ⟨step, there, -⟩ := tokenAt_eq_some.mp seen.isNext
    have count := seen.count
    rw [seen.front] at count
    have mem : step ∈ steps.take first.scanned := by
      refine List.mem_of_getElem? (i := number) ?_
      rwa [List.getElem?_take_of_lt (by rw [count]; exact Nat.lt_succ_self number)]
    rw [if_neg Bool.false_ne_true, there]
    exact (seen.uncut exhausted step mem).symm

private theorem Seen.tail_of_none (seen : first.Seen steps limit number none) :
    first.tail = steps.getLast?.bind LexStep.cutoff? := by
  rw [seen.tail, (seen.missing rfl).1, if_pos rfl]

private theorem Seen.legal_of_none (seen : first.Seen steps limit number none) (later : Nat) :
    LegalBefore steps later := by
  intro earlier found _ there
  rcases Nat.lt_or_ge earlier number with before | behind
  · exact seen.legal earlier found before there
  · have scanned : first.scanned = number := by rw [seen.count, seen.front]; rfl
    cases there.symm.trans (seen.ended (seen.missing rfl).1 earlier (scanned ▸ behind))

private theorem Seen.scanned_eq (seen : first.Seen steps limit number one)
    (seen' : second.Seen steps' limit number other) (same : one.isSome = other.isSome) :
    first.scanned = second.scanned := by
  rw [seen.count, seen'.count, seen.front, seen'.front]
  cases one <;> cases other <;> first | rfl | cases same

variable {lexer lexer' : Lexer} (lexes : lexer.Lexes steps) (lexes' : lexer'.Lexes steps')
  (parallel : InParallel steps steps')
include lexes lexes' parallel

theorem Seen.construct_eq (seen : first.Seen steps limit number one) (seen' : second.Seen steps' limit number other) :
    first.tail.map (·.construct) = second.tail.map (·.construct) := by
  have kinds := parallel.kind seen.legal
  rw [seen.isNext, seen'.isNext] at kinds
  cases one with
  | none =>
    cases other with
    | some => cases kinds
    | none =>
      rw [seen.tail_of_none, seen'.tail_of_none]
      exact parallel.tail seen.legal_of_none
  | some =>
    cases other with
    | none => cases kinds
    | some =>
      rw [seen.tail_of_some lexes, seen'.tail_of_some lexes']
      exact parallel.construct seen.legal

/-- Two streams in the same place want more input for the same reason. -/
private theorem Seen.pending_eq (seen : first.Seen steps limit number one)
    (seen' : second.Seen steps' limit number other) (given : first.SameGiven second) :
    first.pendingReason = second.pendingReason :=
  given.pendingReason (seen.construct_eq lexes lexes' parallel seen')

end

end TokenStream

/-- Two failed runs that say the same of their texts. -/
inductive FailAlike : Failure → ParseState → Failure → ParseState → Prop
  | budget {error error' : ParseError} (before after : ParseState) (spent : error.IsBudget)
      (kind : error.kind = error'.kind) :
      FailAlike (.rejected error) before (.rejected error') after
  | rejected {error error' : ParseError} {before after : ParseState} (noFault : error.isFault = false)
      (noFault' : error'.isFault = false) (scanned : before.stream.scanned = after.stream.scanned) :
      FailAlike (.rejected error) before (.rejected error') after
  | wanted {error error' : ParseError} {before after : ParseState}
      (scanned : before.stream.scanned = after.stream.scanned)
      (pending : before.stream.pendingReason = after.stream.pendingReason) :
      FailAlike (.needMoreInput error) before (.needMoreInput error') after

namespace Coupling

/-- Runs over two texts that say the same. -/
def parallel (steps steps' : List LexStep) (limit : Nat) : Coupling where
  marks number before after :=
    before.stream.Reading steps limit number ∧ after.stream.Reading steps' limit number ∧
      before.stream.Paired after.stream
  settled number before after :=
    before.stream.Settled steps limit number ∧ after.stream.Settled steps' limit number ∧
      before.stream.Paired after.stream
  seen number one other before after :=
    before.stream.Seen steps limit number one ∧ after.stream.Seen steps' limit number other ∧
      before.stream.Paired after.stream
  window number one other next later before after :=
    before.stream.Window steps limit number one next ∧ after.stream.Window steps' limit number other later ∧
      before.stream.Paired after.stream
  gone _ := False
  excused _ _ := False
  free := False
  stray _ _ := False
  fails := FailAlike

variable {steps steps' : List LexStep} {limit : Nat} {α : Type} [Alike α]

private theorem parallel_coupled {pre : ParseState → ParseState → Prop} {one other : Parse α}
    {post : α → α → ParseState → ParseState → Prop}
    (runs : ∀ before after, pre before after → (parallel steps steps' limit).Matches post (one before) (other after)) :
    (parallel steps steps' limit).Coupled pre one other post :=
  ⟨fun _ gone => gone.elim, fun before after holds => .inr (runs before after holds)⟩

theorem alike_of_kinds {one other : Option Token} (kinds : one.map (·.kind) = other.map (·.kind)) :
    Alike.alike one other := by
  cases one with
  | none =>
    cases other with
    | none => trivial
    | some => cases kinds
  | some one =>
    cases other with
    | none => cases kinds
    | some other => exact .of_eq (Option.some.inj kinds)

private theorem isSome_of_kinds {one other : Option Token} (kinds : one.map (·.kind) = other.map (·.kind)) :
    one.isSome = other.isSome := by
  cases one <;> cases other <;> first | rfl | cases kinds

private theorem paired_of_bump {one other : Token} {before after reached reached' : ParseState}
    (paired : before.stream.Paired after.stream) (front : before.stream.lookahead.head? = some one)
    (front' : after.stream.lookahead.head? = some other) (kind : one.kind = other.kind)
    (taken : bump before = .ok () reached) (taken' : bump after = .ok () reached')
    (scanned : reached.stream.scanned = reached'.stream.scanned) : reached.stream.Paired reached'.stream := by
  obtain ⟨later, ahead⟩ := List.head?_eq_some_iff.mp front
  obtain ⟨later', ahead'⟩ := List.head?_eq_some_iff.mp front'
  obtain ⟨opened, last⟩ := bump_given ahead taken
  obtain ⟨opened', last'⟩ := bump_given ahead' taken'
  refine ⟨⟨?_, ?_⟩, scanned⟩
  · rw [opened, opened', kind, paired.openDelimiters]
  · rw [last, last', kind]

private theorem parallel_takeBoth {number : Nat} {one other next later : Token} {before after : ParseState}
    (window : (parallel steps steps' limit).window number one other (some next) (some later) before after) :
    ∃ reached reached', bump before = .ok () reached ∧ bump after = .ok () reached' ∧
      (parallel steps steps' limit).seen (number + 1) (some next) (some later) reached reached' := by
  obtain ⟨window, window', paired⟩ := window
  obtain ⟨reached, taken, -, -, seen⟩ := bump_window window
  obtain ⟨reached', taken', -, -, seen'⟩ := bump_window window'
  refine ⟨reached, reached', taken, taken', seen nofun, seen' nofun, ?_⟩
  exact paired_of_bump paired (by rw [window.front]; rfl) (by rw [window'.front]; rfl)
    (window.named.trans window'.named.symm)
    taken taken' ((seen nofun).scanned_eq (seen' nofun) rfl)

section

variable (behind : InParallel steps steps')
include behind

private theorem parallel_look (number : Nat) :
    (parallel steps steps' limit).Coupled ((parallel steps steps' limit).settled number)
    (peek 0) (peek 0) ((parallel steps steps' limit).seen number) := by
  refine parallel_coupled fun before after ⟨settled, settled', paired⟩ => ?_
  have kinds := behind.kind settled.legal
  rcases settled.peek with ⟨full, -, token, reached, there, failed⟩ | ⟨reached, found, seen⟩
  · rcases settled'.peek with ⟨-, -, token', reached', -, failed'⟩ | ⟨reached', -, seen'⟩
    · rw [show peek 0 before = _ from onStream_error failed, show peek 0 after = _ from onStream_error failed']
      exact .budget _ _ (.inl rfl) rfl
    · rw [there] at kinds
      exact absurd full (Nat.not_le.mpr (seen'.room (isSome_of_kinds kinds).symm))
  · rcases settled'.peek with ⟨full, -, token', reached', there', -⟩ | ⟨reached', found', seen'⟩
    · rw [there'] at kinds
      exact absurd full (Nat.not_le.mpr (seen.room (isSome_of_kinds kinds)))
    · have looked : peek 0 before = _ := onStream_ok found
      have looked' : peek 0 after = _ := onStream_ok found'
      have given := ((peek_given looked).symm.trans paired.toSameGiven).trans (peek_given looked')
      rw [looked, looked']
      exact ⟨alike_of_kinds kinds, seen, seen', given, seen.scanned_eq seen' (isSome_of_kinds kinds)⟩

private theorem parallel_lookBeyond (number : Nat) {one other : Token} (named : one.kind = .identifier)
    (named' : other.kind = .identifier) :
    (parallel steps steps' limit).Coupled
      ((parallel steps steps' limit).seen number (some one) (some other)) (peek 1) (peek 1)
      ((parallel steps steps' limit).window number one other) := by
  refine parallel_coupled fun before after ⟨seen, seen', paired⟩ => ?_
  have legal : LegalBefore steps (number + 1) := by
    intro earlier found less there
    rcases Nat.lt_succ_iff_lt_or_eq.mp less with before | rfl
    · exact seen.legal earlier found before there
    · obtain rfl := Option.some.inj (seen.isNext.symm.trans there)
      simp [named]
  have kinds := behind.kind legal
  rcases seen.peekBeyond named with ⟨full, token, reached, there, failed⟩ | ⟨reached, found, window⟩
  · rcases seen'.peekBeyond named' with ⟨-, token', reached', -, failed'⟩ | ⟨reached', -, window'⟩
    · rw [show peek 1 before = _ from onStream_error failed, show peek 1 after = _ from onStream_error failed']
      exact .budget _ _ (.inl rfl) rfl
    · rw [there] at kinds
      exact absurd full (Nat.not_le.mpr (window'.room (isSome_of_kinds kinds).symm))
  · rcases seen'.peekBeyond named' with ⟨full, token', reached', there', -⟩ | ⟨reached', found', window'⟩
    · rw [there'] at kinds
      exact absurd full (Nat.not_le.mpr (window.room (isSome_of_kinds kinds)))
    · have looked : peek 1 before = _ := onStream_ok found
      have looked' : peek 1 after = _ := onStream_ok found'
      have given := ((peek_given looked).symm.trans paired.toSameGiven).trans (peek_given looked')
      have scanned : reached.scanned = reached'.scanned := by
        have same := isSome_of_kinds kinds
        rw [window.count, window'.count, window.front, window'.front]
        revert same
        cases tokenAt steps (number + 1) <;> cases tokenAt steps' (number + 1) <;> simp
      rw [looked, looked']
      exact ⟨alike_of_kinds kinds, window, window', given, scanned⟩

private theorem parallel_kind {number : Nat} {one other : Token} {before after : ParseState}
    (seen : (parallel steps steps' limit).seen number (some one) (some other) before after) :
    one.kind = other.kind := by
  have kinds := behind.kind seen.1.legal
  rw [seen.1.isNext, seen.2.1.isNext] at kinds
  exact Option.some.inj kinds

variable {lexer lexer' : Lexer} (lexes : lexer.Lexes steps) (lexes' : lexer'.Lexes steps')
include lexes lexes'

private theorem parallel_reject (number : Nat) {one other : Token} (expected : List String) :
    (parallel steps steps' limit).Coupled ((parallel steps steps' limit).seen number (some one) (some other))
      (unexpected one expected : Parse α) (unexpected other expected) (fun _ _ _ _ => False) := by
  refine parallel_coupled fun before after both => ?_
  obtain ⟨seen, seen', paired⟩ := both
  have kind := parallel_kind behind ⟨seen, seen', paired⟩
  rcases unexpected_seen seen expected with ⟨inserted, error, reached, failed, noted, -⟩ |
    ⟨written, error, failed, blames⟩
  · rcases unexpected_seen seen' expected with ⟨-, error', reached', failed', noted', -⟩ | ⟨written', -⟩
    · rw [failed, failed']
      refine .wanted ?_ ?_
      · rw [noted, noted']
        exact paired.scanned
      · have pending := seen.pending_eq lexes lexes' behind seen' paired.toSameGiven
        rw [noted, noted']
        exact pending
    · exact absurd (kind.symm.trans inserted) written'
  · rcases unexpected_seen seen' expected with ⟨inserted', -⟩ | ⟨-, error', failed', blames'⟩
    · exact absurd (kind.trans inserted') written
    · rw [failed, failed']
      exact .rejected blames.not_isFault blames'.not_isFault paired.scanned

omit lexes lexes' in
private theorem parallel_stop (number depth : Nat) :
    (parallel steps steps' limit).Coupled ((parallel steps steps' limit).marks number)
    (Grammar.beyondLimit depth : Parse α) (Grammar.beyondLimit depth) (fun _ _ _ _ => False) := by
  refine parallel_coupled fun before after ⟨reading, reading', paired⟩ => ?_
  let deeper (state : ParseState) : ParseState := { state with depth := state.depth + 1 }
  let fail (token : Option Token) : Parse α := throw (.rejected (.nestingLimitExceeded depth (token.map (·.span))))
  have start : ∀ state, (Grammar.beyondLimit depth : Parse α) state = (peek 0 >>= fail) (deeper state) := fun _ => rfl
  rw [start, start]
  have lengths : before.stream.lookahead.length = after.stream.lookahead.length := by
    have count := reading.count
    have count' := reading'.count
    have scanned := paired.scanned
    omega
  cases ahead : before.stream.lookahead with
  | nil =>
    have ahead' : after.stream.lookahead = [] := List.length_eq_zero_iff.mp (by rw [← lengths, ahead]; rfl)
    have settled : (parallel steps steps' limit).settled number (deeper before) (deeper after) :=
      ⟨⟨reading, by simp [deeper, ahead], fun nonempty => absurd ahead nonempty⟩,
        ⟨reading', by simp [deeper, ahead'], fun nonempty => absurd ahead' nonempty⟩, paired⟩
    have looks := (parallel_look behind number).outcome _ _ settled
    cases looked : peek 0 (deeper before) with
    | ok found reached =>
      rw [looked] at looks
      have matched := looks.resolve_left And.left
      cases looked' : peek 0 (deeper after) with
      | ok found' reached' =>
        rw [bind_ok looked, bind_ok looked']
        exact .budget _ _ (.inr rfl) rfl
      | error => simp only [looked', Matches] at matched
    | error failure reached =>
      rw [looked] at looks
      have matched := looks.resolve_left And.left
      cases looked' : peek 0 (deeper after) with
      | ok => simp only [looked', Matches] at matched
      | error failure' reached' =>
        rw [looked'] at matched
        rw [bind_error looked, bind_error looked']
        exact matched
  | cons token later =>
    obtain ⟨token', later', ahead'⟩ : ∃ token' later', after.stream.lookahead = token' :: later' := by
      rw [ahead] at lengths
      exact List.exists_cons_of_length_pos (by rw [← lengths]; exact Nat.succ_pos _)
    have front : ∀ {state : ParseState} {token later}, state.stream.lookahead = token :: later →
        peek 0 (deeper state) = .ok (some token) (deeper state) := fun ahead =>
      onStream_ok (TokenStream.peek_front (by simp only [deeper, ahead, List.head?_cons]))
    rw [bind_ok (front ahead), bind_ok (front ahead')]
    exact .budget _ _ (.inr rfl) rfl

theorem parallel_lawful : (parallel steps steps' limit).Lawful where
  excuse _ gone := gone.elim
  settled_marks settled := ⟨settled.1.toReading, settled.2.1.toReading, settled.2.2⟩
  window_marks window := ⟨window.1.toReading, window.2.1.toReading, window.2.2⟩
  progress := by
    rintro number reached _ _ _ _ ⟨reading, reading', -⟩ ⟨later, later', -⟩ further
    exact ⟨reading.remaining_lt later further, reading'.remaining_lt later' further⟩
  seen_settled seen := ⟨seen.1.settled, seen.2.1.settled, seen.2.2⟩
  look number := parallel_look behind number
  take number one other legal legal' := parallel_coupled fun before after ⟨seen, seen', paired⟩ => by
    have kind := parallel_kind behind ⟨seen, seen', paired⟩
    obtain ⟨reached, taken, settled, ahead⟩ := bump_seen seen legal
    obtain ⟨reached', taken', settled', ahead'⟩ := bump_seen seen' legal'
    rw [taken, taken']
    refine ⟨rfl, settled, settled',
      paired_of_bump paired (by rw [seen.front]; rfl) (by rw [seen'.front]; rfl) kind taken taken' ?_⟩
    rw [settled.count, settled'.count, ahead, ahead']
  reject number one other expected _ := parallel_reject behind lexes lexes' number expected
  lose literal illegal seen := by cases (literal.symm.trans (parallel_kind behind seen)).trans illegal
  spoil _ literal illegal seen := by cases (literal.symm.trans (parallel_kind behind seen)).trans illegal
  loose literal illegal seen := by cases (literal.symm.trans (parallel_kind behind seen)).trans illegal
  ended number expected := parallel_coupled fun before after ⟨seen, seen', paired⟩ => by
    rw [endOfInput_run, endOfInput_run]
    exact .wanted paired.scanned (seen.pending_eq lexes lexes' behind seen' paired.toSameGiven)
  stop number depth := parallel_stop behind number depth
  lookBeyond number one other named named' := parallel_lookBeyond behind number named named'
  lookInWindow window := ⟨peek_window window.1, peek_window window.2.1⟩
  takeInWindow number one other next later := parallel_coupled fun before after ⟨window, window', paired⟩ => by
    obtain ⟨reached, taken, settled, ahead, -⟩ := bump_window window
    obtain ⟨reached', taken', settled', ahead', -⟩ := bump_window window'
    have scanned : reached.stream.scanned = reached'.stream.scanned := by
      have count := window.count
      have count' := window'.count
      have same := paired.scanned
      rw [window.front, List.length_cons] at count
      rw [window'.front, List.length_cons] at count'
      rw [settled.count, settled'.count, ahead, ahead']
      omega
    rw [taken, taken']
    exact ⟨rfl, settled, settled', paired_of_bump paired (by rw [window.front]; rfl) (by rw [window'.front]; rfl)
      (window.named.trans window'.named.symm) taken taken' scanned⟩
  takeBoth number one other next later := parallel_coupled fun before after window => by
    obtain ⟨reached, reached', taken, taken', seen⟩ := parallel_takeBoth window
    rw [taken, taken']
    exact ⟨rfl, seen⟩
  loseBeyond literal illegal window := by
    obtain ⟨_, _, _, _, seen⟩ := parallel_takeBoth window
    cases (literal.symm.trans (parallel_kind behind seen)).trans illegal

end

end Coupling

end GoPrompt
