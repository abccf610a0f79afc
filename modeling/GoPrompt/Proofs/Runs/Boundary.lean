import GoPrompt.Proofs.Coupled.Statements
import GoPrompt.Proofs.Lexical.LineEnds
import GoPrompt.Proofs.Stream.Onward
import GoPrompt.Proofs.Stream.Parsing

/-! Runs over a text and over the same text with a newline behind it, at the start of another text or further on in it.
Both do the same up to a literal that the newline spoils: the first run may consume it, and then it stands at the end of
its text; the second run never gets behind it. -/

namespace GoPrompt

open Parse

section

variable {steps steps' : List LexStep}

/-- What a text has for a token with a number, and what it has there with a newline behind it. -/
inductive AtLine (steps : List LexStep) (number : Nat) : Option Token → Option Token → Prop
  | ended : AtLine steps number none none
  | same {one other : Token} (kind : one.kind = other.kind) : AtLine steps number (some one) (some other)
  | lineEnd {one other : Token} (inserted : one.IsInserted) (lineEnd : other.kind = .semicolon .newline) :
      AtLine steps number (some one) (some other)
  | spoilt {one other : Token} {cutoff : Cutoff} {kind : LiteralKind}
      (isCut : steps[number]? = some (.truncated one cutoff)) (literal : one.kind = .literal kind)
      (illegal : other.kind = .illegal) (construct : kind = .string → cutoff.construct = .string) :
      AtLine steps number (some one) (some other)

theorem AtLine.resembles {number : Nat} {one other : Token} (at_line : AtLine steps number (some one) (some other)) :
    one.kind.Resembles other.kind := by
  cases at_line with
  | same kind => exact .of_eq kind
  | lineEnd inserted lineEnd =>
    rw [lineEnd, show one.kind = _ from inserted]
    exact .semicolons _ _
  | spoilt _ literal illegal =>
    rw [literal, illegal]
    exact .spoilt _

theorem AtLine.of_kind {number : Nat} {one other : Option Token} (same : one.map (·.kind) = other.map (·.kind)) :
    AtLine steps number one other := by
  cases one with
  | none =>
    cases other with
    | none => exact .ended
    | some => cases same
  | some one =>
    cases other with
    | none => cases same
    | some other => exact .same (Option.some.inj same)

theorem AtLine.alike {number : Nat} {one other : Option Token} (at_line : AtLine steps number one other) :
    Alike.alike one other := by
  cases one with
  | none =>
    cases at_line
    trivial
  | some one =>
    cases other with
    | none => cases at_line
    | some other => exact at_line.resembles

theorem AtLine.isSome {number : Nat} {one other : Option Token} (at_line : AtLine steps number one other) :
    one.isSome = other.isSome := by
  cases at_line <;> rfl

theorem AtLine.tail {number : Nat} {one other : Option Token} {step : LexStep} (at_line : AtLine steps number one other) :
    AtLine (step :: steps) (number + 1) one other := by
  cases at_line with
  | ended => exact .ended
  | same kind => exact .same kind
  | lineEnd inserted lineEnd => exact .lineEnd inserted lineEnd
  | spoilt isCut literal illegal construct => exact .spoilt isCut literal illegal construct

/-- Up to the first illegal token both texts have tokens that resemble each other. -/
theorem BehindLine.token (behind : BehindLine steps steps') (number : Nat)
    (legal : ∀ earlier found, earlier < number → tokenAt steps' earlier = some found → found.kind ≠ .illegal) :
    AtLine steps number (tokenAt steps number) (tokenAt steps' number) := by
  induction behind generalizing number with
  | ended => exact .ended
  | comment => cases number <;> exact .ended
  | inserted inserted lineEnd =>
    cases number with
    | zero => exact .lineEnd inserted lineEnd
    | succ number => exact .ended
  | rawString cutoff cutoff' isString isString' =>
    cases number with
    | zero => exact .same (isString.trans isString'.symm)
    | succ number => exact .ended
  | spoilt diagnostic behind literal illegal construct =>
    cases number with
    | zero => exact .spoilt rfl literal illegal construct
    | succ number => exact absurd illegal (legal 0 _ (Nat.succ_pos _) rfl)
  | more stays later ih =>
    cases number with
    | zero => cases stays <;> exact .same rfl
    | succ number => exact (ih number fun earlier found less => legal (earlier + 1) found (Nat.succ_lt_succ less)).tail

/-- A text of legal tokens is cut off exactly if it is cut off with a newline behind it. -/
theorem BehindLine.cutoff (behind : BehindLine steps steps')
    (legal : ∀ number found, tokenAt steps' number = some found → found.kind ≠ .illegal) :
    (steps.getLast?.bind LexStep.cutoff?).isSome = (steps'.getLast?.bind LexStep.cutoff?).isSome := by
  induction behind with
  | ended | comment | inserted | rawString => rfl
  | spoilt diagnostic behind literal illegal => exact absurd illegal (legal 0 _ rfl)
  | @more step step' steps steps' stays later ih =>
    have same := ih fun number found => legal (number + 1) found
    have whole : step.cutoff? = none ∧ step'.cutoff? = none := by cases stays <;> exact ⟨rfl, rfl⟩
    cases later with
    | ended => simp [whole.1, whole.2]
    | comment | inserted | rawString | spoilt | more => exact same

end

/-- Texts of which the second one has, behind `offset` tokens, what the first one has, up to a literal at its end that a
newline spoils there. The limit comes at the same of these tokens. -/
structure Beside (steps steps' : List LexStep) (limit offset : Nat) : Prop where
  token : ∀ number,
    (∀ earlier found, earlier < number + offset → tokenAt steps' earlier = some found → found.kind ≠ .illegal) →
    AtLine steps number (tokenAt steps number) (tokenAt steps' (number + offset))
  room : ∀ number, (tokenAt steps number).isSome = true → (number < limit ↔ number + offset < limit)

theorem BehindLine.beside {steps steps' : List LexStep} (behind : BehindLine steps steps') (limit : Nat) :
    Beside steps steps' limit 0 := ⟨behind.token, fun _ _ => .rfl⟩

theorem Lexer.Lexes.cutsOff_last {lexer : Lexer} {steps : List LexStep} (lexes : lexer.Lexes steps) {number : Nat}
    (cuts : CutsOff steps number) : steps.length = number + 1 := by
  obtain ⟨_, _, isCut⟩ := cuts
  exact lexes.truncated_last isCut

/-- A failure that blames the token which the state has ahead. -/
def Failure.BlamesNext (steps : List LexStep) (limit : Nat) (failure : Failure) (state : ParseState) : Prop :=
  ∃ number token error, failure = .rejected error ∧ ¬ token.IsInserted ∧ error.Blames token ∧
    state.stream.Seen steps limit number (some token)

/-- A stream that has given away a literal which the newline behind the text spoils. -/
def TokenStream.TakesSpoilt (steps steps' : List LexStep) (offset : Nat) (stream : TokenStream) : Prop :=
  ∃ number token, CutsOff steps number ∧ tokenAt steps' (number + offset) = some token ∧ token.kind = .illegal ∧
    number < stream.consumed

namespace Coupling

/-- Runs over a text and over one that has it with a newline behind it, and `offset` tokens in front of it. -/
def boundary (steps steps' : List LexStep) (limit offset : Nat) : Coupling where
  marks number before after :=
    before.stream.Reading steps limit number ∧ after.stream.Reading steps' limit (number + offset)
  settled number before after :=
    before.stream.Settled steps limit number ∧ after.stream.Settled steps' limit (number + offset)
  seen number one other before after :=
    before.stream.Seen steps limit number one ∧ after.stream.Seen steps' limit (number + offset) other
  window number one other next later before after :=
    before.stream.Window steps limit number one next ∧ after.stream.Window steps' limit (number + offset) other later
  gone state := state.stream.TakesSpoilt steps steps' offset
  excused _ state := state.stream.TakesSpoilt steps steps' offset
  free := ∃ cutoff, steps.getLast?.bind LexStep.cutoff? = some cutoff ∧ cutoff.construct = .string
  stray failure state := failure.BlamesNext steps' limit state
  fails failure _ failure' after :=
    (∃ error, failure = .rejected error ∧ error.IsBudget) ∨ failure'.BlamesNext steps' limit after ∨
      ∃ error error', failure = .needMoreInput error ∧ failure' = .needMoreInput error'

section

variable {steps steps' : List LexStep} {limit offset : Nat} {α : Type} [Alike α]

omit [Alike α] in
private theorem boundary_keeps {program : Parse α} (onwards : Onwards program) :
    (boundary steps steps' limit offset).Keeps program := by
  rintro state ⟨number, token, cuts, there, illegal, behind⟩
  have moved := onwards state
  cases ran : program state <;> rw [ran] at moved <;>
    exact ⟨number, token, cuts, there, illegal, Nat.lt_of_lt_of_le behind moved.consumed⟩

private theorem boundary_coupled {pre : ParseState → ParseState → Prop} {one other : Parse α}
    {post : α → α → ParseState → ParseState → Prop} (onwards : Onwards one)
    (runs : ∀ before after, pre before after → (boundary steps steps' limit offset).Matches post (one before) (other after)) :
    (boundary steps steps' limit offset).Coupled pre one other post :=
  ⟨boundary_keeps onwards, fun before after holds => .inr (runs before after holds)⟩

variable (beside : Beside steps steps' limit offset)
include beside

private theorem boundary_look (number : Nat) :
    (boundary steps steps' limit offset).Coupled ((boundary steps steps' limit offset).settled number)
    (peek 0) (peek 0) ((boundary steps steps' limit offset).seen number) := by
  refine boundary_coupled (onwards_peek 0) fun before after ⟨settled, settled'⟩ => ?_
  have at_line := beside.token number settled'.legal
  rcases peek_settled settled with ⟨full, _, token, error, reached, there, spent, failed⟩ | ⟨reached, found, seen⟩
  · rcases peek_settled settled' with ⟨_, _, _, error', reached', _, _, failed'⟩ | ⟨reached', found', seen'⟩
    · rw [failed, failed']
      exact .inl ⟨error, rfl, spent.isBudget⟩
    · -- The second run has room for its token, and so has the first one.
      rw [there] at at_line
      exact absurd full (Nat.not_le.mpr
        ((beside.room number (by rw [there]; rfl)).mpr (seen'.room at_line.isSome.symm)))
  · rcases peek_settled settled' with ⟨full', _, token', error', reached', there', _, _⟩ | ⟨reached', found', seen'⟩
    · rw [there'] at at_line
      exact absurd full' (Nat.not_le.mpr ((beside.room number at_line.isSome).mp (seen.room at_line.isSome)))
    · rw [found, found']
      exact ⟨at_line.alike, seen, seen'⟩

private theorem boundary_lookBeyond (number : Nat) {one other : Token} (named : one.kind = .identifier)
    (named' : other.kind = .identifier) :
    (boundary steps steps' limit offset).Coupled
      ((boundary steps steps' limit offset).seen number (some one) (some other))
      (peek 1) (peek 1) ((boundary steps steps' limit offset).window number one other) := by
  refine boundary_coupled (onwards_peek 1) fun before after ⟨seen, seen'⟩ => ?_
  have legal : ∀ earlier found, earlier < number + 1 + offset → tokenAt steps' earlier = some found →
      found.kind ≠ .illegal := by
    intro earlier found less isFound
    rw [Nat.add_right_comm] at less
    rcases Nat.lt_succ_iff_lt_or_eq.mp less with before | rfl
    · exact seen'.legal earlier found before isFound
    · obtain rfl := Option.some.inj (seen'.isNext.symm.trans isFound)
      simp [named']
  have at_line := beside.token (number + 1) legal
  have room := beside.room (number + 1)
  rw [Nat.add_right_comm] at at_line room
  rcases peekBeyond_seen seen named with ⟨full, token, error, reached, there, spent, failed⟩ | ⟨reached, found, window⟩
  · rcases peekBeyond_seen seen' named' with ⟨_, _, error', reached', _, _, failed'⟩ | ⟨reached', found', window'⟩
    · rw [failed, failed']
      exact .inl ⟨error, rfl, spent.isBudget⟩
    · rw [there] at at_line
      exact absurd full (Nat.not_le.mpr ((room (by rw [there]; rfl)).mpr (window'.room at_line.isSome.symm)))
  · rcases peekBeyond_seen seen' named' with ⟨full', token', error', reached', there', _, _⟩ |
      ⟨reached', found', window'⟩
    · rw [there'] at at_line
      exact absurd full' (Nat.not_le.mpr ((room at_line.isSome).mp (window.room at_line.isSome)))
    · rw [found, found']
      exact ⟨at_line.alike, window, window'⟩

omit [Alike α] in
private theorem boundary_lose (last : ∀ {number : Nat}, CutsOff steps number → steps.length = number + 1) {number : Nat}
    {kind : LiteralKind} {before after : ParseState} {one other : Token} (literal : one.kind = .literal kind)
    (illegal : other.kind = .illegal)
    (seen : (boundary steps steps' limit offset).seen number (some one) (some other) before after) :
    (boundary steps steps' limit offset).Lost (bump before) ∧
    (kind = .string → (boundary steps steps' limit offset).free) := by
  obtain ⟨seen, seen'⟩ := seen
  have at_line := beside.token number seen'.legal
  rw [seen.isNext, seen'.isNext] at at_line
  obtain ⟨reached, taken, settled, -⟩ := bump_seen seen (by simp [literal])
  rw [taken]
  cases at_line with
  | same same =>
    rw [literal, illegal] at same
    cases same
  | lineEnd inserted lineEnd =>
    rw [illegal] at lineEnd
    cases lineEnd
  | @spoilt _ _ cutoff found isCut isLiteral _ construct =>
    obtain rfl : found = kind := TokenKind.literal.inj (isLiteral.symm.trans literal)
    refine ⟨⟨number, other, ⟨one, _, isCut⟩, seen'.isNext, illegal, ?_⟩, fun isString =>
      ⟨cutoff, ?_, construct isString⟩⟩
    · rw [settled.consumed]
      exact Nat.lt_succ_self number
    · rw [List.getLast?_eq_getElem?, last ⟨one, _, isCut⟩, Nat.add_sub_cancel, isCut]
      rfl

private theorem boundary_reject (number : Nat) {one other : Token} (expected : List String) :
    (boundary steps steps' limit offset).Coupled
      ((boundary steps steps' limit offset).seen number (some one) (some other))
      (unexpected one expected : Parse α) (unexpected other expected) (fun _ _ _ _ => False) := by
  refine boundary_coupled (onwards_unexpected one expected) fun before after ⟨seen, seen'⟩ => ?_
  have at_line := beside.token number seen'.legal
  rw [seen.isNext, seen'.isNext] at at_line
  rcases unexpected_seen seen' expected with ⟨inserted', error', reached', failed', -⟩ |
    ⟨written', error', failed', blames'⟩
  · have inserted : one.IsInserted := by
      cases at_line with
      | same same => exact same.trans inserted'
      | lineEnd _ lineEnd =>
        rw [show other.kind = _ from inserted'] at lineEnd
        cases lineEnd
      | spoilt _ _ illegal =>
        rw [show other.kind = _ from inserted'] at illegal
        cases illegal
    rcases unexpected_seen seen expected with ⟨-, error, reached, failed, -⟩ | ⟨written, -⟩
    · rw [failed, failed']
      exact .inr (.inr ⟨error, error', rfl, rfl⟩)
    · exact absurd inserted written
  · have stray : (Failure.rejected error').BlamesNext steps' limit after :=
      ⟨number + offset, other, error', rfl, written', blames', seen'⟩
    rcases unexpected_seen seen expected with ⟨-, error, reached, failed, -⟩ | ⟨-, error, failed, -⟩
    · rw [failed, failed']
      exact .inr (.inl stray)
    · rw [failed, failed']
      exact .inr (.inl stray)

theorem boundary_lawful (last : ∀ {number : Nat}, CutsOff steps number → steps.length = number + 1) :
    (boundary steps steps' limit offset).Lawful where
  excuse _ gone := gone
  settled_marks settled := ⟨settled.1.toReading, settled.2.toReading⟩
  window_marks window := ⟨window.1.toReading, window.2.toReading⟩
  progress := by
    rintro number reached _ _ _ _ ⟨reading, reading'⟩ ⟨later, later'⟩ further
    exact ⟨reading.remaining_lt later further, reading'.remaining_lt later' (Nat.add_lt_add_right further offset)⟩
  seen_settled seen := ⟨seen.1.settled, seen.2.settled⟩
  look number := boundary_look beside number
  take number one other legal legal' := boundary_coupled onwards_bump fun before after ⟨seen, seen'⟩ => by
    obtain ⟨reached, taken, settled, -⟩ := bump_seen seen legal
    obtain ⟨reached', taken', settled', -⟩ := bump_seen seen' legal'
    rw [Nat.add_right_comm] at settled'
    rw [taken, taken']
    exact ⟨rfl, settled, settled'⟩
  reject number one other expected _ := boundary_reject beside number expected
  lose literal illegal seen := (boundary_lose beside last literal illegal seen).1
  spoil expected literal illegal seen := by
    rcases unexpected_seen seen.2 expected with ⟨inserted, -⟩ | ⟨written, error, failed, blames⟩
    · cases illegal.symm.trans inserted
    · rw [failed]
      exact .inr ⟨_, _, error, rfl, written, blames, seen.2⟩
  loose literal illegal seen := (boundary_lose beside last literal illegal seen).2 rfl
  ended number expected := boundary_coupled (onwards_endOfInput expected) fun before after _ => by
    rw [endOfInput_run, endOfInput_run]
    exact .inr (.inr ⟨_, _, rfl, rfl⟩)
  stop number limit := boundary_coupled (onwards_beyondLimit limit) fun before after ⟨reading, reading'⟩ => by
    obtain ⟨error, reached, failed, spent⟩ := Grammar.beyondLimit_reading limit reading
    obtain ⟨error', reached', failed', -⟩ := Grammar.beyondLimit_reading limit reading'
    rw [failed, failed']
    exact .inl ⟨error, rfl, spent.isBudget⟩
  lookBeyond number one other named named' := boundary_lookBeyond beside number named named'
  lookInWindow window := ⟨peek_window window.1, peek_window window.2⟩
  takeInWindow number one other next later := boundary_coupled onwards_bump fun before after ⟨window, window'⟩ => by
    obtain ⟨reached, taken, settled, -⟩ := bump_window window
    obtain ⟨reached', taken', settled', -⟩ := bump_window window'
    rw [Nat.add_right_comm] at settled'
    rw [taken, taken']
    exact ⟨rfl, settled, settled'⟩
  takeBoth number one other next later := boundary_coupled onwards_bump fun before after ⟨window, window'⟩ => by
    obtain ⟨reached, taken, -, -, seen⟩ := bump_window window
    obtain ⟨reached', taken', -, -, seen'⟩ := bump_window window'
    rw [Nat.add_right_comm] at seen'
    rw [taken, taken']
    exact ⟨rfl, seen (by simp), seen' (by simp)⟩
  loseBeyond := by
    rintro number before after one other next later literal illegal ⟨window, window'⟩
    obtain ⟨reached, taken, -, -, seen⟩ := bump_window window
    obtain ⟨reached', -, -, -, seen'⟩ := bump_window window'
    rw [Nat.add_right_comm] at seen'
    have common : (boundary steps steps' limit offset).seen (number + 1) (some next) (some later) reached reached' :=
      ⟨seen (by simp), seen' (by simp)⟩
    have lose := boundary_lose beside last literal illegal common
    have looked : peek 0 reached = .ok (some next) reached :=
      onStream_ok (TokenStream.peek_front (by rw [common.1.front]; rfl))
    refine ⟨lose.2 rfl, ?_⟩
    rw [bind_ok taken, Lawful.peekKind_bind, bind_ok looked]
    simp only [Option.map_some, literal, ↓reduceIte]
    exact lose.1

end

end Coupling

end GoPrompt
