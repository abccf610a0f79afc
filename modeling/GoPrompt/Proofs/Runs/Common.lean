import GoPrompt.Proofs.Coupled.Statements
import GoPrompt.Proofs.Stream.Onward
import GoPrompt.Proofs.Stream.Parsing

/-! Runs over two texts of which one has the first tokens of the other, at its start or further on. As long as the run
over the first text looks at no other tokens, the run over the second one does the same; so what is read of the one is
read within the other, and a token that is rejected in the one is rejected in the other, too. -/

namespace GoPrompt

open Parse

/-- Whether the first `shared` tokens of two texts have the same kinds. -/
def Agree (first second : List LexStep) (shared : Nat) : Prop := ∀ number, number < shared →
  ∃ one other, tokenAt first number = some one ∧ tokenAt second number = some other ∧ one.kind = other.kind

theorem Agree.symm {first second : List LexStep} {shared : Nat} (agree : Agree first second shared) :
    Agree second first shared := by
  intro number less
  obtain ⟨one, other, there, there', same⟩ := agree number less
  exact ⟨other, one, there', there, same.symm⟩

/-- Kinds that are the same, but that the text of the first one may end where that of the other one only ends a line. -/
def TokenKind.Recurs (one other : TokenKind) : Prop :=
  one = other ∨ one = .semicolon .endOfInput ∧ Parse.isSemicolon other = true

theorem TokenKind.Recurs.resembles {one other : TokenKind} (recurs : one.Recurs other) : one.Resembles other := by
  rcases recurs with rfl | ⟨rfl, isSemicolon⟩
  · exact .same one
  · cases other with
    | semicolon origin => exact .semicolons _ _
    | identifier | keyword | literal | operator | illegal => cases isSemicolon

/-- Whether the first `shared` tokens of a text come again in another one, behind `offset` tokens of that. -/
def Recur (first second : List LexStep) (offset shared : Nat) : Prop := ∀ number, number < shared →
  ∃ one other, tokenAt first number = some one ∧ tokenAt second (number + offset) = some other ∧
    one.kind.Recurs other.kind

theorem Agree.recur {first second : List LexStep} {shared : Nat} (agree : Agree first second shared) :
    Recur first second 0 shared := fun number less =>
  let ⟨one, other, there, there', same⟩ := agree number less
  ⟨one, other, there, there', .inl same⟩

/-- Two runs that have seen the same number of tokens have seen tokens of such kinds next. -/
theorem Recur.kind {first second : List LexStep} {limit limit' offset shared number : Nat} {before after : TokenStream}
    {one other : Token} (recur : Recur first second offset shared) (less : number < shared)
    (seen : before.Seen first limit number (some one)) (seen' : after.Seen second limit' (number + offset) (some other)) :
    one.kind.Recurs other.kind := by
  obtain ⟨found, found', there, there', same⟩ := recur number less
  obtain rfl := Option.some.inj (there.symm.trans seen.isNext)
  obtain rfl := Option.some.inj (there'.symm.trans seen'.isNext)
  exact same

def Token.IsLiteral (token : Token) : Prop := ∃ kind, token.kind = .literal kind

theorem Lexer.Lexes.cutsOff_literal {lexer : Lexer} {steps : List LexStep} (lexes : lexer.Lexes steps) {number : Nat}
    {token : Token} (cuts : CutsOff steps number) (there : tokenAt steps number = some token) : token.IsLiteral := by
  obtain ⟨found, cutoff, isCut⟩ := cuts
  obtain ⟨_, _, reads⟩ := lexes.read_at isCut
  rw [tokenAt, isCut] at there
  obtain rfl := Option.some.inj there
  exact reads.kind

namespace TokenStream

/-- A stream that has used more than the first `shared` tokens, or has run into the end of the text. -/
def Strays (steps : List LexStep) (shared : Nat) (stream : TokenStream) : Prop :=
  shared ≤ stream.consumed ∨ shared < stream.scanned ∨ (stream.exhausted = true ∧ ¬ CutsOff steps (shared - 1))

theorem Onward.strays {steps : List LexStep} {shared : Nat} {before after : TokenStream} (onward : before.Onward after)
    (strays : before.Strays steps shared) : after.Strays steps shared := by
  rcases strays with consumed | scanned | ⟨exhausted, uncut⟩
  · exact .inl (Nat.le_trans consumed onward.consumed)
  · exact .inr (.inl (Nat.lt_of_lt_of_le scanned onward.scanned))
  · exact .inr (.inr ⟨onward.exhausted exhausted, uncut⟩)

end TokenStream

namespace Coupling

/-- Two runs over texts of which the second one has the first `shared` tokens of the first one, behind
`offset` tokens. -/
def common (first second : List LexStep) (limit limit' offset shared : Nat) : Coupling where
  marks number before after :=
    number < shared ∧ before.stream.Reading first limit number ∧ after.stream.Reading second limit' (number + offset)
  settled number before after :=
    number < shared ∧ before.stream.Settled first limit number ∧ after.stream.Settled second limit' (number + offset)
  seen number one other before after :=
    number < shared ∧ before.stream.Seen first limit number one ∧
      after.stream.Seen second limit' (number + offset) other
  window number one other next later before after :=
    number + 1 < shared ∧ before.stream.Window first limit number one next ∧
      after.stream.Window second limit' (number + offset) other later
  gone state := state.stream.Strays first shared
  excused failure state := state.stream.Strays first shared ∨ ∃ error, failure = .rejected error ∧ error.IsBudget
  free := True
  stray _ _ := True
  fails failure before failure' after :=
    (∃ error, failure = .needMoreInput error) ∨
      ∃ number one other error error', (failure = .rejected error ∧ failure' = .rejected error') ∧
        before.stream.Seen first limit number (some one) ∧
          after.stream.Seen second limit' (number + offset) (some other) ∧
        error.Blames one ∧ error'.Blames other

section

variable {first second : List LexStep} {limit limit' offset shared : Nat} {α : Type} [Alike α]

omit [Alike α] in
private theorem common_keeps {program : Parse α} (onwards : Onwards program) :
    (common first second limit limit' offset shared).Keeps program := by
  intro state strays
  have moved := onwards state
  cases ran : program state with
  | ok value after =>
    rw [ran] at moved
    exact moved.strays strays
  | error failure after =>
    rw [ran] at moved
    exact .inl (moved.strays strays)

private theorem common_coupled {pre : ParseState → ParseState → Prop} {one other : Parse α}
    {post : α → α → ParseState → ParseState → Prop} (onwards : Onwards one)
    (runs : ∀ before after, pre before after →
      (∃ error reached, one before = .error (.rejected error) reached ∧ error.IsBudget) ∨
      (∃ value reached, one before = .ok value reached ∧ reached.stream.Strays first shared) ∨
      (common first second limit limit' offset shared).Matches post (one before) (other after)) :
    (common first second limit limit' offset shared).Coupled pre one other post := by
  refine ⟨common_keeps onwards, fun before after holds => ?_⟩
  rcases runs before after holds with ⟨error, reached, failed, budget⟩ | ⟨value, reached, ran, strays⟩ | matched
  · rw [failed]
    exact .inl (Lost.alone (.inr ⟨error, rfl, budget⟩) trivial)
  · rw [ran]
    exact .inl (Lost.alone strays trivial)
  · exact .inr matched

private theorem common_lawful
    (literals : ∀ {number token}, CutsOff first number → tokenAt first number = some token → token.IsLiteral)
    (recur : Recur first second offset shared)
    (room : ∀ number, number < shared → number < limit → number + offset < limit') :
    (common first second limit limit' offset shared).Lawful where
  excuse _ strays := .inl strays
  settled_marks settled := ⟨settled.1, settled.2.1.toReading, settled.2.2.toReading⟩
  window_marks window := ⟨Nat.lt_of_succ_lt window.1, window.2.1.toReading, window.2.2.toReading⟩
  progress := by
    rintro number reached _ _ _ _ ⟨-, reading, reading'⟩ ⟨-, later, later'⟩ further
    exact ⟨reading.remaining_lt later further, reading'.remaining_lt later' (Nat.add_lt_add_right further offset)⟩
  seen_settled seen := ⟨seen.1, seen.2.1.settled, seen.2.2.settled⟩
  look number := common_coupled (onwards_peek 0) fun before after ⟨less, settled, settled'⟩ => by
    obtain ⟨one, other, there, there', same⟩ := recur number less
    rcases peek_settled settled with ⟨_, _, _, error, reached, _, budget, failed⟩ | ⟨reached, found, seen⟩
    · exact .inl ⟨error, reached, failed, budget.isBudget⟩
    · rw [there] at found seen
      have inside := room number less (seen.room rfl)
      rcases peek_settled settled' with ⟨full, _⟩ | ⟨reached', found', seen'⟩
      · omega
      · rw [there'] at found' seen'
        rw [found, found']
        exact .inr (.inr ⟨same.resembles, less, seen, seen'⟩)
  take number one other legal legal' := common_coupled onwards_bump fun before after ⟨less, seen, seen'⟩ => by
    obtain ⟨reached, taken, settled, -⟩ := bump_seen seen legal
    obtain ⟨reached', taken', settled', -⟩ := bump_seen seen' legal'
    rw [taken, taken']
    by_cases inside : number + 1 < shared
    · rw [Nat.add_right_comm] at settled'
      exact .inr (.inr ⟨rfl, inside, settled, settled'⟩)
    · refine .inr (.inl ⟨(), reached, rfl, .inl ?_⟩)
      rw [settled.consumed]
      omega
  reject number one other expected _ :=
      common_coupled (onwards_unexpected one expected) fun before after ⟨less, seen, seen'⟩ => by
    rcases unexpected_seen seen expected with ⟨inserted, error, reached, failed, -⟩ | ⟨written, error, failed, blames⟩
    · rcases unexpected_seen seen' expected with ⟨-, error', reached', failed', -⟩ | ⟨-, error', failed', -⟩
      · rw [failed, failed']
        exact .inr (.inr (.inl ⟨error, rfl⟩))
      · rw [failed, failed']
        exact .inr (.inr (.inl ⟨error, rfl⟩))
    · have same := (recur.kind less seen seen').resolve_right fun inserted => written inserted.1
      rcases unexpected_seen seen' expected with ⟨inserted', -⟩ | ⟨-, error', failed', blames'⟩
      · exact absurd (same.trans inserted') written
      · rw [failed, failed']
        exact .inr (.inr (.inr ⟨number, one, other, error, error', ⟨rfl, rfl⟩, seen, seen', blames, blames'⟩))
  lose literal illegal seen := by
    rcases recur.kind seen.1 seen.2.1 seen.2.2 with same | ⟨inserted, -⟩
    · rw [literal, illegal] at same
      cases same
    · cases literal.symm.trans inserted
  spoil _ _ _ _ := strays_of_free trivial _
  loose _ _ _ := trivial
  ended number expected := common_coupled (onwards_endOfInput expected) fun before after ⟨less, seen, _⟩ => by
    obtain ⟨_, _, there, -⟩ := recur number less
    cases there.symm.trans seen.isNext
  stop number limit := common_coupled (onwards_beyondLimit limit) fun before after ⟨_, reading, _⟩ => by
    obtain ⟨error, reached, failed, budget⟩ := Grammar.beyondLimit_reading limit reading
    exact .inl ⟨error, reached, failed, budget.isBudget⟩
  lookBeyond number one other named named' := common_coupled (onwards_peek 1) fun before after ⟨less, seen, seen'⟩ => by
    rcases peekBeyond_seen seen named with ⟨_, _, error, reached, _, budget, failed⟩ | ⟨reached, found, window⟩
    · exact .inl ⟨error, reached, failed, budget.isBudget⟩
    · have count := window.count
      rw [window.front] at count
      by_cases inside : number + 1 < shared
      · obtain ⟨next, later, there, there', same⟩ := recur (number + 1) inside
        rw [Nat.add_right_comm] at there'
        rw [there] at found window
        have inside' := room (number + 1) inside (window.room rfl)
        rcases peekBeyond_seen seen' named' with ⟨full, _⟩ | ⟨reached', found', window'⟩
        · omega
        · rw [there'] at found' window'
          rw [found, found']
          exact .inr (.inr ⟨same.resembles, inside, window, window'⟩)
      · -- The name is the last token in common, so looking beyond it leaves the common path.
        refine .inr (.inl ⟨_, reached, found, ?_⟩)
        cases there : tokenAt first (number + 1) with
        | some next =>
          rw [there] at count
          simp only [Option.toList_some, List.length_cons, List.length_nil] at count
          exact .inr (.inl (by omega))
        | none =>
          refine .inr (.inr ⟨window.missing there, fun cuts => ?_⟩)
          rw [show shared - 1 = number by omega] at cuts
          obtain ⟨kind, literal⟩ := literals cuts seen.isNext
          rw [named] at literal
          cases literal
  lookInWindow window := ⟨peek_window window.2.1, peek_window window.2.2⟩
  takeInWindow number one other next later :=
      common_coupled onwards_bump fun before after ⟨inside, window, window'⟩ => by
    obtain ⟨reached, taken, settled, -⟩ := bump_window window
    obtain ⟨reached', taken', settled', -⟩ := bump_window window'
    rw [Nat.add_right_comm] at settled'
    rw [taken, taken']
    exact .inr (.inr ⟨rfl, inside, settled, settled'⟩)
  takeBoth number one other next later := common_coupled onwards_bump fun before after ⟨inside, window, window'⟩ => by
    obtain ⟨reached, taken, -, -, seen⟩ := bump_window window
    obtain ⟨reached', taken', -, -, seen'⟩ := bump_window window'
    rw [Nat.add_right_comm] at seen'
    rw [taken, taken']
    exact .inr (.inr ⟨rfl, inside, seen nofun, seen' nofun⟩)
  loseBeyond := by
    rintro number before after one other next later literal illegal ⟨inside, window, window'⟩
    obtain ⟨reached, -, -, -, seen⟩ := bump_window window
    obtain ⟨reached', -, -, -, seen'⟩ := bump_window window'
    rw [Nat.add_right_comm] at seen'
    rcases recur.kind inside (seen nofun) (seen' nofun) with same | ⟨inserted, -⟩
    · rw [literal, illegal] at same
      cases same
    · cases literal.symm.trans inserted

end

end Coupling

theorem TokenStream.Settled.stays {steps : List LexStep} {limit number : Nat} {stream : TokenStream} {token : Token}
    (settled : stream.Settled steps limit number) (there : tokenAt steps number = some token) :
    ¬ stream.Strays steps (number + 1) := by
  have count := settled.count
  have short := settled.short
  rintro (consumed | scanned | ⟨exhausted, uncut⟩)
  · rw [settled.consumed] at consumed
    omega
  · omega
  · cases ahead : stream.lookahead with
    | nil =>
      rw [ahead] at count
      cases there.symm.trans (settled.ended exhausted number (Nat.le_of_eq count))
    | cons => exact uncut (settled.fresh (by simp [ahead]) exhausted)

private theorem Coupling.common_rejected {first second : List LexStep} {limit limit' offset number : Nat} {α : Type} [Alike α]
    {post : α → α → ParseState → ParseState → Prop} {result : EStateM.Result Failure ParseState α} {token : Token} {error : ParseError}
    {reached : ParseState} {left : Prop} {failed : EStateM.Result Failure ParseState α} (isFailed : failed = .error (.rejected error) reached)
    (outcome : ((common first second limit limit' offset (number + 1)).Lost failed ∧ left) ∨
      (common first second limit limit' offset (number + 1)).Matches post failed result)
    (seen : reached.stream.Seen first limit number (some token)) (blames : error.Blames token) :
    ∃ other error' reached', result = .error (.rejected error') reached' ∧
      reached'.stream.Seen second limit' (number + offset) (some other) ∧ error'.Blames other := by
  subst isFailed
  rcases outcome with ⟨strays | ⟨_, ⟨⟩, budget⟩, -⟩ | matched
  · exact absurd strays (seen.settled.stays seen.isNext)
  · exact absurd budget blames.not_isBudget
  · cases result with
    | ok => exact matched.elim
    | error failure reached' =>
      rcases matched with ⟨_, never⟩ | ⟨place, one, other, _, error', ⟨same, rfl⟩, seenOne, seenOther, _, blames'⟩
      · cases never
      · obtain rfl : place = number := seenOne.consumed.symm.trans seen.consumed
        exact ⟨other, error', reached', rfl, seenOther, blames'⟩

/-- A token that one run rejects is rejected by every run that has found tokens of the same kinds up to it. -/
theorem wholeText_shared {first second : List LexStep} {lexer : Lexer} {maxTokens number limit : Nat} {token : Token}
    {error : ParseError} {before after reached : ParseState} (lexes : lexer.Lexes first)
    (agree : Agree first second (number + 1)) (start : before.stream.Settled first maxTokens 0)
    (shallow : before.depth = 0) (start' : after.stream.Settled second maxTokens 0) (shallow' : after.depth = 0)
    (failed : Grammar.wholeText limit before = .error (.rejected error) reached)
    (seen : reached.stream.Seen first maxTokens number (some token)) (blames : error.Blames token) :
    ∃ other error' reached', Grammar.wholeText limit after = .error (.rejected error') reached' ∧
      reached'.stream.Seen second maxTokens number (some other) ∧ error'.Blames other := by
  have started : (Coupling.common first second maxTokens maxTokens 0 (number + 1)).settled 0 before after :=
    ⟨Nat.succ_pos _, start, start'⟩
  have outcome := Grammar.wholeText_outcome (Coupling.common_lawful lexes.cutsOff_literal agree.recur fun _ _ room =>
    room) limit started shallow shallow'
  exact Coupling.common_rejected failed outcome seen blames

section

variable {first second : List LexStep} {limit limit' offset begun number levels : Nat}
  {before after reached : ParseState}
  (literals : ∀ {number token}, CutsOff first number → tokenAt first number = some token → token.IsLiteral)
  (recur : Recur first second offset (number + 1))
  (room : ∀ place, place < number + 1 → place < limit → place + offset < limit') (within : begun ≤ number)
  (start : before.stream.Settled first limit begun) (shallow : before.depth = 0)
  (start' : after.stream.Settled second limit' (begun + offset)) (shallow' : after.depth = 0)
include literals recur room within start shallow start' shallow'

theorem topLevelStatement_recurs {statement : Statement} {token : Token} (there : tokenAt first number = some token)
    (ran : Grammar.topLevelStatement levels before = .ok statement reached)
    (ended : reached.stream.Settled first limit number) :
    ∃ statement' reached', Grammar.topLevelStatement levels after = .ok statement' reached' ∧
      reached'.stream.Settled second limit' (number + offset) := by
  have started : (Coupling.common first second limit limit' offset (number + 1)).settled begun before after :=
    ⟨Nat.lt_succ_of_le within, start, start'⟩
  have outcome := Grammar.topLevelStatement_outcome (Coupling.common_lawful literals recur room)
    levels started shallow shallow'
  rw [ran] at outcome
  have matched := outcome.resolve_left fun lost => ended.stays there lost.1
  cases ran' : Grammar.topLevelStatement levels after with
  | error => simp only [ran', Coupling.Matches] at matched
  | ok statement' reached' =>
    rw [ran'] at matched
    obtain ⟨-, place, -, -, settled, settled'⟩ := matched
    obtain rfl : place = number := settled.consumed.symm.trans ended.consumed
    exact ⟨statement', reached', rfl, settled'⟩

end

end GoPrompt
