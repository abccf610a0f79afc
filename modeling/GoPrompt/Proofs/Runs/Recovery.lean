import GoPrompt.Parse.Parser
import GoPrompt.Proofs.Runs.Alone
import GoPrompt.Proofs.Runs.Onward
import GoPrompt.Proofs.Stream.Anew
import GoPrompt.Proofs.Stream.Lookahead

/-! Going on behind a rejected statement. The parser skips tokens up to the next separator, and the statement behind it
is read or fails at a token further on, so every turn of the recovery moves past the token that was rejected before. -/

namespace GoPrompt

open Parse

namespace Grammar

/-- What is done with a token of some kind that is skipped, with brackets open in front of it. -/
def skip (depth : Nat) (kind : TokenKind) : Turn Nat SyncStop :=
  match kind with
  | .semicolon .endOfInput => .done .endOfInput
  | .semicolon _ => if depth = 0 then .done .separator else .again depth
  | kind => .again (depthAfter kind depth)

def skipNext (depth : Nat) : Parse (Turn Nat SyncStop) := do
  match ← onStream TokenStream.next with
  | none => return .done .endOfInput
  | some token => return skip depth token.kind

/-- How many tokens are skipped to get behind the next separator, if there is one. -/
def skipped (depth : Nat) : List TokenKind → Option Nat
  | [] => none
  | kind :: later => match skip depth kind with
    | .done .endOfInput => none
    | .done .separator => some 1
    | .again inner => (skipped inner later).map (· + 1)

theorem synchronize_eq : synchronize = iterate skipNext 0 := by
  unfold synchronize
  congr 1
  funext depth
  refine bind_congr fun found => ?_
  cases found with
  | none => rfl
  | some token =>
    dsimp only [skip]
    cases token.kind with
    | semicolon origin => cases origin <;> rfl
    | _ => rfl

end Grammar

section

variable {steps : List LexStep} {limit number : Nat} {state : ParseState}

/-- A statement at the prompt is read, or it fails at a token that is still to come. -/
theorem topLevelStatement_ends (levels : Nat) (settled : state.stream.Settled steps limit number) :
    match Grammar.topLevelStatement levels state with
    | .ok _ after => state.stream.Onward after.stream ∧ ∃ reached, number ≤ reached ∧
        after.stream.Settled steps limit reached
    | .error failure after => state.stream.Onward after.stream ∧ Ends steps limit failure after := by
  have outcome := ((Grammar.levels_deep (Coupling.alone_lawful steps limit) levels (levels - state.depth)).statement
    .topLevel number).outcome
    state state ⟨number, Nat.le_refl _, rfl, settled⟩
  have kept := ((Grammar.levels_deep (Coupling.onwardFrom_lawful state.stream) levels (levels - state.depth)).statement
    .topLevel
    number).keeps state (.refl state.stream)
  unfold Grammar.topLevelStatement
  cases ran : (Grammar.levels levels (levels - state.depth)).statement .topLevel state with
  | ok statement after =>
    rw [ran] at outcome kept
    obtain ⟨-, reached, further, -, settled⟩ := outcome.resolve_left And.left
    exact ⟨kept, reached, further, settled⟩
  | error failure after =>
    rw [ran] at outcome kept
    exact ⟨kept, (outcome.resolve_left And.left).2⟩

end

/-- Where the skipping of tokens ends: behind a separator, at the end of the text, or where the token budget does. -/
inductive Skips (steps : List LexStep) (limit number depth : Nat) :
    EStateM.Result Failure ParseState Grammar.SyncStop → Prop
  | separator {reached : Nat} {after : ParseState} (further : number < reached)
      (stands : after.stream.Stands steps limit reached) (same : after.depth = depth) :
      Skips steps limit number depth (.ok .separator after)
  | endOfInput {after : ParseState} : Skips steps limit number depth (.ok .endOfInput after)
  | budget {error : ParseError} {after : ParseState} (isBudget : error.IsBudget) :
      Skips steps limit number depth (.error (.rejected error) after)

theorem Skips.weaken {steps : List LexStep} {limit number place depth : Nat}
    {result : EStateM.Result Failure ParseState Grammar.SyncStop} (skips : Skips steps limit place depth result)
    (before : number ≤ place) :
    Skips steps limit number depth result := by
  cases skips with
  | separator further stands same => exact .separator (Nat.lt_of_le_of_lt before further) stands same
  | endOfInput => exact .endOfInput
  | budget isBudget => exact .budget isBudget

private theorem skip_stands {steps : List LexStep} {limit number : Nat} (brackets : Nat) {state : ParseState}
    (stands : state.stream.Stands steps limit number) :
    Skips steps limit number state.depth (iterate Grammar.skipNext brackets state) := by
  rcases stands.next with ⟨-, token, after, -, failed⟩ | ⟨none, after, ended⟩ | ⟨token, after, there, took, stands'⟩
  · have stopped : Grammar.skipNext brackets state = .error _ _ := bind_error (onStream_error failed)
    rw [iterate_error stopped]
    exact .budget (.inl rfl)
  · have finished : Grammar.skipNext brackets state = .ok (.done .endOfInput) _ := bind_ok (onStream_ok ended)
    rw [iterate_done finished]
    exact .endOfInput
  · have skipped : Grammar.skipNext brackets state =
        .ok (Grammar.skip brackets token.kind) { state with stream := after } :=
      bind_ok (onStream_ok took)
    cases turn : Grammar.skip brackets token.kind with
    | done stop =>
      rw [turn] at skipped
      rw [iterate_done skipped]
      cases stop with
      | separator => exact .separator (Nat.lt_succ_self number) stands' rfl
      | endOfInput => exact .endOfInput
    | again inner =>
      rw [turn] at skipped
      have room : number < limit := by
        have within := stands'.within
        have count := stands'.count
        omega
      have progress : ParseState.remaining { state with stream := after } < state.remaining := by
        show after.remaining < state.stream.remaining
        rw [stands.remaining, stands'.remaining]
        omega
      rw [iterate_again skipped progress]
      have later : (ParseState.stream { state with stream := after }).Stands steps limit (number + 1) := stands'
      exact (skip_stands inner later).weaken (Nat.le_succ number)
termination_by limit - number

private theorem synchronize_stands {steps : List LexStep} {limit number : Nat} {state : ParseState}
    (stands : state.stream.Stands steps limit number) :
    Skips steps limit number state.depth (Grammar.synchronize state) := by
  rw [Grammar.synchronize_eq]
  exact skip_stands 0 stands

section

variable {lexer : Lexer} {steps : List LexStep} {limit number : Nat} (lexes : lexer.Lexes steps)
  (room : (LexStep.tokens steps).length ≤ limit)
include lexes room

/-- With room for all tokens, so many of them are skipped. -/
private theorem skip_lands {kinds : List TokenKind} {brackets : Nat} {state : ParseState}
    (stands : state.stream.Stands steps limit number) (ahead : (LexStep.kinds steps).drop number = kinds) :
    match Grammar.skipped brackets kinds with
    | some count => ∃ after, iterate Grammar.skipNext brackets state = .ok .separator after ∧
        after.stream.Stands steps limit (number + count)
    | none => ∃ after, iterate Grammar.skipNext brackets state = .ok .endOfInput after := by
  induction kinds generalizing number brackets state with
  | nil =>
    have missing : tokenAt steps number = none := by
      have short : (LexStep.kinds steps)[number]? = none := List.getElem?_eq_none (List.drop_eq_nil_iff.mp ahead)
      rwa [lexes.getElem?_kinds, Option.map_eq_none_iff] at short
    rcases stands.next with ⟨-, token, -, there, -⟩ | ⟨-, after, ended⟩ | ⟨token, -, there, -⟩
    · cases missing.symm.trans there
    · have finished : Grammar.skipNext brackets state = .ok (.done .endOfInput) _ := bind_ok (onStream_ok ended)
      exact ⟨_, iterate_done finished⟩
    · cases missing.symm.trans there
  | cons kind later ih =>
    have isNext : (LexStep.kinds steps)[number]? = some kind := by rw [← List.head?_drop, ahead]; rfl
    have behind : (LexStep.kinds steps).drop (number + 1) = later := by rw [← List.drop_drop, ahead]; rfl
    have inside : number < limit := by
      have less := (List.getElem?_eq_some_iff.mp isNext).1
      rw [LexStep.kinds, List.length_map] at less
      omega
    rw [lexes.getElem?_kinds] at isNext
    obtain ⟨token, there, rfl⟩ := Option.map_eq_some_iff.mp isNext
    rcases stands.next with ⟨full, -⟩ | ⟨none, -⟩ | ⟨found, after, isFound, took, stands'⟩
    · omega
    · cases none.symm.trans there
    · cases there.symm.trans isFound
      have turned : Grammar.skipNext brackets state =
          .ok (Grammar.skip brackets token.kind) { state with stream := after } :=
        bind_ok (onStream_ok took)
      unfold Grammar.skipped
      cases turn : Grammar.skip brackets token.kind with
      | done stop =>
        rw [turn] at turned
        cases stop with
        | separator => exact ⟨_, iterate_done turned, stands'⟩
        | endOfInput => exact ⟨_, iterate_done turned⟩
      | again inner =>
        rw [turn] at turned
        have progress : ParseState.remaining { state with stream := after } < state.remaining := by
          show after.remaining < state.stream.remaining
          have within := stands'.within
          have count := stands'.count
          rw [stands.remaining, stands'.remaining]
          omega
        have lands := @ih (number + 1) inner { state with stream := after } stands' behind
        rw [iterate_again turned progress]
        dsimp only
        cases isCount : Grammar.skipped inner later with
        | none =>
          rw [isCount] at lands
          exact lands
        | some count =>
          rw [isCount] at lands
          obtain ⟨reached, ran, stands⟩ := lands
          exact ⟨reached, ran, Nat.add_right_comm number 1 count ▸ stands⟩

theorem synchronize_lands {state : ParseState} (stands : state.stream.Stands steps limit number) :
    match Grammar.skipped 0 ((LexStep.kinds steps).drop number) with
    | some count => ∃ after, Grammar.synchronize state = .ok .separator after ∧
        after.stream.Stands steps limit (number + count)
    | none => ∃ after, Grammar.synchronize state = .ok .endOfInput after := by
  rw [Grammar.synchronize_eq]
  exact skip_lands lexes room stands rfl

end

theorem synchronize_onward (state : ParseState) :
    match Grammar.synchronize state with
    | .ok _ after | .error _ after => state.stream.Onward after.stream := by
  have skips : ∀ depth, Onwards (Grammar.skipNext depth) := fun depth => by
    refine (onwards_onStream TokenStream.next_onward).bind fun found => ?_
    cases found <;> exact fun state => .refl state.stream
  have kept := (Coupling.onwardFrom_lawful state.stream).iterate_keeps
    (fun depth => Coupling.onwardFrom_keeps (skips depth)) 0 state (.refl state.stream)
  rw [Grammar.synchronize_eq]
  cases ran : iterate Grammar.skipNext 0 state <;> rw [ran] at kept <;> exact kept

namespace Parser

/-- What the recovery makes of the run over a statement. -/
def resumed (parser : Parser) : EStateM.Result Failure ParseState Statement → Except ParseError Bool × Parser
  | .ok _ state => (.ok true, parser.withState state)
  | .error (.needMoreInput error) state => (.ok false, (parser.withState state).report error)
  | .error (.rejected error) state =>
    if error.isFault then (.error error, parser.withState state)
    else (.ok true, ((parser.withState state).report error).resetDepth)

/-- What a turn of the recovery comes to, from a token with the given number on. It goes on behind a statement, or from
a token that it has rejected, and in both cases from one further on. -/
inductive Recovers (steps : List LexStep) (limit number : Nat) (parser : Parser) :
    Except ParseError Bool × Parser → Prop
  | fault {error : ParseError} {state : ParseState} (isBudget : error.IsBudget) :
      Recovers steps limit number parser (.error error, parser.withState state)
  | ended {state : ParseState} : Recovers steps limit number parser (.ok false, parser.withState state)
  | wanted {place : Nat} {found : Option Token} {error : ParseError} {state : ParseState} (further : number < place)
      (text : state.stream.text = parser.text) (isNext : tokenAt steps place = found)
      (asks : error.Asks state.stream found) :
      Recovers steps limit number parser (.ok false, (parser.withState state).report error)
  | read {reached : Nat} {state : ParseState} (further : number < reached) (text : state.stream.text = parser.text)
      (stands : state.stream.Stands steps limit reached) :
      Recovers steps limit number parser (.ok true, parser.withState state)
  | rejected {reached : Nat} {token : Token} {error : ParseError} {state : ParseState} (further : number < reached)
      (text : state.stream.text = parser.text) (stands : state.stream.Stands steps limit reached)
      (isNext : tokenAt steps reached = some token) (written : ¬ token.IsInserted) (blames : error.Blames token) :
      Recovers steps limit number parser (.ok true, ((parser.withState state).report error).resetDepth)

theorem recoverOnce_recovers {steps : List LexStep} {limit number : Nat} {parser : Parser}
    (stands : parser.state.stream.Stands steps limit number) :
    parser.Recovers steps limit number parser.recoverOnce := by
  have skips := synchronize_stands stands
  have moved := synchronize_onward parser.state
  unfold recoverOnce
  generalize Grammar.synchronize parser.state = skipped at skips moved
  cases skips with
  | budget isBudget => exact .fault isBudget
  | endOfInput => exact .ended
  | @separator reached state further stands =>
    dsimp only at moved ⊢
    rcases peek_settled stands with ⟨-, -, _, error, after, -, spent, failed⟩ | ⟨middle, found, seen⟩
    · rw [failed]
      exact .fault spent.isBudget
    · have looked := onwards_peek 0 state
      rw [found] at looked ⊢
      cases next : tokenAt (LexStep.clearedTo reached steps) reached with
      | none => exact .ended
      | some token =>
        rw [next] at seen
        have ends := topLevelStatement_ends parser.limits.maxNesting seen.settled
        dsimp only
        cases ran : Grammar.topLevelStatement parser.limits.maxNesting middle with
        | ok statement after =>
          rw [ran] at ends
          obtain ⟨onward, place, later, settled⟩ := ends
          exact .read (Nat.lt_of_lt_of_le further later) ((moved.trans looked).trans onward).text (settled.stands later)
        | error failure after =>
          rw [ran] at ends
          obtain ⟨onward, ends⟩ := ends
          have text := ((moved.trans looked).trans onward).text
          have later := onward.consumed
          rw [seen.consumed] at later
          cases ends with
          | budget spent =>
            dsimp only
            rw [if_pos spent.isBudget.isFault]
            exact .fault spent.isBudget
          | @blamed place token error _ seen written blames =>
            rw [seen.consumed] at later
            have isNext := seen.isNext
            rw [tokenAt_clearedTo later] at isNext
            dsimp only
            rw [if_neg (Bool.eq_false_iff.mp blames.not_isFault)]
            exact .rejected (Nat.lt_of_lt_of_le further later) text (seen.settled.stands later) isNext written blames
          | @wanted place found error _ seen inserted observed asks =>
            rw [seen.consumed] at later
            have isNext := seen.isNext
            rw [tokenAt_clearedTo later] at isNext
            exact .wanted (Nat.lt_of_lt_of_le further later) text isNext asks

end Parser

end GoPrompt
