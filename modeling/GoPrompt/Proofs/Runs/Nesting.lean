import GoPrompt.Proofs.Calls.Parsers
import GoPrompt.Proofs.Runs.Front
import GoPrompt.Proofs.Runs.Invariants
import GoPrompt.Proofs.Runs.Parsed
import GoPrompt.Proofs.Runs.Recovery

/-! The nesting depth across the calls of a parser. Every level is given back, whether it is read or fails inside; only
the one that finds no level left is not, so a call that ends with a fault may leave one level in use. Where an
expression stands is no part of the state, and a statement at the prompt never starts in the header of a clause. -/

namespace GoPrompt

open Parse

def Failure.error : Failure → ParseError
  | .needMoreInput error | .rejected error => error

/-- The depth behind an error, by the depth at which the run began. -/
inductive Overruns (depth : Nat) (error : ParseError) : Nat → Prop
  /-- All levels have been given back. -/
  | balanced (other : error.kind ≠ .nestingLimitExceeded) : Overruns depth error depth
  /-- The level that found none left has not been given back. -/
  | leaked (fault : error.isFault = true) : Overruns depth error (depth + 1)

private theorem Overruns.balanced_of_legal {depth reached : Nat} {error : ParseError}
    (overruns : Overruns depth error reached) (legal : ¬ error.isFault = true) : reached = depth := by
  cases overruns with
  | balanced => rfl
  | leaked fault => exact absurd fault legal

theorem Overruns.le {depth reached : Nat} {error : ParseError} (overruns : Overruns depth error reached) :
    reached ≤ depth + 1 := by
  cases overruns with
  | balanced => exact Nat.le_succ depth
  | leaked => exact Nat.le_refl _

theorem Overruns.exceeded {depth reached : Nat} {error : ParseError} (overruns : Overruns depth error reached)
    (exceeded : error.kind = .nestingLimitExceeded) : reached = depth + 1 := by
  cases overruns with
  | balanced other => exact absurd exceeded other
  | leaked => rfl

/-- A run fails as it should. -/
structure FailsAt (depth : Nat) (failure : Failure) (state : ParseState) : Prop where
  reached : state.Reached
  overruns : Overruns depth failure.error state.depth
  asks : ∀ error, failure = .needMoreInput error → state.depth = depth

/-- A state that a parser can come to, with a depth. -/
structure AtDepth (depth : Nat) (state : ParseState) : Prop where
  reached : state.Reached
  same : state.depth = depth

section

variable {depth : Nat} {state after : ParseState}

theorem AtDepth.fails (atDepth : AtDepth depth state) (failure : Failure)
    (other : failure.error.kind ≠ .nestingLimitExceeded) :
    FailsAt depth failure state :=
  ⟨atDepth.reached, atDepth.same ▸ .balanced other, fun _ _ => atDepth.same⟩

/-- A step on the stream keeps the depth, and what it fails with has nothing to do with the nesting. -/
theorem AtDepth.onStream {α : Type} (operation : TokenStream → Except ParseError α × TokenStream)
    (atDepth : AtDepth depth state) (reached : ParseState.Reached { state with stream := (operation state.stream).2 })
    (fails : ∀ {error after}, operation state.stream = (.error error, after) → error.kind ≠ .nestingLimitExceeded) :
    Leaves (AtDepth depth) (FailsAt depth) (onStream operation state) := by
  rcases answered : operation state.stream with ⟨result, stream⟩
  rw [answered] at reached
  have stays : AtDepth depth { state with stream := stream } := ⟨reached, atDepth.same⟩
  cases result with
  | ok value =>
    rw [onStream_ok answered]
    exact stays
  | error error =>
    rw [onStream_error answered]
    exact stays.fails _ (fails answered)

theorem AtDepth.peek (atDepth : AtDepth depth state) (index : Nat) :
    Leaves (AtDepth depth) (FailsAt depth) (peek index state) :=
  AtDepth.onStream (fun stream => stream.peek index) atDepth (atDepth.reached.peek index)
    fun failed => (TokenStream.serve_fails (.peek index) failed).not_nesting

theorem AtDepth.beyondLimit {α : Type} (atDepth : AtDepth depth state) (limit : Nat) :
    Leaves (AtDepth depth) (FailsAt depth) ((Grammar.beyondLimit limit : Parse α) state) := by
  let deeper : ParseState := { state with depth := state.depth + 1 }
  let fail (token : Option Token) : Parse α := throw (.rejected (.nestingLimitExceeded limit (token.map (·.span))))
  have start : (Grammar.beyondLimit limit : Parse α) state = (Parse.peek 0 >>= fail) deeper := rfl
  have stays := onStream_leaves (fun stream => stream.peek 0) deeper
  have reached : ParseState.Reached { deeper with stream := (deeper.stream.peek 0).2 } :=
    (atDepth.reached.atDepth _).peek 0
  have leaked : ∀ {error : ParseError}, error.isFault = true → Overruns depth error (state.depth + 1) := fun fault => by
    rw [atDepth.same]
    exact .leaked fault
  rw [start]
  cases ran : Parse.peek 0 deeper with
  | ok found after =>
    rw [show Parse.onStream _ deeper = _ from ran] at stays
    rw [bind_ok ran]
    subst stays
    exact ⟨reached, leaked rfl, fun _ asks => Failure.noConfusion asks⟩
  | error failure after =>
    obtain ⟨error, rfl, fault⟩ := peek_faults ran
    rw [show Parse.onStream _ deeper = _ from ran] at stays
    rw [bind_error ran]
    subst stays
    exact ⟨reached, leaked fault, fun _ asks => Failure.noConfusion asks⟩

theorem AtDepth.bump (atDepth : AtDepth depth state) : Leaves (AtDepth depth) (FailsAt depth) (bump state) := by
  have ends := bump_leaves state
  cases ran : Parse.bump state with
  | ok _ after =>
    rw [ran] at ends
    obtain ⟨token, stream, took, rfl⟩ := ends
    exact ⟨atDepth.reached.take took, atDepth.same⟩
  | error failure after =>
    rw [ran] at ends
    subst ends
    have stays : AtDepth depth { state with stream := state.stream.next.2 } := ⟨atDepth.reached.skip, atDepth.same⟩
    refine stays.fails _ ?_
    rcases took : state.stream.next with ⟨result, stream⟩
    match result with
    | .ok (some token) => cases (bump_some took).symm.trans ran
    | .ok none =>
      have asks : Parse.bump state = (endOfInput ["token"] : Parse Unit) { state with stream := stream } :=
        bind_ok (onStream_ok took)
      cases asks.symm.trans ran
      exact nofun
    | .error error =>
      have stops : Parse.bump state = .error (.rejected error) { state with stream := stream } :=
        bind_error (onStream_error took)
      cases stops.symm.trans ran
      exact (TokenStream.serve_fails .next took).not_nesting

theorem AtDepth.unexpected {α : Type} (atDepth : AtDepth depth state) (token : Token) (expected : List String) :
    Leaves (AtDepth depth) (FailsAt depth) ((unexpected token expected : Parse α) state) := by
  cases kind : token.kind with
  | semicolon origin =>
    cases origin with
    | endOfInput =>
      have stays : AtDepth depth { state with stream := state.stream.noteEnd } :=
        ⟨atDepth.reached.noteEnd, atDepth.same⟩
      simp only [Parse.unexpected, kind]
      exact stays.fails (.needMoreInput (.unexpectedEndOfInput token.span expected)) ParseErrorKind.noConfusion
    | explicit | newline =>
      simp only [Parse.unexpected, kind]
      exact atDepth.fails (.rejected (.unexpectedToken token expected)) ParseErrorKind.noConfusion
  | illegal =>
    simp only [Parse.unexpected, kind, bind_ok (show (get : Parse ParseState) state = .ok state state from rfl)]
    cases state.stream.invalidDiagnostic? token with
    | none => exact atDepth.fails (.rejected (.internalInvariant "illegal token without lexer diagnostic" token.span)) ParseErrorKind.noConfusion
    | some diagnostic => exact atDepth.fails (.rejected (.invalidToken token diagnostic)) ParseErrorKind.noConfusion
  | identifier | keyword | literal | operator =>
    simp only [Parse.unexpected, kind]
    exact atDepth.fails (.rejected (.unexpectedToken token expected)) ParseErrorKind.noConfusion

theorem kept_atDepth (depth : Nat) : Kept (AtDepth depth) (FailsAt depth) where
  counts atDepth := atDepth.reached.counts
  look index atDepth := atDepth.peek index
  take atDepth := atDepth.bump
  reject token expected atDepth := atDepth.unexpected token expected
  ask {_ state} expected atDepth :=
    atDepth.fails (.needMoreInput (.unexpectedEndOfInput state.stream.endSpan expected)) ParseErrorKind.noConfusion
  stop limit atDepth := atDepth.beyondLimit limit

theorem AtDepth.synchronize (atDepth : AtDepth depth state) :
    Leaves (AtDepth depth) (FailsAt depth) (Grammar.synchronize state) := by
  rw [Grammar.synchronize_eq]
  refine Leaves.iterate (fun brackets state atDepth => ?_) (fun state atDepth => atDepth.fails _ nofun) 0 state atDepth
  have next := AtDepth.onStream TokenStream.next atDepth atDepth.reached.skip
    fun failed => (TokenStream.serve_fails .next failed).not_nesting
  cases took : Parse.onStream TokenStream.next state with
  | error failure after =>
    rw [took] at next
    rw [Grammar.skipNext, bind_error took]
    exact next
  | ok found after =>
    rw [took] at next
    rw [Grammar.skipNext, bind_ok took]
    cases found <;> exact next

end

namespace Parser

/-- The depth at which a call starts. A recovery forgets the levels that earlier calls have not given back. -/
def startDepth (parser : Parser) : Request → Nat
  | .parse => parser.state.depth
  | .recover => 0

def faultOf {α : Type} : Except ParseError α → Option ParseError
  | .error error => some error
  | .ok _ => none

/-- The fault with which a call ends, if it ends with one. -/
def fault? (parser : Parser) : Request → Option ParseError
  | .parse => faultOf parser.parse.1
  | .recover => faultOf parser.recover.1

def faults (parser : Parser) : List Request → Nat
  | [] => 0
  | request :: later => (parser.fault? request).isSome.toNat + (parser.serve request).faults later

/-- The answer of a call, and the depth that it leaves. -/
def Balances {α : Type} (depth : Nat) : Except ParseError α × Parser → Prop
  | (.ok _, after) => AtDepth depth after.state
  | (.error error, after) => after.state.Reached ∧ Overruns depth error after.state.depth

variable {parser : Parser} {depth : Nat}

private theorem parse_balances (atDepth : AtDepth depth parser.state) : Balances depth parser.parse := by
  have ends := (kept_atDepth depth).wholeText parser.limits.maxNesting atDepth
  have parses := parser.parses
  generalize Grammar.wholeText parser.limits.maxNesting parser.state = outcome at ends parses
  generalize parser.parse = answer at parses ⊢
  cases parses with
  | complete | cutOff => exact ends
  | wanted | wantedCutOff => exact (⟨ends.reached, ends.asks _ rfl⟩ : AtDepth depth _)
  | fault => exact ⟨ends.reached, ends.overruns⟩
  | rejected noFault => exact ⟨ends.reached, ends.overruns.balanced_of_legal (Bool.eq_false_iff.mp noFault)⟩

private theorem recoverOnce_balances (atDepth : AtDepth 0 parser.state) : Balances 0 parser.recoverOnce := by
  have skipped := atDepth.synchronize
  unfold recoverOnce
  cases ran : Grammar.synchronize parser.state with
  | error failure state =>
    rw [ran] at skipped
    cases failure <;> exact ⟨skipped.reached, skipped.overruns⟩
  | ok stop state =>
    rw [ran] at skipped
    cases stop with
    | endOfInput => exact skipped
    | separator =>
      have looked := AtDepth.peek skipped 0
      dsimp only
      cases ran : Parse.peek 0 state with
      | error failure state =>
        rw [ran] at looked
        cases failure <;> exact ⟨looked.reached, looked.overruns⟩
      | ok found state =>
        rw [ran] at looked
        cases found with
        | none => exact looked
        | some token =>
          have ends := (kept_atDepth 0).topLevelStatement parser.limits.maxNesting looked
          dsimp only
          cases ran : Grammar.topLevelStatement parser.limits.maxNesting state with
          | ok statement state =>
            rw [ran] at ends
            exact ends
          | error failure state =>
            rw [ran] at ends
            cases failure with
            | needMoreInput error => exact ⟨ends.reached, ends.asks error rfl⟩
            | rejected error =>
              dsimp only
              split
              next => exact ⟨ends.reached, ends.overruns⟩
              next => exact ⟨ends.reached.atDepth 0, rfl⟩

private theorem recoverLoop_balances (parser : Parser) (atDepth : AtDepth 0 parser.state) :
    Balances 0 parser.recoverLoop := by
  have once := recoverOnce_balances atDepth
  unfold recoverLoop
  split
  next => exact atDepth
  next =>
    generalize parser.recoverOnce = answer at once ⊢
    rcases answer with ⟨result, after⟩
    match result with
    | .error error => exact once
    | .ok false => exact once
    | .ok true =>
      dsimp only
      split
      next => exact recoverLoop_balances after once
      next => exact ⟨AtDepth.reached once, (AtDepth.same once).symm ▸ .balanced nofun⟩
termination_by parser.state.remaining

private theorem recover_balances (reached : parser.state.Reached) : Balances 0 parser.recover := by
  have loop := recoverLoop_balances parser.resetDepth ⟨reached.atDepth 0, rfl⟩
  unfold recover
  generalize parser.resetDepth.recoverLoop = answer at loop ⊢
  rcases answer with ⟨result, after⟩
  cases result <;> exact loop

/-- Every call leaves the depth at which it started, unless it ends with a fault, which may cost one level. -/
private theorem serve_depth (reached : parser.state.Reached) (request : Request) :
    (parser.serve request).state.Reached ∧
      match parser.fault? request with
      | none => (parser.serve request).state.depth = parser.startDepth request
      | some error => Overruns (parser.startDepth request) error (parser.serve request).state.depth := by
  have split : ∀ {α : Type} {depth : Nat} {answer : Except ParseError α × Parser}, Balances depth answer →
      answer.2.state.Reached ∧
        match faultOf answer.1 with
        | none => answer.2.state.depth = depth
        | some error => Overruns depth error answer.2.state.depth := by
    rintro α depth ⟨result, after⟩ balances
    cases result with
    | error error => exact balances
    | ok value => exact ⟨AtDepth.reached balances, AtDepth.same balances⟩
  cases request with
  | parse => exact split (parse_balances ⟨reached, rfl⟩)
  | recover => exact split (recover_balances reached)

private theorem serves_depth (reached : parser.state.Reached) (requests : List Request) :
    (requests.foldl serve parser).state.Reached ∧
      (requests.foldl serve parser).state.depth ≤ parser.state.depth + parser.faults requests := by
  induction requests generalizing parser with
  | nil => exact ⟨reached, Nat.le_refl _⟩
  | cons request later ih =>
    obtain ⟨reached', depth⟩ := serve_depth reached request
    obtain ⟨further, bound⟩ := ih reached'
    refine ⟨further, Nat.le_trans bound ?_⟩
    have start : parser.startDepth request ≤ parser.state.depth := by
      cases request with
      | parse => exact Nat.le_refl _
      | recover => exact Nat.zero_le _
    rw [faults]
    cases isFault : parser.fault? request with
    | none =>
      rw [isFault] at depth
      dsimp only at depth
      simp only [Option.isSome_none, Bool.toNat_false]
      omega
    | some error =>
      rw [isFault] at depth
      simp only [Option.isSome_some, Bool.toNat_true]
      have cost := Overruns.le depth
      omega

/-- However a parser has been used, a call that answers leaves the depth at which it started, and that is none unless
earlier calls have ended with faults; with none of them, a statement has all the levels there are. A call that finds no
level left leaves one more in use, and any other fault does so at most. -/
theorem calls_depth (limits : Limits) (text : List Char) (collector : Collector) (earlier : List Request)
    (request : Request) :
    let start := Parser.ofText limits text collector
    let parser := earlier.foldl serve start
    parser.state.depth ≤ start.faults earlier ∧
      (start.faults earlier = 0 → Grammar.topLevelStatement limits.maxNesting parser.state =
        (Grammar.levels limits.maxNesting limits.maxNesting).statement .topLevel parser.state) ∧
      match parser.fault? request with
      | none => (parser.serve request).state.depth = parser.startDepth request
      | some error => (parser.serve request).state.depth ≤ parser.startDepth request + 1 ∧
          (error.kind = .nestingLimitExceeded →
            (parser.serve request).state.depth = parser.startDepth request + 1) := by
  intro start parser
  obtain ⟨reached, bound⟩ := @serves_depth start (.ofText text limits.maxTokens) earlier
  have shallow : parser.state.depth ≤ start.faults earlier := Nat.le_trans bound (Nat.le_of_eq (Nat.zero_add _))
  refine ⟨shallow, fun faultless => ?_, ?_⟩
  · have none : parser.state.depth = 0 := Nat.le_zero.mp (faultless ▸ shallow)
    rw [Grammar.topLevelStatement, none, Nat.sub_zero]
  · have depth := (serve_depth reached request).2
    cases isFault : parser.fault? request with
    | none =>
      rw [show fault? _ request = _ from isFault] at depth
      exact depth
    | some error =>
      rw [show fault? _ request = _ from isFault] at depth
      exact ⟨depth.le, depth.exceeded⟩

/-- A new parser has all levels, and the bracket is one too much for it. -/
theorem calls_depth_bracket :
    let parser := Parser.ofText { maxNesting := 3 } ['(', 'x'] {}
    parser.state.depth = 0 ∧ ∃ error, parser.fault? .parse = some error ∧ error.kind = .nestingLimitExceeded ∧
      (parser.serve .parse).state.depth = 1 := by
  intro parser
  obtain ⟨shallow, -, depth⟩ := calls_depth { maxNesting := 3 } ['(', 'x'] {} [] .parse
  rw [List.foldl_nil] at shallow depth
  have computed : (parser.fault? .parse).any (fun error => decide (error.kind = .nestingLimitExceeded)) =
    true := by decide +kernel
  cases isFault : parser.fault? .parse with
  | none =>
    rw [isFault] at computed
    cases computed
  | some error =>
    rw [isFault] at computed
    rw [show fault? _ Request.parse = some error from isFault] at depth
    have exceeded : error.kind = .nestingLimitExceeded := of_decide_eq_true computed
    exact ⟨Nat.le_zero.mp shallow, error, rfl, exceeded, depth.2 exceeded⟩

/-- Behind a bracket that is one level too much the name is, too, although it is a statement once the level is
given back. -/
theorem parse_leaks :
    let parser := (Parser.ofText { maxNesting := 3 } ['(', 'x'] {}).serve .parse
    parser.state.depth = 1 ∧
      ((faultOf parser.parse.1).any fun error => decide (error.kind = .nestingLimitExceeded)) = true ∧
      (parser.resetDepth.parse.1.toOption.any fun report =>
        decide (report.verdict = .complete ⟨.expression, ⟨0, 1, 2, by decide⟩⟩)) = true := by
  decide +kernel

end Parser

end GoPrompt
