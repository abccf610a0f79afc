import GoPrompt.Proofs.Calls.Marked
import GoPrompt.Proofs.Calls.Progress

/-! A metered run of the marked grammar. It does what the grammar does, and it measures how many calls are active at
once and whether a repetition goes on without having consumed a token. -/

namespace GoPrompt

open Parse

/-- What is measured of a run. -/
structure Meter where
  /-- The greatest number of calls that are active at once. -/
  deepest : Nat := 0
  /-- Whether some turn of a repetition goes on without having consumed a token. -/
  stalled : Bool := false
  deriving DecidableEq, Repr

namespace Meter

/-- One run behind the other. -/
def also (first second : Meter) : Meter := ⟨max first.deepest second.deepest, first.stalled || second.stalled⟩

/-- A run inside of a call. -/
def inCall (meter : Meter) : Meter := { meter with deepest := meter.deepest + 1 }

/-- A run with at most so many calls active at once, in which every repetition consumes a token or ends. -/
structure Within (bound : Nat) (meter : Meter) : Prop where
  deepest : meter.deepest ≤ bound
  going : meter.stalled = false

variable {bound : Nat} {first second : Meter}

theorem within_none : ({} : Meter).Within bound := ⟨Nat.zero_le _, rfl⟩

theorem Within.mono (within : first.Within bound) {larger : Nat} (le : bound ≤ larger) : first.Within larger :=
  ⟨Nat.le_trans within.deepest le, within.going⟩

theorem Within.also (before : first.Within bound) (after : second.Within bound) : (first.also second).Within bound := by
  refine ⟨Nat.max_le.mpr ⟨before.deepest, after.deepest⟩, ?_⟩
  rw [Meter.also, before.going, after.going, Bool.or_false]

private theorem Within.inCall (within : first.Within bound) : first.inCall.Within (bound + 1) :=
  ⟨Nat.succ_le_succ within.deepest, within.going⟩

end Meter

/-- A parsing computation that is measured. -/
def Metered (α : Type) : Type := ParseState → EStateM.Result Failure ParseState α × Meter

namespace Metered

variable {α β : Type}

/-- Goes on where a run has succeeded. -/
def andThen (program : Metered α) (next : α → Metered β) : Metered β := fun state =>
  match program state with
  | (.ok value after, meter) =>
    let (result, later) := next value after
    (result, meter.also later)
  | (.error failure after, meter) => (.error failure after, meter)

instance : Monad Metered where
  pure value state := (.ok value state, {})
  bind := andThen

/-- The steps on single tokens are no calls of grammar functions. -/
instance : MonadLift Parse Metered where
  monadLift program state := (program state, {})

def iterate (turn : α → Metered (Turn α β)) (value : α) (state : ParseState) :
    EStateM.Result Failure ParseState β × Meter :=
  match turn value state with
  | (.ok (.done result) after, meter) => (.ok result after, meter)
  | (.ok (.again next) after, meter) =>
    if after.remaining < state.remaining then
      let (result, later) := iterate turn next after
      (result, meter.also later)
    else (.error (.rejected (.internalInvariant "repetition without progress" none)) after,
      { meter with stalled := true })
  | (.error failure after, meter) => (.error failure after, meter)
termination_by state.remaining

instance : Calling Metered where
  call body state :=
    let (result, meter) := body state
    (result, meter.inCall)
  iterate := iterate

end Metered

/-- A measured result that is the given one, of a run within a bound. -/
structure Measured {ρ : Type} (bound : Nat) (measured : ρ × Meter) (result : ρ) : Prop where
  result : measured.1 = result
  within : measured.2.Within bound

/-- The metered computation does what the other one does with at most so many calls active at once, and no repetition of
it goes on without having consumed a token. Where it succeeds with certain values, it has consumed one itself. -/
structure Measures {α : Type} (bound : Nat) (moves : α → Prop) (metered : Metered α) (program : Parse α) : Prop where
  measured : ∀ state : ParseState, state.stream.Counts → Measured bound (metered state) (program state)
  advances : Advances moves program

/-- A metered computation that may consume no token. -/
abbrev Metered.Proceeds {α : Type} (bound : Nat) (metered : Metered α) (program : Parse α) : Prop :=
  Measures bound (fun _ => False) metered program

abbrev Metered.Consumes {α : Type} (bound : Nat) (metered : Metered α) (program : Parse α) : Prop :=
  Measures bound (fun _ => True) metered program

namespace Measures

variable {α β : Type} {bound : Nat} {metered : Metered α} {program : Parse α} {first : α → Prop} {moves : β → Prop}

theorem mono (measures : Measures bound first metered program) {larger : Nat} (le : bound ≤ larger) :
    Measures larger first metered program where
  measured state counts :=
    have measured := measures.measured state counts
    ⟨measured.result, measured.within.mono le⟩
  advances := measures.advances

theorem weaken {fewer : α → Prop} (measures : Measures bound first metered program)
    (implies : ∀ value, fewer value → first value) :
    Measures bound fewer metered program := ⟨measures.measured, measures.advances.weaken implies⟩

theorem proceeds (measures : Measures bound first metered program) : Metered.Proceeds bound metered program :=
  measures.weaken fun _ => False.elim

theorem step (advances : Advances first program) : Measures bound first (liftM program : Metered α) program :=
  ⟨fun _ _ => ⟨rfl, Meter.within_none⟩, advances⟩

theorem sequence {next : α → Metered β} {later : α → Parse β} (measures : Measures bound first metered program)
    (rest : ∀ value, Measures bound (fun result => moves result ∧ ¬ first value) (next value) (later value)) :
    Measures bound moves (metered >>= next) (program >>= later) := by
  refine ⟨fun state counts => ?_, measures.advances.sequence fun value => (rest value).advances⟩
  have measured := measures.measured state counts
  have reached := measures.advances state counts
  rcases ran : metered state with ⟨result, meter⟩
  rw [ran] at measured
  obtain ⟨rfl, within⟩ := measured
  cases ran' : program state with
  | error failure after =>
    have behind : (metered >>= next) state = (.error failure after, meter) := by
      show Metered.andThen metered next state = _
      simp only [Metered.andThen, ran, ran']
    rw [behind, bind_error ran']
    exact ⟨rfl, within⟩
  | ok value after =>
    rw [ran'] at reached
    have measured' := (rest value).measured after reached.counts
    have behind : (metered >>= next) state = ((next value after).1, meter.also (next value after).2) := by
      show Metered.andThen metered next state = _
      simp only [Metered.andThen, ran, ran']
    rw [behind, bind_ok ran']
    exact ⟨measured'.result, within.also measured'.within⟩

theorem bind {next : α → Metered β} {later : α → Parse β} (measures : Measures bound first metered program)
    (rest : ∀ value, Measures bound moves (next value) (later value)) :
    Measures bound moves (metered >>= next) (program >>= later) :=
  measures.sequence fun value => (rest value).weaken fun _ both => both.1

theorem pure {value : α} (still : ¬ first value) :
    Measures bound first (Pure.pure value : Metered α) (Pure.pure value) :=
  ⟨fun _ _ => ⟨rfl, Meter.within_none⟩, advances_pure still⟩

theorem idle {value : α} : Metered.Proceeds bound (Pure.pure value : Metered α) (Pure.pure value) := .pure id

theorem behind {next : α → Metered β} {later : α → Parse β} (consumes : Metered.Consumes bound metered program)
    (rest : ∀ value, Metered.Proceeds bound (next value) (later value)) :
    Measures bound moves (metered >>= next) (program >>= later) :=
  sequence consumes fun value => (rest value).weaken fun _ both => both.2 trivial

theorem look {next : α → Metered β} {later : α → Parse β} (proceeds : Parse.Proceeds program)
    (rest : ∀ value, Measures bound moves (next value) (later value)) :
    Measures bound moves (liftM program >>= next) (program >>= later) :=
  (step proceeds).bind rest

theorem take {next : α → Metered β} {later : α → Parse β} (consumes : Parse.Consumes program)
    (rest : ∀ value, Metered.Proceeds bound (next value) (later value)) :
    Measures bound moves (liftM program >>= next) (program >>= later) := behind (step consumes) rest

theorem discard {moved : Prop} (measures : Measures bound (fun _ => moved) metered program) :
    Measures bound (fun _ => moved) (discard metered) (discard program) :=
  measures.sequence fun _ => .pure fun both => both.2 both.1

theorem map {change : α → β} (measures : Measures bound first metered program) :
    Metered.Proceeds bound (change <$> metered) (change <$> program) := measures.bind fun _ => .pure id

theorem call (measures : Measures bound first metered program) :
    Measures (bound + 1) first (Calling.call metered) (Calling.call program) where
  measured state counts :=
    have measured := measures.measured state counts
    ⟨measured.result, measured.within.inCall⟩
  advances := measures.advances

section repetition

variable {turn : α → Metered (Turn α β)} {other : α → Parse (Turn α β)}

private theorem measured_iterate (turns : ∀ value, Measures bound (Turn.Moves moves) (turn value) (other value))
    (value : α) (state : ParseState) (counts : state.stream.Counts) :
    Measured bound (Metered.iterate turn value state) (Parse.iterate other value state) := by
  have measured := (turns value).measured state counts
  have reached := (turns value).advances state counts
  rcases ran : turn value state with ⟨result, meter⟩
  rw [ran] at measured
  obtain ⟨rfl, within⟩ := measured
  cases ran' : other value state with
  | error failure after =>
    rw [iterate_error ran', Metered.iterate, ran, ran']
    exact ⟨rfl, within⟩
  | ok answer after =>
    rw [ran'] at reached
    cases answer with
    | done found =>
      rw [iterate_done ran', Metered.iterate, ran, ran']
      exact ⟨rfl, within⟩
    | again next =>
      have progress := reached.moved trivial
      have later := measured_iterate turns next after reached.counts
      rw [iterate_again ran' progress, Metered.iterate, ran, ran']
      simp only [progress, ↓reduceIte]
      exact ⟨later.result, within.also later.within⟩
termination_by state.remaining

/-- A repetition goes no deeper than its turns, which consume a token whenever they go on. -/
theorem iterate (turns : ∀ value, Measures bound (Turn.Moves moves) (turn value) (other value)) (value : α) :
    Measures bound moves (Calling.iterate turn value) (Calling.iterate other value) :=
  ⟨measured_iterate turns value, advances_iterate (fun value => (turns value).advances) value⟩

theorem repeatUntil {turn : Metered Bool} {other : Parse Bool} (turns : Measures bound (· = false) turn other) :
    Metered.Proceeds bound (Marked.repeatUntil turn) (Marked.repeatUntil other) := by
  refine iterate (fun () => turns.sequence fun done => .pure fun both => ?_) ()
  cases done with
  | true => exact both.1
  | false => exact both.2 rfl

theorem leave : Measures bound (· = false) (Pure.pure true : Metered Bool) (Pure.pure true) := .pure Bool.noConfusion

theorem done {result : β} :
    Measures bound (Turn.Moves fun _ => False) (Pure.pure (.done result) : Metered (Turn α β))
      (Pure.pure (.done result)) :=
  .pure id

end repetition

end Measures

end GoPrompt
