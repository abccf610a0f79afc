import GoPrompt.Proofs.Stream.Steps

/-! A stream from which the grammar starts anew. Skipped tokens may have been illegal, which the grammar does not
find out any more, so the tokens behind the start are all that counts. -/

namespace GoPrompt

namespace LexStep

/-- The step with a token that is not illegal. -/
def cleared : LexStep → LexStep
  | .token read => .token { read with kind := .identifier }
  | .truncated read cutoff => .truncated { read with kind := .identifier } cutoff
  | .invalid read _ => .token { read with kind := .identifier }
  | .incomplete cutoff => .incomplete cutoff
  | .endOfInput => .endOfInput

/-- Steps in which only the tokens from the given one on count. -/
def clearedTo (start : Nat) (steps : List LexStep) : List LexStep :=
  steps.mapIdx fun number step => if number < start then step.cleared else step

private theorem cutoff?_cleared (step : LexStep) : step.cleared.cutoff? = step.cutoff? := by cases step <;> rfl

private theorem kind_of_cleared {step : LexStep} {token : Token} (isToken : step.cleared.token? = some token) :
    token.kind = .identifier := by
  cases step <;> cases isToken <;> rfl

end LexStep

open LexStep

section

variable {start number : Nat} {steps : List LexStep}

private theorem getElem?_clearedTo (within : start ≤ number) : (clearedTo start steps)[number]? = steps[number]? := by
  rw [clearedTo, List.getElem?_mapIdx]
  simp only [Nat.not_lt_of_le within, ↓reduceIte, Option.map_id']

theorem tokenAt_clearedTo (within : start ≤ number) :
    tokenAt (clearedTo start steps) number = tokenAt steps number := by
  rw [tokenAt, tokenAt, getElem?_clearedTo within]

theorem kind_of_tokenAt_clearedTo {token : Token} (less : number < start)
    (there : tokenAt (clearedTo start steps) number = some token) :
    token.kind = .identifier := by
  obtain ⟨step, isStep, isToken⟩ := tokenAt_eq_some.mp there
  rw [clearedTo, List.getElem?_mapIdx] at isStep
  obtain ⟨step, -, rfl⟩ := Option.map_eq_some_iff.mp isStep
  simp only [less, ↓reduceIte] at isToken
  exact kind_of_cleared isToken

private theorem cutoff?_clearedTo (start : Nat) (steps : List LexStep) (number : Nat) :
    (clearedTo start steps)[number]?.bind LexStep.cutoff? = steps[number]?.bind LexStep.cutoff? := by
  rw [clearedTo, List.getElem?_mapIdx]
  cases steps[number]? with
  | none => rfl
  | some step =>
    simp only [Option.map_some, Option.bind_some]
    split
    next => exact cutoff?_cleared step
    next => rfl

theorem cutsOff_of_clearedTo (cuts : CutsOff (clearedTo start steps) number) : CutsOff steps number := by
  obtain ⟨token, cutoff, isCut⟩ := cuts
  rw [clearedTo, List.getElem?_mapIdx] at isCut
  obtain ⟨step, there, isCut⟩ := Option.map_eq_some_iff.mp isCut
  rw [CutsOff, there]
  cases step with
  | truncated token cutoff => exact ⟨token, cutoff, rfl⟩
  | token | invalid | incomplete | endOfInput => split at isCut <;> cases isCut

end

namespace TokenStream

variable {steps steps' : List LexStep} {limit number start : Nat} {stream : TokenStream}

/-- Only the tokens that are still to come count for the place of a stream, and where a text is cut off. -/
theorem Placed.congr (placed : stream.Placed steps limit number) (length : steps'.length = steps.length)
    (same : ∀ later, number ≤ later → steps'[later]? = steps[later]?)
    (cut : ∀ place : Nat, steps'[place]?.bind LexStep.cutoff? = steps[place]?.bind LexStep.cutoff?) :
    stream.Placed steps' limit number := by
  have count := placed.count
  have later : ∀ place, number ≤ place → tokenAt steps' place = tokenAt steps place := fun place within => by
    rw [tokenAt, tokenAt, same place within]
  exact
    { placed with
      ahead := fun index token there => by
        rw [later _ (Nat.le_add_right _ _)]
        exact placed.ahead index token there
      running := fun running => by
        have behind : steps'.drop stream.scanned = steps.drop stream.scanned := by
          apply List.ext_getElem?
          intro index
          rw [List.getElem?_drop, List.getElem?_drop, same _ (by omega)]
        rw [behind]
        exact placed.running running
      ended := fun exhausted place within => by
        rw [later _ (by omega)]
        exact placed.ended exhausted place within
      uncut := fun running step mem => by
        obtain ⟨place, isStep⟩ := List.getElem?_of_mem mem
        rw [List.getElem?_take] at isStep
        split at isStep
        next within =>
          have inside : place < steps.length := length ▸ (List.getElem?_eq_some_iff.mp isStep).1
          have there : steps[place]? = some steps[place] := List.getElem?_eq_getElem inside
          have whole := placed.uncut running steps[place] (List.mem_take_iff_getElem.mpr ⟨place, by omega, rfl⟩)
          have agrees := cut place
          rw [isStep, there] at agrees
          exact agrees.trans whole
        next => cases isStep
      tail := by
        rw [placed.tail, List.getLast?_eq_getElem?, List.getLast?_eq_getElem?, length, cut] }

theorem Placed.cleared (placed : stream.Placed steps limit number) :
    stream.Reading (clearedTo number steps) limit number where
  toPlaced := placed.congr (by rw [clearedTo, List.length_mapIdx]) (fun _ within => getElem?_clearedTo within)
    (cutoff?_clearedTo number steps)
  legal earlier token less there := by
    rw [kind_of_tokenAt_clearedTo less there]
    nofun

private theorem Placed.of_cleared (placed : stream.Placed (clearedTo start steps) limit number)
    (within : start ≤ number) :
    stream.Placed steps limit number :=
  placed.congr (by rw [clearedTo, List.length_mapIdx])
    (fun _ further => (getElem?_clearedTo (Nat.le_trans within further)).symm) fun place =>
      (cutoff?_clearedTo start steps place).symm

/-- A stream in front of a token, with at most that token looked at. -/
def Stands (steps : List LexStep) (limit number : Nat) (stream : TokenStream) : Prop :=
  stream.Settled (clearedTo number steps) limit number

/-- A stream between two decisions of a grammar that has started anew may be where it starts once more. -/
theorem Settled.stands (settled : stream.Settled (clearedTo start steps) limit number) (within : start ≤ number) :
    stream.Stands steps limit number where
  toReading := (settled.toPlaced.of_cleared within).cleared
  short := settled.short
  fresh nonempty exhausted := by
    obtain ⟨token, cutoff, there⟩ := settled.fresh nonempty exhausted
    refine ⟨token, cutoff, ?_⟩
    rw [getElem?_clearedTo within] at there
    rw [getElem?_clearedTo (Nat.le_refl number), there]

theorem Settled.anew (settled : stream.Settled steps limit number) : stream.Stands steps limit number where
  toReading := settled.toPlaced.cleared
  short := settled.short
  fresh nonempty exhausted := by
    obtain ⟨token, cutoff, there⟩ := settled.fresh nonempty exhausted
    exact ⟨token, cutoff, (getElem?_clearedTo (Nat.le_refl number)).trans there⟩

/-- Taking a token, of whatever kind it is. -/
theorem Stands.next (stands : stream.Stands steps limit number) :
    (limit ≤ number ∧ ∃ (token : Token) (after : TokenStream), tokenAt steps number = some token ∧
      stream.next = (.error (.tokenLimitExceeded limit token.span), after)) ∨
      (tokenAt steps number = none ∧ ∃ after, stream.next = (.ok none, after)) ∨
      ∃ token after, tokenAt steps number = some token ∧ stream.next = (.ok (some token), after) ∧
        after.Stands steps limit (number + 1) := by
  -- The stream with the token ahead, and no other one.
  have taken : ∀ {filled : TokenStream} {token : Token}, filled.Reading (clearedTo number steps) limit number →
      filled.lookahead = [token] → stream.fillTo 0 = (.ok (), filled) → tokenAt steps number = some token →
      ∃ token after, tokenAt steps number = some token ∧ stream.next = (.ok (some token), after) ∧
        after.Stands steps limit (number + 1) := by
    intro filled token reading front fills there
    obtain ⟨after, took, placed, ahead, -, -⟩ := reading.toPlaced.next front
    refine ⟨token, after, there, ?_,
        ((placed.of_cleared (Nat.le_succ number)).cleared), by simp [ahead], fun nonempty =>
      absurd ahead nonempty⟩
    have again : filled.fillTo 0 = (.ok (), filled) := by
      simp [fillTo, front, fill]
    rw [← took, TokenStream.next, TokenStream.next, fills, again]
  cases ahead : stream.lookahead with
  | cons token later =>
    have short := stands.short
    rw [ahead] at short
    obtain rfl : later = [] := List.length_eq_zero_iff.mp (Nat.le_zero.mp (Nat.le_of_succ_le_succ short))
    have there := stands.ahead 0 token (by rw [ahead]; rfl)
    rw [Nat.add_zero, tokenAt_clearedTo (Nat.le_refl number)] at there
    exact .inr (.inr (taken stands.toReading ahead (by simp [fillTo, ahead, fill]) there))
  | nil =>
    have scanned : stream.scanned = number := by
      rw [stands.count, ahead]
      rfl
    have fills : stream.fillTo 0 = fill 1 stream := by simp [fillTo, ahead]
    rcases stands.fill_one with ⟨full, token, after, there, failed⟩ | ⟨filled, filledTo, reading, front, fresh, missing⟩
    · rw [scanned] at full there
      rw [tokenAt_clearedTo (Nat.le_refl number)] at there
      refine .inl ⟨full, token, after, there, ?_⟩
      simp only [TokenStream.next, fills, failed]
    · rw [scanned, tokenAt_clearedTo (Nat.le_refl number), ahead, List.nil_append] at front
      cases there : tokenAt steps number with
      | none =>
        rw [there] at front
        refine .inr (.inl ⟨rfl, { filled with observedEnd := true }, ?_⟩)
        simp [TokenStream.next, fills, filledTo, front]
      | some token =>
        rw [there] at front
        rw [← there]
        exact .inr (.inr (taken reading front (fills.trans filledTo) there))

end TokenStream

end GoPrompt
