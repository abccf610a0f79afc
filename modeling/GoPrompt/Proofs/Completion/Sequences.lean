import GoPrompt.Proofs.Completion.Rules

/-! Programs that can always be finished. A program that is completable has a prospect on every kinds up to some
length, and there are kinds that it reads where nothing is left. Sequences and repetitions of such programs are such
programs again. -/

namespace GoPrompt

open Parse Grammar

/-- The programs have a prospect on all kinds shorter than the bound, and where there are none they read `more`. -/
structure Completable {ι α : Type} [Alike α] (programs : Programs ι α) (stops : Option TokenKind → Bool)
    (cost bound : Nat)
    (more : List TokenKind) : Prop where
  prospect : ∀ kinds : List TokenKind, kinds.length < bound → Prospect [] programs (fun _ _ => True) stops cost kinds
  plain : more ⊆ finishing
  short : more.length ≤ cost
  closes : ∃ value, Passes programs more [] stops value

section

variable {ι κ α β : Type} [Alike α] [Alike β] {programs : Programs ι α} {front kinds more : List TokenKind}
  {kind : TokenKind} {ends : Bool → α → Prop} {stops stops' before : Option TokenKind → Bool}
  {cost first second bound : Nat} {value : α}

theorem Prospect.behind (prospect : Prospect [] programs ends stops cost kinds) :
    Prospect front programs ends stops cost kinds :=
  prospect.lead (.of_eq fun _ index => ⟨index, rfl⟩) List.suffix_rfl
    (fun ⟨control, decisive, isControl, isDecisive, inside⟩ =>
      ⟨control, decisive, isControl, isDecisive, inside.trans (List.sublist_append_right front kinds)⟩) (Nat.le_refl _)

theorem Prospect.weaken {ends' : Bool → α → Prop} (prospect : Prospect front programs ends stops first kinds)
    (implies : ∀ passed value, ends passed value → ends' passed value)
    (joins : ∀ next, stops' next = true → stops next = true) (within : first ≤ cost) :
    Prospect front programs ends' stops' cost kinds := by
  cases prospect with
  | unwritten inserted => exact .unwritten inserted
  | refuses refuses => exact .refuses refuses
  | passes value rest suffix isEnd passes =>
      exact .passes value rest suffix (fun last => implies true value (isEnd last)) passes
  | finishes value isEnd more plain short passes =>
    obtain ⟨level, passes⟩ := passes
    exact .finishes value (implies false value isEnd) more plain (by omega)
      ⟨level, fun supply left index enough rest stopped => passes supply left index enough rest (joins _ stopped)⟩
  | doomed decided more plain short refuses => exact .doomed decided more plain (by omega) refuses

theorem Prospect.nil (isEnd : ends false value) (plain : more ⊆ finishing) (short : more.length ≤ cost)
    (closes : Passes programs more [] stops value) : Prospect front programs ends stops cost [] :=
  .finishes value isEnd more plain (Nat.le_trans short (Nat.le_add_left _ _)) closes

theorem Completable.intro (value : α) (plain : more ⊆ finishing) (short : more.length ≤ cost) (closes : Passes programs more [] stops value)
    (prospect : ∀ kind kinds, kinds.length + 1 < bound → Prospect [] programs (fun _ _ => True) stops cost (kind :: kinds)) :
    Completable programs stops cost bound more where
  prospect kinds inside := by
    cases kinds with
    | nil => exact .nil trivial plain short closes
    | cons kind kinds => exact prospect kind kinds inside
  plain := plain
  short := short
  closes := ⟨value, closes⟩

theorem Completable.like {others : Programs κ α} (completable : Completable others stops first bound more)
    (leads : Leads programs more others more) (within : first ≤ cost)
    (prospect : ∀ kind kinds, kinds.length + 1 < bound → Prospect [] programs (fun _ _ => True) stops cost (kind :: kinds)) :
    Completable programs stops cost bound more := by
  obtain ⟨value, passes⟩ := completable.closes
  exact .intro value completable.plain (Nat.le_trans completable.short within) (leads.passes passes) prospect

theorem Completable.weaken (completable : Completable programs stops first bound more)
    (joins : ∀ next, stops' next = true → stops next = true) (within : first ≤ cost) :
    Completable programs stops' cost bound more where
  prospect kinds inside := (completable.prospect kinds inside).weaken (fun _ _ => id) joins within
  plain := completable.plain
  short := Nat.le_trans completable.short within
  closes := by
    obtain ⟨value, level, passes⟩ := completable.closes
    exact ⟨value, level, fun supply left index enough rest stopped =>
      passes supply left index enough rest (joins _ stopped)⟩

theorem Completable.lower {lower : Nat} (completable : Completable programs stops cost bound more) (le : lower ≤ bound) :
    Completable programs stops cost lower more :=
  { completable with prospect := fun kinds inside => completable.prospect kinds (Nat.lt_of_lt_of_le inside le) }

theorem Completable.congr {others : Programs ι α} (completable : Completable others stops cost bound more)
    (same : ∀ deeper index, programs deeper index = others deeper index) :
    Completable programs stops cost bound more := by
  have equal : programs = others := funext fun deeper => funext fun index => same deeper index
  rwa [equal]

theorem Prospect.followed {next : Deeper → ι → α → Parse β} {more : α → List TokenKind}
    (start : Prospect front programs ends stops first kinds)
    (later : ∀ value, Completable (fun deeper (pair : Following ι value) => next deeper pair.1.1 pair.1.2) stops' second bound (more value))
    (joins : ∀ value (rest : List TokenKind), stops' rest.head? = true → stops (more value ++ rest).head? = true)
    (inside : kinds.length < bound) (within : first + second ≤ cost) :
    Prospect front (fun deeper index => programs deeper index >>= next deeper index) (fun _ _ => True) stops' cost kinds := by
  refine start.bind (fun value used rest parts _ => ?_) (fun value _ => ?_) within
  · have fewer := (List.suffix_append used rest).length_le
    rw [← parts] at fewer
    exact ((later value).prospect rest (Nat.lt_of_le_of_lt fewer inside)).behind.weaken
      (fun _ _ => id) (fun _ => id) (by omega)
  · obtain ⟨result, closes⟩ := (later value).closes
    exact .finishes result trivial (more value) (later value).plain (later value).short (joins value) closes

theorem Completable.bind {next : Deeper → ι → α → Parse β} {start : List TokenKind}
    (completable : Completable programs stops first bound start)
    (later : ∀ value, Completable (fun deeper (pair : Following ι value) => next deeper pair.1.1 pair.1.2) stops' second bound more)
    (joins : ∀ rest : List TokenKind, stops' rest.head? = true → stops (more ++ rest).head? = true) (within : first + second ≤ cost) :
    Completable (fun deeper index => programs deeper index >>= next deeper index) stops' cost bound (start ++ more) where
  prospect kinds inside := (completable.prospect kinds inside).followed later (fun _ => joins) inside within
  plain := by
    obtain ⟨value, -⟩ := completable.closes
    exact List.append_subset.mpr ⟨completable.plain, (later value).plain⟩
  short := by
    obtain ⟨value, -⟩ := completable.closes
    have := completable.short
    have := (later value).short
    rw [List.length_append]
    omega
  closes := by
    obtain ⟨value, passes⟩ := completable.closes
    obtain ⟨result, passes'⟩ := (later value).closes
    exact ⟨result, (passes.shift more joins).bind passes'⟩

theorem Prospect.returning {result : ι → α → β} {answer : α → β} (start : Prospect front programs ends stops cost kinds)
    (alike : ∀ value found index, Alike.alike value found → Alike.alike (answer value) (result index found)) :
    Prospect front
      (fun deeper index => programs deeper index >>= fun value => Pure.pure (result index value)) (fun _ _ => True)
      stops cost kinds :=
  start.bind (fun value _ _ _ _ => .pure fun pair => alike value pair.1.2 pair.1.1 pair.2)
    (fun value _ => .finishes (answer value) trivial [] (List.nil_subset _) (Nat.le_refl 0) (fun _ => id)
      ⟨0, fun _ _ pair _ _ _ => Runs.pure ⟨rfl, alike value pair.1.2 pair.1.1 pair.2⟩⟩) (Nat.le_refl _)

theorem Completable.on (completable : Completable programs stops first bound more) (inside : kinds.length < bound)
    (joins : ∀ next, stops' next = true → stops next = true) (within : first ≤ cost) :
    Prospect front programs (fun _ _ => True) stops' cost kinds :=
  ((completable.prospect kinds inside).weaken (fun _ _ => id) joins within).behind

theorem Completable.returning {result : ι → α → β} {answer : α → β}
    (completable : Completable programs stops cost bound more)
    (alike : ∀ value found index, Alike.alike value found → Alike.alike (answer value) (result index found)) :
    Completable (fun deeper index => programs deeper index >>= fun value => Pure.pure (result index value))
      stops cost bound more where
  prospect kinds inside := (completable.prospect kinds inside).returning alike
  plain := completable.plain
  short := completable.short
  closes := by
    obtain ⟨value, passes⟩ := completable.closes
    exact ⟨answer value, passes.bind ⟨0, fun _ _ pair _ _ _ => Runs.pure ⟨rfl, alike value pair.1.2 pair.1.1 pair.2⟩⟩⟩

/-- The answer is given for the values that do not depend on the state. -/
theorem Completable.answering {result : ι → α → β} (completable : Completable programs stops cost bound more)
    (answer : α → β)
    (alike : ∀ value found index, Alike.alike value found → Alike.alike (answer value) (result index found)) :
    Completable (fun deeper index => programs deeper index >>= fun value =>
      Pure.pure (result index value)) stops cost bound more :=
  completable.returning alike

theorem Completable.map {f : α → β} (completable : Completable programs stops cost bound more)
    (alike : ∀ value found, Alike.alike value found → Alike.alike (f value) (f found)) :
    Completable (fun deeper index => f <$> programs deeper index) stops cost bound more where
  prospect kinds inside := (completable.prospect kinds inside).map alike fun _ _ _ => trivial
  plain := completable.plain
  short := completable.short
  closes := by
    obtain ⟨value, passes⟩ := completable.closes
    exact ⟨f value, passes.map (alike value)⟩

theorem Completable.discard (completable : Completable programs stops cost bound more) :
    Completable (fun deeper index => discard (programs deeper index)) stops cost bound more :=
  completable.map fun _ _ _ => rfl

theorem Completable.pure {values : ι → α} (alike : ∀ index, Alike.alike value (values index)) :
    Completable (fun _ index => pure (values index)) stops 0 bound [] where
  prospect _ _ := .pure alike
  plain := List.nil_subset _
  short := Nat.zero_le _
  closes := ⟨value, 0, fun _ _ index _ _ _ => Runs.pure ⟨rfl, alike index⟩⟩

/-- The readers of a level are completable if their bodies are, which run in the level below. -/
theorem Completable.enter {others : Programs ι α} (completable : Completable others stops cost bound more)
    (enters : ∀ limit left index, programs (levels limit (left + 1)) index = others (levels limit left) index) :
    Completable programs stops cost bound more where
  prospect kinds inside := .enter enters (completable.prospect kinds inside)
  plain := completable.plain
  short := completable.short
  closes := by
    obtain ⟨value, passes⟩ := completable.closes
    exact ⟨value, (Leads.enter enters).passes passes⟩

theorem Completable.spanFrom {start : ι → Span} {next : Deeper → ι → Span → Parse β}
    (later : Completable (fun deeper (pair : ι × Span) => next deeper pair.1 pair.2) stops cost bound more) :
    Completable (fun deeper index => Parse.spanFrom (start index) >>= next deeper index) stops cost bound more where
  prospect kinds inside := .spanFrom (later.prospect kinds inside)
  plain := later.plain
  short := later.short
  closes := by
    obtain ⟨value, passes⟩ := later.closes
    exact ⟨value, Leads.spanFrom.passes passes⟩

theorem Completable.expect {accepts : TokenKind → Bool} {expected : List String} (accepted : accepts kind = true)
    (plain : kind ∈ finishing) :
    Completable (fun _ (_ : ι) => Parse.expect accepts expected) anything 1 bound [kind] := by
  refine .intro () (List.cons_subset.mpr ⟨plain, List.nil_subset _⟩) (Nat.le_refl _)
    ⟨0, fun _ _ _ _ _ _ => Runs.expect accepted ⟨rfl, rfl⟩⟩ fun kind kinds _ => ?_
  exact .congr (fun _ _ => (bind_pure _).symm) (.expect fun _ => .pure fun _ => rfl)

theorem Completable.expectOperator {operator : Operator} (plain : .operator operator ∈ finishing) :
    Completable (fun _ (_ : ι) => Parse.expectOperator operator) anything 1 bound [.operator operator] :=
  .expect (beq_self_eq_true _) plain

theorem Completable.expectKeyword {keyword : Keyword} (plain : .keyword keyword ∈ finishing) :
    Completable (fun _ (_ : ι) => Parse.expectKeyword keyword) anything 1 bound [.keyword keyword] :=
  .expect (beq_self_eq_true _) plain

theorem Completable.expectName : Completable (fun _ (_ : ι) => Parse.expectName) anything 1 bound [.identifier] :=
  .expect rfl (by decide)

theorem Completable.expecting {accepts : TokenKind → Bool} {expected : List String} {next : Deeper → ι → Unit → Parse β}
    (accepted : accepts kind = true) (plain : kind ∈ finishing)
    (later : Completable (fun deeper index => next deeper index ()) stops second bound more)
    (short : more.length + 1 ≤ cost) (within : second ≤ share + cost) :
    Completable (fun deeper index => Parse.expect accepts expected >>= next deeper index) stops cost
      (bound + 1) (kind :: more) := by
  obtain ⟨result, level, passes⟩ := later.closes
  refine .intro result (List.cons_subset.mpr ⟨plain, later.plain⟩) short ⟨level,
    fun supply left index enough rest ends => ?_⟩
    fun kind kinds inside => ?_
  · apply Runs.bind
    apply Runs.expect accepted
    exact passes supply left index enough rest ends
  · exact .expect fun _ => later.on (Nat.lt_of_succ_lt_succ inside) (fun _ => id) within

end

section repetition

variable {ι α β : Type} [Alike α] [Alike β] {turn : Deeper → α → Parse (Turn α β)}
  {front kinds middle after more : List TokenKind} {stops before : Option TokenKind → Bool} {first second bound : Nat}
  {value next : α} {values : ι → α} {result : β}

theorem Passes.iterate_done
    (passes : Passes (fun deeper index => turn deeper (values index)) kinds after stops (.done result)) :
    Passes (fun deeper index => iterate (turn deeper) (values index)) kinds after stops result := by
  obtain ⟨level, passes⟩ := passes
  refine ⟨level, fun supply left index enough rest stopped => ?_⟩
  apply Runs.iterate_done
  apply (passes supply left index enough rest stopped).weaken
  rintro (found | found) ahead ⟨rfl, same⟩
  · cases same
  · exact ⟨found, rfl, rfl, same⟩

theorem Passes.iterate_again (passes : Passes (fun deeper index => turn deeper (values index)) kinds middle stops (.again next))
    (continues : Passes (fun deeper (pair : Following ι next) => iterate (turn deeper) pair.1.2) middle after stops result)
    (fewer : middle.length < kinds.length) :
    Passes (fun deeper index => iterate (turn deeper) (values index)) kinds after stops result := by
  obtain ⟨level, passes⟩ := passes
  obtain ⟨level', continues⟩ := continues
  refine ⟨max level level', fun supply left index enough rest stopped => ?_⟩
  apply Runs.iterate_again
  apply (passes supply left index (by omega) rest stopped).weaken
  rintro (found | found) ahead ⟨rfl, same⟩
  · refine ⟨found, rfl, ?_, continues supply left ⟨(index, found), same⟩ (by omega) rest stopped⟩
    simp only [List.length_append]
    omega
  · cases same

private theorem Passes.iterate_leads
    (passes : Passes (fun deeper index => turn deeper (values index)) kinds middle anything (.again next))
    (fewer : middle.length < kinds.length) :
    Leads (fun deeper index => iterate (turn deeper) (values index)) kinds
      (fun deeper (pair : Following ι next) => iterate (turn deeper) pair.1.2) middle := by
  obtain ⟨level, passes⟩ := passes
  refine ⟨level, fun supply left index enough later state ahead => ?_⟩
  obtain ⟨found, reached, _, ran, ahead', rfl, same⟩ := passes supply left index enough later rfl state ahead
  cases found with
  | done found => cases same
  | again found =>
    have progress : reached.remaining < state.remaining := by
      rw [ahead.remaining, ahead'.remaining, List.length_append, List.length_append]
      omega
    exact ⟨left, ⟨(index, found), same⟩, reached, Nat.le_add_right _ _, Parse.iterate_again ran progress, ahead'⟩

theorem Passes.iterate_stuck
    (passes : Passes (fun deeper index => turn deeper (values index)) kinds middle anything (.again next))
    (stuck : ¬ middle.length < kinds.length) :
    Refuses (fun deeper index => iterate (turn deeper) (values index)) kinds fun _ => True := by
  obtain ⟨level, passes⟩ := passes
  refine ⟨level, fun supply left index enough later state ahead => ?_⟩
  obtain ⟨found, reached, _, ran, ahead', rfl, same⟩ := passes supply left index enough later rfl state ahead
  cases found with
  | done found => cases same
  | again found =>
    have noProgress : ¬ reached.remaining < state.remaining := by
      rw [ahead.remaining, ahead'.remaining, List.length_append, List.length_append]
      omega
    exact ⟨_, reached, Parse.iterate_stuck ran noProgress, trivial⟩

omit [Alike α] [Alike β] in
theorem Refuses.iterate {cause : ParseError → Prop}
    (refuses : Refuses (fun deeper index => turn deeper (values index)) kinds cause) :
    Refuses (fun deeper index => iterate (turn deeper) (values index)) kinds cause := by
  obtain ⟨level, refuses⟩ := refuses
  refine ⟨level, fun supply left index enough rest state ahead => ?_⟩
  obtain ⟨error, after, failed, because⟩ := refuses supply left index enough rest state ahead
  exact ⟨error, after, iterate_error failed, because⟩

/-- A repetition has a prospect if its turns have one, and if from any value on it can be finished. The induction is on
the number of kinds, of which every turn that goes on consumes some. -/
theorem Prospect.iterate {ends : Bool → Turn α β → Prop}
    (turns : ∀ (ι : Type) (value : α) (values : ι → α), (∀ index, Alike.alike value (values index)) → ∀ kind kinds,
      kinds.length + 1 < bound → Prospect front (fun deeper index => turn deeper (values index)) ends before first (kind :: kinds))
    (sequel : ∀ (ι : Type) (value : α) (values : ι → α), (∀ index, Alike.alike value (values index)) → ∃ result more,
      more ⊆ finishing ∧ more.length ≤ second ∧
        Passes (fun deeper index => iterate (turn deeper) (values index)) more [] stops result ∧
        (ends false (.again value) → ∀ rest : List TokenKind, stops rest.head? = true → before (more ++ rest).head? = true))
    (implies : ∀ next, stops next = true → before next = true) (alike : ∀ index, Alike.alike value (values index))
    (inside : kinds.length < bound) {cost : Nat} (within : first + second ≤ cost) :
    Prospect front (fun deeper index => Parse.iterate (turn deeper) (values index)) (fun _ _ => True) stops cost kinds := by
  induction length : kinds.length using Nat.strongRecOn generalizing kinds ι value values with
  | ind length ih =>
    cases kinds with
    | nil =>
      obtain ⟨result, more, plain, short, passes, -⟩ := sequel ι value values alike
      exact .nil trivial plain (by omega) passes
    | cons kind kinds =>
      cases turns ι value values alike kind kinds inside with
      | unwritten inserted => exact .unwritten inserted
      | refuses refuses => exact .refuses refuses.iterate
      | doomed decided more plain short refuses => exact .doomed decided more plain (by omega) refuses.iterate
      | passes found rest suffix _ passes =>
        cases found with
        | done result => exact .passes result rest suffix (fun _ => trivial) passes.iterate_done
        | again next =>
          by_cases fewer : rest.length < (kind :: kinds).length
          · exact (ih rest.length (length ▸ fewer) (fun pair => pair.2) (Nat.lt_trans fewer inside) rfl).leave
              (passes.iterate_leads fewer) suffix
          · exact .refuses (passes.iterate_stuck fewer)
      | finishes found isEnd more plain short passes =>
        cases found with
        | done result =>
          obtain ⟨level, passes⟩ := passes
          have stopped : Passes (fun deeper index => turn deeper (values index)) (kind :: kinds ++ more)
              [] stops (.done result) :=
            ⟨level, fun supply left index enough rest ends => passes supply left index enough rest (implies _ ends)⟩
          exact .finishes result trivial more plain (by omega) stopped.iterate_done
        | again next =>
          obtain ⟨result, more', plain', short', passes', joins⟩ :=
            sequel (Following ι next) next (fun pair => pair.1.2) fun pair => pair.2
          refine .finishes result trivial (more ++ more') (List.append_subset.mpr ⟨plain, plain'⟩) ?_ ?_
          · rw [List.length_append]
            omega
          · rw [← List.append_assoc]
            refine Passes.iterate_again (passes.shift more' (joins isEnd)) passes' ?_
            simp only [List.nil_append, List.cons_append, List.length_cons, List.length_append]
            omega

/-- The end of a turn of a repetition, of which only the turns that go on matter. -/
def endsTurn (ends : Bool → Bool → Prop) (passed : Bool) : Turn Unit Unit → Prop
  | .again _ => ends passed false
  | .done _ => True

/-- Programs that are repeated until they answer that they are done. What is left to do behind a turn that may go on has
to join it. -/
theorem Prospect.repeatTurns {isDone : Deeper → Parse Bool} (ends : Bool → Bool → Prop) {cost : Nat}
    (turns : ∀ (ι : Type) kind kinds, kinds.length + 1 < bound →
      Prospect front (fun deeper (_ : ι) => isDone deeper) ends before first (kind :: kinds))
    (plain : more ⊆ finishing) (short : more.length ≤ second)
    (closes : ∀ ι : Type, Passes (fun deeper (_ : ι) => Parse.repeatUntil (isDone deeper)) more [] stops ())
    (joins : ends false false → ∀ rest : List TokenKind, stops rest.head? = true → before (more ++ rest).head? = true)
    (implies : ∀ next, stops next = true → before next = true) (inside : kinds.length < bound) (within : first + second ≤ cost) :
    Prospect front (fun deeper (_ : ι) => Parse.repeatUntil (isDone deeper)) (fun _ _ => True) stops cost kinds := by
  have oneTurn : ∀ (ι : Type) (value : Unit) (values : ι → Unit),
    (∀ index, Alike.alike value (values index)) → ∀ kind kinds,
      kinds.length + 1 < bound →
        Prospect front (fun deeper (_ : ι) => (fun done => if done then Turn.done () else Turn.again ()) <$>
        isDone deeper) (endsTurn ends) before first (kind :: kinds) := by
    intro ι _ _ _ kind kinds inside
    refine (turns ι kind kinds inside).map (fun value found same => ?_) fun _ value isEnd => ?_
    · cases same
      cases value <;> rfl
    · cases value with
      | true => exact trivial
      | false => exact isEnd
  exact Prospect.iterate oneTurn (fun ι _ _ _ => ⟨(), more, plain, short, closes ι, joins⟩) implies
    (fun _ => rfl) inside within

theorem Completable.repeatTurns {isDone : Deeper → Parse Bool} (ends : Bool → Bool → Prop) {cost : Nat}
    (turns : ∀ (ι : Type) kind kinds, kinds.length + 1 < bound →
      Prospect [] (fun deeper (_ : ι) => isDone deeper) ends before first (kind :: kinds))
    (plain : more ⊆ finishing) (short : more.length ≤ second)
    (closes : ∀ ι : Type, Passes (fun deeper (_ : ι) => Parse.repeatUntil (isDone deeper)) more [] stops ())
    (joins : ends false false → ∀ rest : List TokenKind, stops rest.head? = true → before (more ++ rest).head? = true)
    (implies : ∀ next, stops next = true → before next = true) (within : first + second ≤ cost) :
    Completable (fun deeper (_ : ι) => Parse.repeatUntil (isDone deeper)) stops cost bound more where
  prospect _ inside := .repeatTurns ends turns plain short closes joins implies inside within
  plain := plain
  short := Nat.le_trans short (by omega)
  closes := ⟨(), closes ι⟩

theorem Completable.repeatUntil {isDone : Deeper → Parse Bool} {cost : Nat}
    (turns : ∀ (ι : Type) kind kinds, kinds.length + 1 < bound →
      Prospect [] (fun deeper (_ : ι) => isDone deeper) (fun _ _ => True) before first (kind :: kinds))
    (plain : more ⊆ finishing) (short : more.length ≤ second)
    (closes : ∀ ι : Type, Passes (fun deeper (_ : ι) => Parse.repeatUntil (isDone deeper)) more [] stops ())
    (joins : ∀ rest : List TokenKind, stops rest.head? = true → before (more ++ rest).head? = true)
    (implies : ∀ next, stops next = true → before next = true) (within : first + second ≤ cost) :
    Completable (fun deeper (_ : ι) => Parse.repeatUntil (isDone deeper)) stops cost bound more :=
  .repeatTurns _ turns plain short closes (fun _ => joins) implies within

end repetition

end GoPrompt
