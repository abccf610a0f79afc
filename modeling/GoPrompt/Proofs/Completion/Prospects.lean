import GoPrompt.Proofs.Acceptance.Lists
import GoPrompt.Proofs.Parse.Coupling

/-! What can become of a text that goes on. The tokens of a text decide which of four prospects a program of the
grammar has, whatever follows them: it refuses one of them, it is done before them or with them, it can be finished
by a few more tokens, or it is doomed, because a clause of a control statement that cannot be changed any more has
turned out to be no expression. -/

namespace GoPrompt

open Parse Grammar

/-- The kinds that it takes to finish a text. -/
def finishing : List TokenKind :=
  [.identifier, .literal .string, .keyword .chan, .semicolon .explicit, .operator .assign, .operator .colon,
    .operator .leftParen, .operator .rightParen, .operator .leftBracket, .operator .rightBracket,
    .operator .leftBrace, .operator .rightBrace]

/-- The keywords of the statements that check one of their clauses only when the clause is read. -/
def isControl : TokenKind → Bool
  | .keyword keyword => [.if, .for, .switch, .select].contains keyword
  | _ => false

/-- The kinds that make more of a simple statement than an expression. -/
def isDecisive : TokenKind → Bool
  | .operator operator => operator.isAssignment || [.define, .comma, .arrow, .inc, .dec].contains operator
  | _ => false

/-- Some of the kinds is decisive. -/
def SomeDecisive (kinds : List TokenKind) : Prop := ∃ kind ∈ kinds, isDecisive kind = true

/-- Somewhere behind a control keyword, a simple statement may have become more than an expression. -/
def Decided (kinds : List TokenKind) : Prop :=
  ∃ control decisive, isControl control = true ∧ isDecisive decisive = true ∧ [control, decisive].Sublist kinds

/-- What the control statements expect of their clauses when these are read. -/
def clauseChecks : List (List String) :=
  [["condition expression"], ["for loop condition"], ["switch expression"], ["send or receive"]]

/-- A token rejected because the clause in front of it is no expression. -/
def ParseError.IsClauseCheck (error : ParseError) : Prop :=
  error.kind = .unexpectedToken ∧ error.expected ∈ clauseChecks

/-- How many more kinds each kind may call for. -/
def share : Nat := 32

/-- A program of the grammar for each of many values that it may depend on. -/
abbrev Programs (ι α : Type) := Deeper → ι → Parse α

section

variable {ι κ α β : Type} [Alike α] [Alike β]

/-- With levels enough, the programs go from some kinds to others, in front of whatever stops them, and answer a value
like the given one. -/
def Passes (programs : Programs ι α) (kinds after : List TokenKind) (stops : Option TokenKind → Bool)
    (value : α) : Prop :=
  ∃ level, ∀ (supply : Supply) (left : Nat) (index : ι), level ≤ left →
    ∀ rest : List TokenKind, stops rest.head? = true →
    Runs supply (kinds ++ rest) (programs (levels supply.nesting left) index) fun found ahead =>
      ahead = after ++ rest ∧ Alike.alike value found

/-- With levels enough, the programs reject one of the kinds, whatever follows. -/
def Refuses (programs : Programs ι α) (kinds : List TokenKind) (cause : ParseError → Prop) : Prop :=
  ∃ level, ∀ (supply : Supply) (left : Nat) (index : ι), level ≤ left →
    ∀ rest state, supply.Ahead (kinds ++ rest) state →
    ∃ error after, programs (levels supply.nesting left) index state = .error (.rejected error) after ∧ cause error

def anything : Option TokenKind → Bool := fun _ => true

/-- What becomes of programs on kinds that go on. The tokens in front of the kinds are given for what they say of the
clauses that the kinds stand in. If the kinds run out, something is known of the value, whether the programs are done
with the kinds or have to be finished. -/
inductive Prospect (front : List TokenKind) (programs : Programs ι α) (ends : Bool → α → Prop)
    (stops : Option TokenKind → Bool) (cost : Nat) (kinds : List TokenKind) : Prop
  /-- Only the end of a text has such a token. -/
  | unwritten (inserted : .semicolon .endOfInput ∈ kinds)
  | refuses (refuses : Refuses programs kinds fun _ => True)
  | passes (value : α) (rest : List TokenKind) (suffix : rest <:+ kinds) (isEnd : rest = [] → ends true value)
      (passes : Passes programs kinds rest anything value)
  | finishes (value : α) (isEnd : ends false value) (more : List TokenKind) (plain : more ⊆ finishing)
      (short : more.length ≤ share * kinds.length + cost) (passes : Passes programs (kinds ++ more) [] stops value)
  | doomed (decided : Decided (front ++ kinds)) (more : List TokenKind) (plain : more ⊆ finishing)
      (short : more.length ≤ share * kinds.length + cost)
      (refuses : Refuses programs (kinds ++ more) ParseError.IsClauseCheck)

/-- What is left to do behind programs that could be finished. -/
inductive Sequel (decided : Prop) (before : Option TokenKind → Bool) (programs : Programs ι α) (ends : Bool → α → Prop)
    (stops : Option TokenKind → Bool) (cost : Nat) : Prop
  | finishes (value : α) (isEnd : ends false value) (more : List TokenKind) (plain : more ⊆ finishing)
      (short : more.length ≤ cost)
      (joins : ∀ rest : List TokenKind, stops rest.head? = true → before (more ++ rest).head? = true)
      (passes : Passes programs more [] stops value)
  | doomed (isDecided : decided) (more : List TokenKind) (plain : more ⊆ finishing) (short : more.length ≤ cost)
      (joins : ∀ rest : List TokenKind, before (more ++ rest).head? = true)
      (refuses : Refuses programs more ParseError.IsClauseCheck)

/-- The values with which a sequence goes on that are like the given one. -/
abbrev Following (ι : Type) (value : α) := { pair : ι × α // Alike.alike value pair.2 }

end

theorem Decided.mono {front kinds rest : List TokenKind} (decided : Decided (front ++ rest)) (suffix : rest <:+ kinds) :
    Decided (front ++ kinds) := by
  obtain ⟨control, decisive, isControl, isDecisive, inside⟩ := decided
  exact ⟨control, decisive, isControl, isDecisive, inside.trans (suffix.sublist.append_left front)⟩

theorem Decided.intro {front kinds : List TokenKind} (controls : ∃ control ∈ front, isControl control = true)
    (decisive : SomeDecisive kinds) : Decided (front ++ kinds) := by
  obtain ⟨control, inFront, isControl⟩ := controls
  obtain ⟨kind, inKinds, isDecisive⟩ := decisive
  exact ⟨control, kind, isControl, isDecisive,
    (List.singleton_sublist.mpr inFront).append (List.singleton_sublist.mpr inKinds)⟩

section refusals

variable {ι κ α β : Type} {programs : Programs ι α} {kinds : List TokenKind} {cause : ParseError → Prop}

theorem Refuses.weaken {cause' : ParseError → Prop} (refuses : Refuses programs kinds cause)
    (implies : ∀ error, cause error → cause' error) : Refuses programs kinds cause' := by
  obtain ⟨level, refuses⟩ := refuses
  refine ⟨level, fun supply left index enough rest state ahead => ?_⟩
  obtain ⟨error, after, failed, because⟩ := refuses supply left index enough rest state ahead
  exact ⟨error, after, failed, implies error because⟩

theorem Refuses.bind {next : Deeper → ι → α → Parse β} (refuses : Refuses programs kinds cause) :
    Refuses (fun deeper index => programs deeper index >>= next deeper index) kinds cause := by
  obtain ⟨level, refuses⟩ := refuses
  refine ⟨level, fun supply left index enough rest state ahead => ?_⟩
  obtain ⟨error, after, failed, because⟩ := refuses supply left index enough rest state ahead
  exact ⟨error, after, bind_error failed, because⟩

theorem Refuses.map {f : α → β} (refuses : Refuses programs kinds cause) :
    Refuses (fun deeper index => f <$> programs deeper index) kinds cause := by
  obtain ⟨level, refuses⟩ := refuses
  refine ⟨level, fun supply left index enough rest state ahead => ?_⟩
  obtain ⟨error, after, failed, because⟩ := refuses supply left index enough rest state ahead
  exact ⟨error, after, map_error failed, because⟩

end refusals

section passing

variable {ι κ α β : Type} [Alike α] [Alike β] {programs : Programs ι α} {kinds middle after : List TokenKind}
  {stops stops' : Option TokenKind → Bool} {value : α} {result : β} {cause : ParseError → Prop}

theorem Passes.shift (passes : Passes programs kinds after stops value) (more : List TokenKind)
    (joins : ∀ rest : List TokenKind, stops' rest.head? = true → stops (more ++ rest).head? = true) :
    Passes programs (kinds ++ more) (after ++ more) stops' value := by
  obtain ⟨level, passes⟩ := passes
  refine ⟨level, fun supply left index enough rest ends => ?_⟩
  rw [List.append_assoc, List.append_assoc]
  exact passes supply left index enough _ (joins rest ends)

theorem Passes.bind {next : Deeper → ι → α → Parse β} (first : Passes programs kinds middle stops value)
    (second : Passes (fun deeper (pair : Following ι value) => next deeper pair.1.1 pair.1.2) middle after stops result) :
    Passes (fun deeper index => programs deeper index >>= next deeper index) kinds after stops result := by
  obtain ⟨level, first⟩ := first
  obtain ⟨level', second⟩ := second
  refine ⟨max level level', fun supply left index enough rest ends => ?_⟩
  apply Runs.bind
  apply (first supply left index (by omega) rest ends).weaken
  rintro found _ ⟨rfl, same⟩
  exact second supply left ⟨(index, found), same⟩ (by omega) rest ends

theorem Passes.map {f : α → β} (passes : Passes programs kinds after stops value)
    (alike : ∀ found, Alike.alike value found → Alike.alike (f value) (f found)) :
    Passes (fun deeper index => f <$> programs deeper index) kinds after stops (f value) := by
  obtain ⟨level, passes⟩ := passes
  refine ⟨level, fun supply left index enough rest ends => ?_⟩
  apply Runs.map
  apply (passes supply left index enough rest ends).weaken
  rintro found _ ⟨rfl, same⟩
  exact ⟨rfl, alike found same⟩

omit [Alike β] in
theorem Passes.refuses {next : Deeper → ι → α → Parse β} {more : List TokenKind}
    (first : Passes programs kinds middle stops value)
    (joins : ∀ rest : List TokenKind, stops (more ++ rest).head? = true)
    (second : Refuses (fun deeper (pair : Following ι value) => next deeper pair.1.1 pair.1.2) (middle ++ more) cause) :
    Refuses (fun deeper index => programs deeper index >>= next deeper index) (kinds ++ more) cause := by
  obtain ⟨level, first⟩ := first
  obtain ⟨level', second⟩ := second
  refine ⟨max level level', fun supply left index enough rest state ahead => ?_⟩
  rw [List.append_assoc] at ahead
  obtain ⟨found, reached, _, ran, ahead, rfl, same⟩ := first supply left index (by omega) _ (joins rest) state ahead
  rw [← List.append_assoc] at ahead
  obtain ⟨error, after, failed, because⟩ := second supply left ⟨(index, found), same⟩ (by omega) rest reached ahead
  exact ⟨error, after, (bind_ok ran).trans failed, because⟩

end passing

/-- On kinds like these, with levels enough, the one programs do what the others do on what is left of the kinds. -/
def Leads {ι κ α : Type} (programs : Programs ι α) (kinds : List TokenKind) (others : Programs κ α)
    (rest : List TokenKind) : Prop :=
  ∃ level, ∀ (supply : Supply) (left : Nat) (index : ι), level ≤ left →
    ∀ later state, supply.Ahead (kinds ++ later) state →
    ∃ below other reached, left ≤ below + level ∧
      programs (levels supply.nesting left) index state = others (levels supply.nesting below) other reached ∧
      supply.Ahead (rest ++ later) reached

section leading

variable {ι κ α β : Type} {programs : Programs ι α} {others : Programs κ α} {kinds rest : List TokenKind}

theorem Leads.refuses {cause : ParseError → Prop} (leads : Leads programs kinds others rest)
    (refuses : Refuses others rest cause) :
    Refuses programs kinds cause := by
  obtain ⟨level, leads⟩ := leads
  obtain ⟨level', refuses⟩ := refuses
  refine ⟨level + level', fun supply left index enough later state ahead => ?_⟩
  obtain ⟨below, other, reached, near, same, ahead⟩ := leads supply left index (by omega) later state ahead
  rw [same]
  exact refuses supply below other (by omega) later reached ahead

theorem Leads.more (leads : Leads programs kinds others rest) (more : List TokenKind) :
    Leads programs (kinds ++ more) others (rest ++ more) := by
  obtain ⟨level, leads⟩ := leads
  refine ⟨level, fun supply left index enough later state ahead => ?_⟩
  rw [List.append_assoc] at ahead ⊢
  exact leads supply left index enough (more ++ later) state ahead

theorem Leads.passes [Alike α] {after : List TokenKind} {stops : Option TokenKind → Bool} {value : α}
    (leads : Leads programs kinds others rest) (passes : Passes others rest after stops value) :
    Passes programs kinds after stops value := by
  obtain ⟨level, leads⟩ := leads
  obtain ⟨level', passes⟩ := passes
  refine ⟨level + level', fun supply left index enough later ends state ahead => ?_⟩
  obtain ⟨below, other, reached, near, same, ahead⟩ := leads supply left index (by omega) later state ahead
  rw [same]
  exact passes supply below other (by omega) later ends reached ahead

theorem Passes.leads [Alike α] {value : α} {next : Deeper → ι → α → Parse β}
    (passes : Passes programs kinds rest anything value) :
    Leads (fun deeper index => programs deeper index >>= next deeper index) kinds
      (fun deeper (pair : Following ι value) => next deeper pair.1.1 pair.1.2) rest := by
  obtain ⟨level, passes⟩ := passes
  refine ⟨level, fun supply left index enough later state ahead => ?_⟩
  obtain ⟨found, reached, _, ran, ahead, rfl, same⟩ := passes supply left index enough later rfl state ahead
  exact ⟨left, ⟨(index, found), same⟩, reached, Nat.le_add_right _ _, bind_ok ran, ahead⟩

end leading

namespace Prospect

variable {ι κ α β : Type} [Alike α] [Alike β] {programs : Programs ι α} {front kinds rest : List TokenKind}
  {ends : Bool → α → Prop} {ends' : Bool → β → Prop} {stops stops' : Option TokenKind → Bool} {cost first second : Nat}

theorem lead {others : Programs κ α} {front' : List TokenKind} (leads : Leads programs kinds others rest)
    (suffix : rest <:+ kinds) (later : Prospect front' others ends stops second rest)
    (decided : Decided (front' ++ rest) → Decided (front ++ kinds))
    (within : share * rest.length + second ≤ share * kinds.length + cost) :
    Prospect front programs ends stops cost kinds := by
  cases later with
  | unwritten inserted => exact .unwritten (suffix.mem inserted)
  | refuses refuses => exact .refuses (leads.refuses refuses)
  | passes value rest' suffix' isEnd passes =>
      exact .passes value rest' (suffix'.trans suffix) isEnd (leads.passes passes)
  | finishes value isEnd more plain short passes =>
    exact .finishes value isEnd more plain (by omega) ((leads.more more).passes passes)
  | doomed isDecided more plain short refuses =>
    exact .doomed (decided isDecided) more plain (by omega) ((leads.more more).refuses refuses)

theorem leave {others : Programs κ α} (leads : Leads programs kinds others rest) (suffix : rest <:+ kinds)
    (later : Prospect front others ends stops cost rest) : Prospect front programs ends stops cost kinds :=
  later.lead leads suffix (·.mono suffix) (Nat.add_le_add_right (Nat.mul_le_mul_left share suffix.length_le) cost)

/-- What comes behind programs is in front of the kinds that they leave, with the others behind it. -/
theorem bind {next : Deeper → ι → α → Parse β} (start : Prospect front programs ends stops first kinds)
    (later : ∀ value used rest, kinds = used ++ rest → (rest = [] → ends true value) →
      Prospect (front ++ used) (fun deeper (pair : Following ι value) => next deeper pair.1.1 pair.1.2) ends' stops' cost rest)
    (sequel : ∀ value, ends false value → Sequel (Decided (front ++ kinds)) stops
      (fun deeper (pair : Following ι value) => next deeper pair.1.1 pair.1.2) ends' stops' second)
    (within : first + second ≤ cost) :
    Prospect front (fun deeper index => programs deeper index >>= next deeper index) ends' stops' cost kinds := by
  cases start with
  | unwritten inserted => exact .unwritten inserted
  | refuses refuses => exact .refuses refuses.bind
  | passes value rest suffix isEnd passes =>
    obtain ⟨used, rfl⟩ := suffix
    refine (later value used rest rfl isEnd).lead passes.leads (List.suffix_append used rest) (fun decided => ?_) ?_
    · rwa [List.append_assoc] at decided
    · exact Nat.add_le_add_right (Nat.mul_le_mul_left share (List.suffix_append used rest).length_le) cost
  | finishes value isEnd more plain short passes =>
    cases sequel value isEnd with
    | finishes result isEnd' more' plain' short' joins passes' =>
      refine .finishes result isEnd' (more ++ more') (List.append_subset.mpr ⟨plain, plain'⟩) ?_ ?_
      · rw [List.length_append]
        omega
      · rw [← List.append_assoc]
        exact (passes.shift more' joins).bind passes'
    | doomed isDecided more' plain' short' joins refuses =>
      refine .doomed isDecided (more ++ more') (List.append_subset.mpr ⟨plain, plain'⟩) ?_ ?_
      · rw [List.length_append]
        omega
      · rw [← List.append_assoc]
        exact passes.refuses joins refuses
  | doomed decided more plain short refuses => exact .doomed decided more plain (by omega) refuses.bind

theorem map {f : α → β} (start : Prospect front programs ends stops cost kinds)
    (alike : ∀ value found, Alike.alike value found → Alike.alike (f value) (f found))
    (isEnd : ∀ passed value, ends passed value → ends' passed (f value)) :
    Prospect front (fun deeper index => f <$> programs deeper index) ends' stops cost kinds := by
  cases start with
  | unwritten inserted => exact .unwritten inserted
  | refuses refuses => exact .refuses refuses.map
  | passes value rest suffix isValue passes =>
    exact .passes (f value) rest suffix (fun last => isEnd true value (isValue last)) (passes.map (alike value))
  | finishes value isValue more plain short passes =>
    exact .finishes (f value) (isEnd false value isValue) more plain short (passes.map (alike value))
  | doomed decided more plain short refuses => exact .doomed decided more plain short refuses.map

end Prospect

theorem Sequel.nil {ι α : Type} [Alike α] {programs : Programs ι α} {front : List TokenKind} {ends : Bool → α → Prop}
    {before stops : Option TokenKind → Bool} {cost : Nat}
    (sequel : Sequel (Decided front) before programs ends stops cost) :
    Prospect front programs ends stops cost [] := by
  cases sequel with
  | finishes value isEnd more plain short joins passes =>
      exact .finishes value isEnd more plain (Nat.le_trans short (by omega)) passes
  | doomed isDecided more plain short joins refuses =>
    exact .doomed (by rwa [List.append_nil]) more plain (Nat.le_trans short (by omega)) refuses

end GoPrompt
