import GoPrompt.Proofs.Lexical.Collected
import GoPrompt.Proofs.Lexical.Order
import GoPrompt.Proofs.Stream.Calls

/-! Looking ahead changes no answer. While the budget has room for all tokens of a text, a stream answers every call
as the list of these tokens does, however the calls are mixed, and explains its illegal tokens as the lexer has
explained them. -/

namespace GoPrompt

def LexStep.kinds (steps : List LexStep) : List TokenKind := (tokens steps).map (·.kind)

theorem LexStep.kinds_cons {step : LexStep} {token : Token} (isToken : step.token? = some token) (steps : List LexStep) :
    kinds (step :: steps) = token.kind :: kinds steps := by
  rw [kinds, tokens, List.filterMap_cons_some isToken]
  rfl

namespace Lexer

section

variable {lexer : Lexer} {steps : List LexStep}

theorem Lexes.getElem?_tokens (lexes : lexer.Lexes steps) (number : Nat) :
    (LexStep.tokens steps)[number]? = steps[number]?.bind LexStep.token? := by
  induction lexes generalizing number with
  | ended => rfl
  | comment => cases number <;> rfl
  | more reads goesOn _ ih =>
    obtain ⟨token, isToken⟩ := LexStep.token?_of_goesOn goesOn
    rw [LexStep.tokens, List.filterMap_cons_some isToken]
    cases number with
    | zero => exact isToken.symm
    | succ number => exact ih number

theorem Lexes.getElem?_kinds (lexes : lexer.Lexes steps) (number : Nat) :
    (LexStep.kinds steps)[number]? = (steps[number]?.bind LexStep.token?).map (·.kind) := by
  rw [LexStep.kinds, List.getElem?_map, lexes.getElem?_tokens]

/-- Two steps that stand at the same place are the same one, if the first of them takes some of the text. -/
theorem Lexes.same_place (lexes : lexer.Lexes steps) {number other : Nat} {step step' : LexStep} {token token' : Token}
    (there : steps[number]? = some step) (isToken : step.token? = some token) (there' : steps[other]? = some step')
    (isToken' : step'.token? = some token') (written : ¬ token.IsInserted) (same : token'.span = token.span) :
    other = number := by
  obtain ⟨_, _, reads⟩ := lexes.read_at there
  have nonempty := reads.nonempty isToken written
  rcases Nat.lt_trichotomy other number with less | equal | more
  · have ordered := lexes.ordered less there' isToken' there isToken
    rw [same] at ordered
    omega
  · exact equal
  · have ordered := lexes.ordered more there isToken there' isToken'
    rw [same] at ordered
    omega

end

end Lexer

private theorem map_find?_eq_some {α β : Type} {entries : List α} {p : α → Bool} {f : α → β} {value : β}
    (present : ∃ entry ∈ entries, p entry = true) (same : ∀ entry ∈ entries, p entry = true → f entry = value) :
    (entries.find? p).map f = some value := by
  cases found : entries.find? p with
  | none =>
    obtain ⟨entry, mem, holds⟩ := present
    exact absurd holds (List.find?_eq_none.mp found entry mem)
  | some entry => rw [Option.map_some, same entry (List.mem_of_find?_eq_some found) (List.find?_some found)]

namespace TokenStream

/-- A stream over these steps of the lexer, from which so many tokens have been taken. -/
structure Serves (steps : List LexStep) (number : Nat) (stream : TokenStream) : Prop where
  room : (LexStep.tokens steps).length ≤ stream.maxTokens
  taken : number ≤ stream.scanned
  scanned : stream.scanned ≤ (LexStep.tokens steps).length
  lookahead : stream.lookahead = ((LexStep.tokens steps).take stream.scanned).drop number
  invalid : stream.invalid = (steps.take stream.scanned).reverse.flatMap LexStep.flaws
  running : stream.exhausted = false → ∃ last, stream.lexer.Collects (steps.drop stream.scanned) last
  ended : stream.exhausted = true → stream.scanned = (LexStep.tokens steps).length
  uncut : stream.tail = none →
    (∀ step ∈ steps.take stream.scanned, step.cutoff? = none) ∧
      (stream.exhausted = true → steps.drop stream.scanned = [])

section

variable {origin : Lexer} {steps : List LexStep} {number : Nat} {stream : TokenStream}

theorem ofText_serves {text : List Char} {last : Lexer} {limit : Nat}
    (collects : (Lexer.ofText 0 text).Collects steps last) (room : (LexStep.tokens steps).length ≤ limit) :
    (ofText text limit).Serves steps 0 where
  room := room
  taken := Nat.le_refl 0
  scanned := Nat.zero_le _
  lookahead := rfl
  invalid := rfl
  running _ := ⟨last, collects⟩
  ended := nofun
  uncut _ := ⟨fun _ mem => absurd mem List.not_mem_nil, nofun⟩

theorem Serves.length (serves : stream.Serves steps number) : stream.lookahead.length = stream.scanned - number := by
  have scanned := serves.scanned
  rw [serves.lookahead, List.length_drop, List.length_take, Nat.min_eq_left scanned]

private theorem Serves.getElem?_lookahead (serves : stream.Serves steps number) {index : Nat}
    (within : number + index < stream.scanned) :
    stream.lookahead[index]? = (LexStep.tokens steps)[number + index]? := by
  rw [serves.lookahead, List.getElem?_drop, List.getElem?_take_of_lt within]

theorem Serves.withEnd (serves : stream.Serves steps number) (missing : (LexStep.tokens steps)[stream.scanned]? = none)
    (step : LexStep) (lexer : Lexer) (whole : step.cutoff? = none → steps.drop stream.scanned = []) :
    (stream.withEnd step lexer).Serves steps number ∧
    stream.scanned = min (stream.scanned + 1) (LexStep.tokens steps).length := by
  have all : stream.scanned = (LexStep.tokens steps).length :=
    Nat.le_antisymm serves.scanned (List.getElem?_eq_none_iff.mp missing)
  refine ⟨⟨serves.room, serves.taken, serves.scanned, serves.lookahead, serves.invalid, nofun, fun _ =>
    all, fun uncut => ?_⟩, ?_⟩
  · obtain ⟨notNow, notBefore⟩ := Option.or_eq_none_iff.mp uncut
    exact ⟨(serves.uncut notBefore).1, fun _ => whole notNow⟩
  · rw [all, Nat.min_eq_right (Nat.le_succ _)]

/-- The next token joins those ahead, and its diagnostic those at the side. -/
theorem Serves.withFound (lexes : origin.Lexes steps) (serves : stream.Serves steps number)
    (running : stream.exhausted = false) {step : LexStep} {later : List LexStep} {token : Token} {lexer last : Lexer}
    (isToken : step.token? = some token) (isNext : steps.drop stream.scanned = step :: later)
    (isHere : (LexStep.tokens steps)[stream.scanned]? = some token) (collects : lexer.Collects later last) :
    (stream.withFound step token lexer).Serves steps number := by
  obtain ⟨less, -⟩ := List.getElem?_eq_some_iff.mp isHere
  have isStep : steps[stream.scanned]? = some step := by
    rw [← List.head?_drop, isNext]
    rfl
  refine ⟨serves.room, Nat.le_succ_of_le serves.taken, less, ?_, ?_, fun _ =>
    ⟨last, ?_⟩, fun exhausted => ?_, fun uncut => ?_⟩
  · show stream.lookahead ++ [token] = ((LexStep.tokens steps).take (stream.scanned + 1)).drop number
    have within : number ≤ ((LexStep.tokens steps).take stream.scanned).length := by
      rw [List.length_take, Nat.min_eq_left serves.scanned]
      exact serves.taken
    rw [List.take_add_one, isHere, Option.toList_some, List.drop_append_of_le_length within, ← serves.lookahead]
  · show step.flaws ++ stream.invalid = (steps.take (stream.scanned + 1)).reverse.flatMap LexStep.flaws
    rw [List.take_add_one, isStep, Option.toList_some, List.reverse_append,
      List.reverse_singleton, List.singleton_append, List.flatMap_cons, ← serves.invalid]
  · have isLater : steps.drop (stream.scanned + 1) = later := by
      rw [← List.tail_drop, isNext]
      rfl
    exact isLater ▸ collects
  · -- Only a token that is cut off exhausts the stream, and nothing comes behind it.
    have cut : (step.cutoff?.isSome || stream.exhausted) = true := exhausted
    rw [running, Bool.or_false] at cut
    cases step with
    | truncated token cutoff =>
      have within := List.length_filterMap_le LexStep.token? steps
      rw [lexes.truncated_last isStep] at within
      exact Nat.le_antisymm less within
    | incomplete => cases isToken
    | token | invalid | endOfInput => cases cut
  · obtain ⟨notNow, notBefore⟩ := Option.or_eq_none_iff.mp uncut
    refine ⟨fun other mem => ?_, fun exhausted => ?_⟩
    · have mem : other ∈ steps.take (stream.scanned + 1) := mem
      rw [List.take_add_one, isStep, Option.toList_some, List.mem_append, List.mem_singleton] at mem
      exact mem.elim ((serves.uncut notBefore).1 other) fun same => same ▸ notNow
    · have exhausted : (step.cutoff?.isSome || stream.exhausted) = true := exhausted
      rw [notNow, running] at exhausted
      cases exhausted

theorem Serves.fetch (lexes : origin.Lexes steps) (serves : stream.Serves steps number)
    (running : stream.exhausted = false) :
    ∃ after, stream.fetch = (.ok (), after) ∧ after.Serves steps number ∧ after.observedEnd = stream.observedEnd ∧
      after.scanned = min (stream.scanned + 1) (LexStep.tokens steps).length := by
  obtain ⟨last, collects⟩ := serves.running running
  have isHere : ∀ rest, steps.drop stream.scanned = rest →
      (LexStep.tokens steps)[stream.scanned]? = rest.head?.bind LexStep.token? := by
    rintro rest rfl
    rw [lexes.getElem?_tokens, List.head?_drop]
  generalize isNext : steps.drop stream.scanned = rest at collects
  cases collects with
  | ended answered =>
    obtain ⟨serves', scanned⟩ := serves.withEnd (isHere _ isNext) .endOfInput _ fun _ => isNext
    exact ⟨_, (Fetches.ended answered rfl).eq, serves', rfl, scanned⟩
  | @comment _ _ cutoff answered =>
    obtain ⟨serves', scanned⟩ := serves.withEnd (isHere _ isNext) (.incomplete cutoff) _ nofun
    exact ⟨_, (Fetches.ended answered rfl).eq, serves', rfl, scanned⟩
  | more answered goesOn collects =>
    obtain ⟨token, isToken⟩ := LexStep.token?_of_goesOn goesOn
    have isNow := (isHere _ isNext).trans isToken
    obtain ⟨less, -⟩ := List.getElem?_eq_some_iff.mp isNow
    refine ⟨_, (Fetches.found answered isToken (Nat.lt_of_lt_of_le less serves.room)).eq, ?_, rfl,
      (Nat.min_eq_left less).symm⟩
    exact serves.withFound lexes running isToken isNext isNow collects

theorem Serves.fill (lexes : origin.Lexes steps) (serves : stream.Serves steps number) (missing : Nat) :
    ∃ after, fill missing stream = (.ok (), after) ∧ after.Serves steps number ∧
    after.observedEnd = stream.observedEnd ∧
      after.scanned = min (stream.scanned + missing) (LexStep.tokens steps).length := by
  induction missing generalizing stream with
  | zero => exact ⟨stream, rfl, serves, rfl, (Nat.min_eq_left serves.scanned).symm⟩
  | succ missing ih =>
    cases exhausted : stream.exhausted with
    | true =>
      have all := serves.ended exhausted
      refine ⟨stream, by rw [TokenStream.fill, if_pos exhausted], serves, rfl, ?_⟩
      rw [all, Nat.min_eq_right (Nat.le_add_right _ _)]
    | false =>
      obtain ⟨fetched, isFetched, serves', observed, scanned⟩ := serves.fetch lexes exhausted
      obtain ⟨after, isFilled, serves', observed', scanned'⟩ := ih serves'
      refine ⟨after, ?_, serves', observed'.trans observed, ?_⟩
      · rw [TokenStream.fill, if_neg (Bool.eq_false_iff.mp exhausted), isFetched]
        exact isFilled
      · omega

theorem Serves.fillTo (lexes : origin.Lexes steps) (serves : stream.Serves steps number) (index : Nat) :
    ∃ after, stream.fillTo index = (.ok (), after) ∧ after.Serves steps number ∧
    after.observedEnd = stream.observedEnd ∧
      after.scanned = min (max stream.scanned (number + index + 1)) (LexStep.tokens steps).length ∧
      after.lookahead[index]? = (LexStep.tokens steps)[number + index]? := by
  obtain ⟨after, isFilled, serves', observed, scanned⟩ := serves.fill lexes (index + 1 - stream.lookahead.length)
  have length := serves.length
  have taken := serves.taken
  refine ⟨after, isFilled, serves', observed, by omega, ?_⟩
  by_cases within : number + index < after.scanned
  · exact serves'.getElem?_lookahead within
  · have size := serves'.length
    rw [List.getElem?_eq_none (by omega), List.getElem?_eq_none (by omega)]

theorem Serves.noteEnd (serves : stream.Serves steps number) : stream.noteEnd.Serves steps number :=
  ⟨serves.room, serves.taken, serves.scanned, serves.lookahead, serves.invalid, serves.running,
    serves.ended, serves.uncut⟩

/-- What a call leaves of a stream that has filled to it. -/
theorem Serves.settle (serves : stream.Serves steps number) {call : StreamCall}
    (found : stream.lookahead[call.reach]? = (LexStep.tokens steps)[number + call.reach]?) :
    (stream.settle call).Serves steps (min (number + [call].count .next) (LexStep.tokens steps).length) ∧
      ((stream.settle call).observedEnd = true ↔
        stream.observedEnd = true ∨ call.reach = 0 ∧ (LexStep.tokens steps)[number + call.reach]? = none) ∧
      (stream.settle call).scanned = stream.scanned := by
  have few : number ≤ (LexStep.tokens steps).length := Nat.le_trans serves.taken serves.scanned
  rw [← found]
  cases call with
  | peek index =>
    have unasked : [StreamCall.peek index].count .next = 0 := rfl
    have missing_iff : index = 0 ∧ stream.lookahead.isEmpty = true ↔ index = 0 ∧ stream.lookahead[index]? = none := by
      refine and_congr_right fun front => ?_
      rw [front, List.isEmpty_iff, ← List.head?_eq_getElem?, List.head?_eq_none_iff]
    rw [unasked, Nat.add_zero, Nat.min_eq_left few]
    simp only [TokenStream.settle, StreamCall.reach, missing_iff]
    split
    next missing => exact ⟨serves.noteEnd, ⟨fun _ => .inr missing, fun _ => rfl⟩, rfl⟩
    next notMissing => exact ⟨serves, ⟨.inl, fun either => either.resolve_right notMissing⟩, rfl⟩
  | next =>
    have oneMore : [StreamCall.next].count .next = 1 := rfl
    rw [oneMore]
    simp only [TokenStream.settle, StreamCall.reach] at found ⊢
    cases front : stream.lookahead with
    | nil =>
      have all : (LexStep.tokens steps).length ≤ number := by
        rw [front] at found
        exact List.getElem?_eq_none_iff.mp found.symm
      have same : min (number + 1) (LexStep.tokens steps).length = number := by omega
      exact ⟨same.symm ▸ serves.noteEnd, ⟨fun _ => .inr ⟨trivial, rfl⟩, fun _ => rfl⟩, rfl⟩
    | cons token later =>
      have isToken : (LexStep.tokens steps)[number]? = some token := by rw [← Nat.add_zero number, ← found, front]; rfl
      have length := serves.length
      rw [front, List.length_cons] at length
      rw [Nat.min_eq_left (List.getElem?_eq_some_iff.mp isToken).1]
      refine ⟨⟨serves.room, ?_, serves.scanned, ?_, serves.invalid, serves.running, serves.ended, serves.uncut⟩,
        ⟨.inl, ?_⟩, rfl⟩
      · show number + 1 ≤ stream.scanned
        omega
      · show later = ((LexStep.tokens steps).take stream.scanned).drop (number + 1)
        rw [← List.tail_drop, ← serves.lookahead, front]
        rfl
      · rintro (seen | ⟨-, isNone⟩)
        · exact seen
        · cases isNone

theorem Serves.serve (lexes : origin.Lexes steps) (serves : stream.Serves steps number) (call : StreamCall)
    (near : call.reach ≤ maxLookahead) :
    ∃ after, stream.serve call = (.ok (LexStep.tokens steps)[number + call.reach]?, after) ∧
      after.Serves steps (min (number + [call].count .next) (LexStep.tokens steps).length) ∧
      (after.observedEnd = true ↔ stream.observedEnd = true ∨ call.reach = 0 ∧
        (LexStep.tokens steps)[number + call.reach]? = none) ∧
      after.scanned = min (max stream.scanned (number + call.reach + 1)) (LexStep.tokens steps).length := by
  obtain ⟨filled, isFilled, serves', observed, scanned, found⟩ := serves.fillTo lexes call.reach
  obtain ⟨serves'', observed', scanned'⟩ := serves'.settle found
  exact ⟨_, found ▸ serve_filled call near isFilled, serves'', observed ▸ observed', scanned'.trans scanned⟩

private theorem mem_flaws {step : LexStep} {entry : Span × LexDiagnostic} (mem : entry ∈ step.flaws) :
    ∃ token, step = .invalid token entry.2 ∧ entry.1 = token.span := by
  cases step with
  | invalid token diagnostic =>
    obtain rfl := List.mem_singleton.mp mem
    exact ⟨token, rfl, rfl⟩
  | token | truncated | incomplete | endOfInput => cases mem

/-- An entry at the side for the place of a token has come with that token. -/
theorem Serves.entry (lexes : origin.Lexes steps) (serves : stream.Serves steps number) {place : Nat} {step : LexStep}
    {token : Token} (there : steps[place]? = some step) (isToken : step.token? = some token)
    {entry : Span × LexDiagnostic} (mem : entry ∈ stream.invalid) (same : entry.1 = token.span) :
    step = .invalid token entry.2 := by
  rw [serves.invalid, List.mem_flatMap] at mem
  obtain ⟨step', mem, isEntry⟩ := mem
  obtain ⟨token', rfl, isPlace⟩ := mem_flaws isEntry
  obtain ⟨other, isThere⟩ := List.getElem?_of_mem (List.mem_of_mem_take (List.mem_reverse.mp mem))
  obtain ⟨_, _, reads⟩ := lexes.read_at isThere
  have written : ¬ token'.IsInserted := fun inserted => by
    have illegal : token'.kind = .illegal := reads.kind
    rw [show token'.kind = _ from inserted] at illegal
    cases illegal
  obtain rfl := lexes.same_place isThere rfl there isToken written (same.symm.trans isPlace)
  obtain rfl := Option.some.inj (isThere.symm.trans there)
  cases isToken
  rfl

/-- A token is explained by the step that has brought it, and by no other one. -/
theorem Serves.explained (lexes : origin.Lexes steps) (serves : stream.Serves steps number) {step : LexStep}
    {token : Token} (mem : step ∈ steps) (isToken : step.token? = some token)
    (fetched : ∃ place, place < stream.scanned ∧ (LexStep.tokens steps)[place]? = some token) :
    (token.kind ≠ .illegal → stream.invalidDiagnostic? token = none) ∧
      (token.kind = .illegal → ∃ diagnostic, step = .invalid token diagnostic ∧
        stream.invalidDiagnostic? token = some diagnostic) := by
  obtain ⟨number, there⟩ := List.getElem?_of_mem mem
  obtain ⟨_, _, reads⟩ := lexes.read_at there
  have kind := reads.kind
  refine ⟨fun legal => ?_, fun illegal => ?_⟩
  · rw [invalidDiagnostic?, Option.map_eq_none_iff, List.find?_eq_none]
    intro entry mem same
    have invalid := serves.entry lexes there isToken mem (beq_iff_eq.mp same)
    rw [invalid] at kind
    exact legal kind
  · obtain ⟨diagnostic, rfl⟩ : ∃ diagnostic, step = .invalid token diagnostic := by
      cases step <;> cases isToken
      · exact absurd illegal kind
      · obtain ⟨literal, isLiteral⟩ := kind
        cases illegal.symm.trans isLiteral
      · exact ⟨_, rfl⟩
    refine ⟨diagnostic, rfl,
      map_find?_eq_some ⟨(token.span, diagnostic), ?_, beq_self_eq_true _⟩ fun entry mem same => ?_⟩
    · -- The token may have been fetched at another place than that of this step, but what is written stands at one place only.
      obtain ⟨place, less, isThere⟩ := fetched
      rw [lexes.getElem?_tokens] at isThere
      obtain ⟨step', there', isToken'⟩ := Option.bind_eq_some_iff.mp isThere
      have written : ¬ token.IsInserted := fun inserted => by cases illegal.symm.trans inserted
      obtain rfl := lexes.same_place there isToken there' isToken' written rfl
      have within : (steps.take stream.scanned)[place]? = some (.invalid token diagnostic) := by
        rwa [List.getElem?_take_of_lt less]
      rw [serves.invalid, List.mem_flatMap]
      exact ⟨_, List.mem_reverse.mpr (List.mem_of_getElem? within), List.mem_singleton_self _⟩
    · have invalid := serves.entry lexes there isToken mem (beq_iff_eq.mp same)
      cases invalid
      rfl

/-- What calls have been answered, and the stream that they leave. -/
structure Follows (steps : List LexStep) (calls : List StreamCall) (answers : List (Except ParseError (Option Token)))
    (stream : TokenStream) : Prop where
  serves : stream.Serves steps (min (calls.count .next) (LexStep.tokens steps).length)
  length : answers.length = calls.length
  answered : ∀ place call, calls[place]? = some call →
    answers[place]? = some (Except.ok (LexStep.tokens steps)[(calls.take place).count .next + call.reach]?)
  taken : StreamCall.taken calls answers = (LexStep.tokens steps).take (calls.count .next)
  fetched : ∀ token, Except.ok (some token) ∈ answers → ∃ place, place < stream.scanned ∧
    (LexStep.tokens steps)[place]? = some token
  ahead : stream.scanned ≤ min (calls.count .next) (LexStep.tokens steps).length + (maxLookahead + 1)
  observed : stream.observedEnd = true ↔ ∃ pair ∈ calls.zip answers, pair.1.reach = 0 ∧ pair.2 = Except.ok none

private theorem ofText_follows {text : List Char} {last : Lexer} {limit : Nat}
    (collects : (Lexer.ofText 0 text).Collects steps last) (room : (LexStep.tokens steps).length ≤ limit) :
    (ofText text limit).Follows steps [] [] where
  serves := by
    rw [List.count_nil, Nat.zero_min]
    exact ofText_serves collects room
  length := rfl
  answered := nofun
  taken := rfl
  fetched := nofun
  ahead := Nat.zero_le _
  observed := ⟨nofun, fun ⟨_, mem, _⟩ => absurd mem List.not_mem_nil⟩

private theorem answered_concat {tokens : List Token} {calls : List StreamCall} {answers : List (Except ParseError (Option Token))}
    (length : answers.length = calls.length) (call : StreamCall) (answered : ∀ place other, calls[place]? = some other →
      answers[place]? = some (Except.ok tokens[(calls.take place).count .next + other.reach]?)) :
    ∀ place other, (calls ++ [call])[place]? = some other →
      (answers ++ [Except.ok tokens[calls.count .next + call.reach]?])[place]? =
        some (Except.ok tokens[((calls ++ [call]).take place).count .next + other.reach]?) := by
  intro place other there
  rcases Nat.lt_or_ge place calls.length with less | beyond
  · rw [List.getElem?_append_left less] at there
    rw [List.getElem?_append_left (length ▸ less), List.take_append_of_le_length (Nat.le_of_lt less)]
    exact answered place other there
  · rw [List.getElem?_append_right beyond] at there
    obtain ⟨rfl, isLast⟩ : call = other ∧ place = calls.length := by
      cases position : place - calls.length with
      | zero =>
        rw [position] at there
        exact ⟨Option.some.inj there, by omega⟩
      | succ => simp [position] at there
    subst isLast
    rw [List.getElem?_append_right (Nat.le_of_eq length), length, Nat.sub_self, List.take_left]
    rfl

private theorem taken_take {tokens : List Token} {calls : List StreamCall}
    {answers : List (Except ParseError (Option Token))} (length : answers.length = calls.length) (call : StreamCall)
    (taken : StreamCall.taken calls answers = tokens.take (calls.count .next)) :
    StreamCall.taken (calls ++ [call]) (answers ++ [Except.ok tokens[calls.count .next + call.reach]?]) =
      tokens.take (calls.count .next + [call].count .next) := by
  rw [StreamCall.taken_concat length, taken]
  cases call with
  | peek => exact List.append_nil _
  | next =>
    have oneMore : [StreamCall.next].count .next = 1 := rfl
    rw [oneMore, List.take_add_one, StreamCall.reach, Nat.add_zero]
    cases tokens[calls.count .next]? <;> rfl

/-- One more call is answered as the ones before. -/
theorem Follows.serve (lexes : origin.Lexes steps) {calls : List StreamCall}
    {answers : List (Except ParseError (Option Token))} (follows : stream.Follows steps calls answers)
    {call : StreamCall} (near : call.reach ≤ maxLookahead) :
    (stream.serve call).2.Follows steps (calls ++ [call]) (answers ++ [(stream.serve call).1]) := by
  obtain ⟨after, answered, serves, observed, scanned⟩ := follows.serves.serve lexes _ near
  -- Calls behind the last token take nothing, and yet they count in the place asked for; nothing stands at either
  -- place.
  have place : (LexStep.tokens steps)[min (calls.count .next) (LexStep.tokens steps).length + call.reach]? =
      (LexStep.tokens steps)[calls.count .next + call.reach]? := by
    by_cases within : calls.count .next ≤ (LexStep.tokens steps).length
    · rw [Nat.min_eq_left within]
    · rw [List.getElem?_eq_none (by omega), List.getElem?_eq_none (by omega)]
  rw [place] at answered observed
  rw [answered]
  dsimp only
  have count : (calls ++ [call]).count .next = calls.count .next + [call].count .next := List.count_append
  have ahead := follows.ahead
  have sofar := follows.length
  refine ⟨?_, ?_, ?_, ?_, fun token mem => ?_, ?_, observed.trans ?_⟩
  · have number : min ((calls ++ [call]).count .next) (LexStep.tokens steps).length =
        min (min (calls.count .next) (LexStep.tokens steps).length + [call].count .next)
          (LexStep.tokens steps).length := by omega
    rwa [number]
  · rw [List.length_append, List.length_append, sofar]
    rfl
  · exact answered_concat sofar call follows.answered
  · rw [count]
    exact taken_take sofar call follows.taken
  · rw [List.mem_append, List.mem_singleton] at mem
    rcases mem with earlier | isNow
    · obtain ⟨place, less, there⟩ := follows.fetched token earlier
      have := follows.serves.scanned
      exact ⟨place, by omega, there⟩
    · have there := (Except.ok.inj isNow).symm
      have less := (List.getElem?_eq_some_iff.mp there).1
      exact ⟨_, by omega, there⟩
  · rw [count]
    omega
  · rw [follows.observed, List.zip_append sofar.symm]
    simp [or_and_right, exists_or]

private theorem serveAll_follows (lexes : origin.Lexes steps) {before calls : List StreamCall}
    {answers : List (Except ParseError (Option Token))} (near : ∀ call ∈ calls, call.reach ≤ maxLookahead)
    (follows : stream.Follows steps before answers) :
    (serveAll calls stream).2.Follows steps (before ++ calls) (answers ++ (serveAll calls stream).1) := by
  induction calls generalizing stream before answers with
  | nil => simpa only [List.append_nil, serveAll] using follows
  | cons call calls ih =>
    have one := follows.serve lexes (near call List.mem_cons_self)
    have rest := ih (fun other mem => near other (List.mem_cons_of_mem _ mem)) one
    rwa [List.append_assoc, List.append_assoc] at rest

end

/-- While the budget has room for all tokens of a text that can be scanned, looking ahead changes nothing. Every call
answers with the token that stands so many places behind those taken before, and with nothing behind the last one. The
stream has fetched no more tokens than it needed for that, has seen the end exactly if a call for the next token has
found none, and has the lexer's own diagnostic for every illegal token that it has shown, and for no other one. -/
theorem serveAll_transparent {text : List Char} {steps : List LexStep} {limit : Nat} {calls : List StreamCall}
    {answers : List (Except ParseError (Option Token))} {stream : TokenStream}
    (collected : (Lexer.ofText 0 text).steps.1 = .ok steps) (room : (LexStep.tokens steps).length ≤ limit)
    (near : ∀ call ∈ calls, call.reach ≤ maxLookahead) (served : serveAll calls (ofText text limit) = (answers, stream)) :
    answers.length = calls.length ∧
      (∀ place call, calls[place]? = some call →
        answers[place]? = some (Except.ok (LexStep.tokens steps)[(calls.take place).count .next + call.reach]?)) ∧
      StreamCall.taken calls answers = (LexStep.tokens steps).take (calls.count .next) ∧
      stream.scanned ≤ (StreamCall.taken calls answers).length + (maxLookahead + 1) ∧
      (stream.observedEnd = true ↔ ∃ pair ∈ calls.zip answers, pair.1.reach = 0 ∧ pair.2 = Except.ok none) ∧
      ∀ step ∈ steps, ∀ token, step.token? = some token → Except.ok (some token) ∈ answers →
        (token.kind ≠ .illegal → stream.invalidDiagnostic? token = none) ∧
          (token.kind = .illegal →
            ∃ diagnostic, step = .invalid token diagnostic ∧ stream.invalidDiagnostic? token = some diagnostic) := by
  rcases isSteps : (Lexer.ofText 0 text).steps with ⟨result, last⟩
  obtain rfl : result = .ok steps := by rw [← collected, isSteps]
  have collects := Lexer.Collects.of_steps isSteps
  have follows := serveAll_follows collects.lexes near (ofText_follows collects room)
  rw [served, List.nil_append, List.nil_append] at follows
  refine ⟨follows.length, follows.answered, follows.taken, ?_, follows.observed, fun step mem token isToken shown => ?_⟩
  · rw [follows.taken, List.length_take]
    exact follows.ahead
  · exact follows.serves.explained collects.lexes mem isToken (follows.fetched token shown)

/-- The reader has looked at everything before it takes a name and `09`, which is no numeral. -/
theorem serveAll_transparent_illegal :
    ∃ steps answers stream, (Lexer.ofText 0 "a 09 ".toList).steps.1 = .ok steps ∧
      serveAll [.peek 3, .next, .peek 0, .next, .next] (ofText "a 09 ".toList 3) = (answers, stream) ∧
      StreamCall.taken [.peek 3, .next, .peek 0, .next, .next] answers =
      (LexStep.tokens steps).take 3 ∧ stream.scanned ≤ 7 := by
  obtain ⟨steps, last, collected, few⟩ :=
    @Lexer.steps_of_decide (Lexer.ofText 0 "a 09 ".toList)
      (fun steps => (LexStep.tokens steps).length ≤ 3) (by decide +kernel)
  have answered := @serveAll_transparent "a 09 ".toList steps 3 [.peek 3, .next, .peek 0, .next, .next] _ _
    (congrArg Prod.fst collected) (of_decide_eq_true few) (by decide) rfl
  refine ⟨steps, _, _, congrArg Prod.fst collected, rfl, answered.2.2.1, Nat.le_trans answered.2.2.2.1 ?_⟩
  rw [answered.2.2.1, List.length_take]
  exact Nat.add_le_add_right (Nat.min_le_left _ _) _

end TokenStream

end GoPrompt
