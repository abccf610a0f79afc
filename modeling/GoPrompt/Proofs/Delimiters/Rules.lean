import GoPrompt.Proofs.Parse.Run
import GoPrompt.Proofs.Stream.Visits

/-! Programs that match delimiters. The stream closes the innermost delimiter whatever closes it, so that its delimiters
are matched is due to the grammar. A program is judged by the openers that are unmatched before and behind it, and by
the kinds of the tokens that it has already looked at; wherever it fails, what has been consumed is matched. -/

namespace GoPrompt

open Parse

/-- Between two decisions of a parse: these openers are unmatched among the consumed tokens, and the tokens that have
been looked at begin with these kinds. -/
structure Faces (origin : TokenStream) (opened : List Operator) (kinds : List TokenKind)
    (state : ParseState) : Prop where
  visits : ∃ taken, origin.Visits taken state.stream ∧ unmatched [] (taken.map (·.kind)) = some opened
  ahead : kinds <+: state.stream.lookahead.map (·.kind)

/-- Where a parse fails: at a stream that it visits, or where it cannot look ahead. The consumed tokens are matched. -/
def Stopped (origin : TokenStream) (state : ParseState) : Prop :=
  ∃ taken point, origin.Visits taken point ∧ (unmatched [] (taken.map (·.kind))).isSome = true ∧
    (state.stream = point ∨ ∃ index, state.stream = (point.peek index).2)

variable {α β : Type}

/-- What a program makes of the unmatched openers. -/
def Matched (origin : TokenStream) (pre : ParseState → Prop) (program : Parse α)
    (post : α → ParseState → Prop) : Prop :=
  ∀ state, pre state → match program state with
    | .ok value after => post value after
    | .error _ after => Stopped origin after

/-- A program that closes what it opens, and nothing else. -/
def Balanced (origin : TokenStream) (program : Parse α) : Prop :=
  ∀ opened, Matched origin (Faces origin opened []) program fun _ => Faces origin opened []

variable {origin : TokenStream} {opened after : List Operator} {kinds later : List TokenKind} {kind : TokenKind}

namespace Faces

variable {state : ParseState}

theorem forget (faces : Faces origin opened kinds state) : Faces origin opened [] state :=
  ⟨faces.visits, List.nil_prefix⟩

theorem stopped (faces : Faces origin opened kinds state) : Stopped origin state := by
  obtain ⟨taken, visits, matched⟩ := faces.visits
  exact ⟨taken, _, visits, by rw [matched]; rfl, .inl rfl⟩

theorem congr {other : ParseState} (faces : Faces origin opened kinds state) (same : other.stream = state.stream) :
    Faces origin opened kinds other :=
  ⟨by simpa only [same] using faces.visits, by simpa only [same] using faces.ahead⟩

theorem noteEnd (faces : Faces origin opened kinds state) :
    Faces origin opened kinds { state with stream := state.stream.noteEnd } := by
  obtain ⟨taken, visits, matched⟩ := faces.visits
  exact ⟨⟨taken, visits.noteEnd, matched⟩, faces.ahead⟩

end Faces

namespace Matched

section sequences

variable {pre : ParseState → Prop} {program : Parse α} {middle post : α → ParseState → Prop}

theorem weaken {stronger : ParseState → Prop} {weaker : α → ParseState → Prop}
    (matched : Matched origin pre program post) (enter : ∀ state, stronger state → pre state)
    (leave : ∀ value state, post value state → weaker value state) :
    Matched origin stronger program weaker := by
  intro state holds
  have ran := matched state (enter state holds)
  cases result : program state with
  | ok value reached =>
    rw [result] at ran
    exact leave value reached ran
  | error failure reached =>
    rw [result] at ran
    exact ran

theorem forget (matched : Matched origin (Faces origin opened []) program post) :
    Matched origin (Faces origin opened kinds) program post :=
  matched.weaken (fun _ => Faces.forget) fun _ _ holds => holds

theorem pure {value : α} (holds : ∀ state, pre state → post value state) : Matched origin pre (Pure.pure value) post :=
  fun state entered => holds state entered

theorem done {value : α} :
    Matched origin (Faces origin opened kinds) (Pure.pure value) fun _ => Faces origin opened [] :=
  .pure fun _ => Faces.forget

theorem bind {next : α → Parse β} {last : β → ParseState → Prop} (matched : Matched origin pre program middle)
    (rest : ∀ value, Matched origin (middle value) (next value) last) : Matched origin pre (program >>= next) last := by
  intro state holds
  have ran := matched state holds
  cases result : program state with
  | ok value reached =>
    rw [result] at ran
    rw [bind_ok result]
    exact rest value reached ran
  | error failure reached =>
    rw [result] at ran
    rw [bind_error result]
    exact ran

theorem discard {last : ParseState → Prop} (matched : Matched origin pre program fun _ => last) :
    Matched origin pre (discard program) fun _ => last := matched.bind fun _ => .pure fun _ holds => holds

end sequences

end Matched

namespace Balanced

variable {program : Parse α}

theorem bind {next : α → Parse β} {last : β → ParseState → Prop} (balanced : Balanced origin program)
    (rest : ∀ value, Matched origin (Faces origin opened []) (next value) last) :
    Matched origin (Faces origin opened []) (program >>= next) last := (balanced opened).bind rest

theorem pure {value : α} : Balanced origin (Pure.pure value : Parse α) := fun _ => .done

theorem discard (balanced : Balanced origin program) : Balanced origin (discard program) :=
  fun opened => (balanced opened).discard

theorem map {change : α → β} (balanced : Balanced origin program) : Balanced origin (change <$> program) := fun _ =>
  balanced.bind fun _ => .done

theorem matched (balanced : Balanced origin program) :
    Matched origin (Faces origin opened kinds) program fun _ => Faces origin opened [] := (balanced opened).forget

end Balanced

namespace Matched

section failures

variable {post : α → ParseState → Prop} {expected : List String}

theorem throw {failure : Failure} :
    Matched origin (Faces origin opened kinds) (MonadExcept.throw failure : Parse α) post :=
  fun _ faces => faces.stopped

theorem endOfInput : Matched origin (Faces origin opened kinds) (Parse.endOfInput expected : Parse α) post :=
  fun _ faces => faces.stopped

theorem unexpected {token : Token} :
    Matched origin (Faces origin opened kinds) (Parse.unexpected token expected : Parse α) post := by
  intro state faces
  cases kind : token.kind with
  | semicolon from? =>
    cases from? with
    | endOfInput =>
      simp only [Parse.unexpected, kind]
      exact faces.noteEnd.stopped
    | explicit | newline =>
      simp only [Parse.unexpected, kind]
      exact faces.stopped
  | illegal =>
    simp only [Parse.unexpected, kind, bind_ok (show (get : Parse ParseState) state = .ok state state from rfl)]
    cases state.stream.invalidDiagnostic? token <;> exact faces.stopped
  | identifier | keyword | literal | operator =>
    simp only [Parse.unexpected, kind]
    exact faces.stopped

end failures

section decisions

variable {post : β → ParseState → Prop}

theorem peek {index : Nat} (behind : index = kinds.length) :
    Matched origin (Faces origin opened kinds) (Parse.peek index)
      fun found => Faces origin opened (kinds ++ (found.map (·.kind)).toList) := by
  intro state faces
  obtain ⟨taken, visits, matched⟩ := faces.visits
  rcases peeked : state.stream.peek index with ⟨answer, stream⟩
  cases answer with
  | error error =>
    rw [show Parse.peek index state = _ from onStream_error peeked]
    exact ⟨taken, _, visits, by rw [matched]; rfl, .inr ⟨index, by rw [peeked]⟩⟩
  | ok found =>
    rw [show Parse.peek index state = _ from onStream_ok peeked]
    refine ⟨⟨taken, visits.peek peeked, matched⟩, ?_⟩
    obtain ⟨further, there⟩ := TokenStream.peek_lookahead peeked
    obtain ⟨behind', ahead⟩ := faces.ahead.trans (further.map _)
    have there : found.map (·.kind) = behind'.head? := by
      rw [there, ← List.getElem?_map, ← ahead, behind, List.getElem?_append_right (Nat.le_refl _), Nat.sub_self,
        List.head?_eq_getElem?]
    rw [← ahead, there]
    cases behind' with
    | nil => simp
    | cons kind rest => exact ⟨rest, by simp⟩

theorem look_bind {next : Option Token → Parse β} (ended : Matched origin (Faces origin opened []) (next none) post)
    (found : ∀ token, Matched origin (Faces origin opened [token.kind]) (next (some token)) post) :
    Matched origin (Faces origin opened []) (Parse.peek 0 >>= next) post := by
  refine (peek rfl).bind fun one => ?_
  cases one with
  | none => exact ended
  | some token => exact found token

theorem kindAt_bind {index : Nat} (behind : index = kinds.length) {next : Option TokenKind → Parse β}
    (rest : ∀ kind : Option TokenKind, Matched origin (Faces origin opened (kinds ++ kind.toList)) (next kind) post) :
    Matched origin (Faces origin opened kinds) (peekKind index >>= next) post := by
  simp only [peekKind, bind_assoc, pure_bind]
  exact (peek behind).bind fun found => rest _

theorem kind_bind {next : Option TokenKind → Parse β}
    (rest : ∀ kind : Option TokenKind, Matched origin (Faces origin opened kind.toList) (next kind) post) :
    Matched origin (Faces origin opened []) (peekKind 0 >>= next) post := kindAt_bind rfl rest

theorem operatorAt_bind {index : Nat} (behind : index = kinds.length) {next : Option Operator → Parse β}
    (other : Matched origin (Faces origin opened kinds) (next none) post)
    (found : ∀ operator, Matched origin (Faces origin opened (kinds ++ [.operator operator])) (next (some operator)) post) :
    Matched origin (Faces origin opened kinds) (peekOperator index >>= next) post := by
  simp only [peekOperator, bind_assoc, pure_bind]
  refine (peek behind).bind fun one => ?_
  have shorter : ∀ behind, Matched origin (Faces origin opened (kinds ++ behind)) (next none) post := fun behind =>
    other.weaken (fun _ faces => ⟨faces.visits, (List.prefix_append _ _).trans faces.ahead⟩) fun _ _ holds => holds
  cases one with
  | none => exact shorter _
  | some token =>
    simp only [Option.bind_some, Token.operator?]
    cases isKind : token.kind with
    | operator operator =>
      simp only [Option.map_some, isKind, Option.toList_some]
      exact found operator
    | identifier | keyword | literal | semicolon | illegal => exact shorter _

theorem operator_bind {next : Option Operator → Parse β}
    (other : Matched origin (Faces origin opened []) (next none) post)
    (found : ∀ operator, Matched origin (Faces origin opened [.operator operator]) (next (some operator)) post) :
    Matched origin (Faces origin opened []) (peekOperator 0 >>= next) post := operatorAt_bind rfl other found

theorem atOperator_bind {operator : Operator} {next : Bool → Parse β}
    (yes : Matched origin (Faces origin opened [.operator operator]) (next true) post)
    (no : Matched origin (Faces origin opened []) (next false) post) :
    Matched origin (Faces origin opened []) (atOperator operator >>= next) post := by
  simp only [atOperator, bind_assoc, pure_bind]
  refine operator_bind no fun found => ?_
  by_cases same : found = operator
  · subst same
    simpa using yes
  · rw [beq_eq_false_iff_ne.mpr fun equal => same (Option.some.inj equal)]
    exact no.forget

theorem atKeyword_bind {keyword : Keyword} {next : Bool → Parse β}
    (yes : Matched origin (Faces origin opened [.keyword keyword]) (next true) post)
    (no : Matched origin (Faces origin opened []) (next false) post) :
    Matched origin (Faces origin opened []) (atKeyword keyword >>= next) post := by
  simp only [atKeyword, bind_assoc, pure_bind]
  refine kind_bind fun found => ?_
  by_cases same : found = some (.keyword keyword)
  · subst same
    simpa using yes
  · rw [beq_eq_false_iff_ne.mpr same]
    exact no.forget

theorem atSemicolon_bind {next : Bool → Parse β}
    (yes : ∀ written, Matched origin (Faces origin opened [.semicolon written]) (next true) post)
    (no : Matched origin (Faces origin opened []) (next false) post) :
    Matched origin (Faces origin opened []) (atSemicolon >>= next) post := by
  simp only [atSemicolon, bind_assoc, pure_bind]
  refine kind_bind fun found => ?_
  cases found with
  | none => exact no
  | some kind =>
    cases kind with
    | semicolon written => exact yes written
    | identifier | keyword | literal | operator | illegal => exact no.forget

theorem spanFrom_bind {pre : ParseState → Prop} {start : Span} {next : Span → Parse β}
    (rest : ∀ span, Matched origin pre (next span) post) : Matched origin pre (spanFrom start >>= next) post := by
  intro state holds
  rw [bind_ok (show spanFrom start state = .ok (start.merge state.lastSpan) state from rfl)]
  exact rest _ state holds

theorem bump (matched : matchNext opened kind = some after) :
    Matched origin (Faces origin opened (kind :: later)) Parse.bump fun _ => Faces origin after later := by
  intro state faces
  obtain ⟨behind, ahead⟩ := faces.ahead
  obtain ⟨front, rest, found, rfl, isLater⟩ := List.map_eq_cons_iff.mp (ahead.symm.trans (List.cons_append ..))
  have took := TokenStream.next_given found
  obtain ⟨taken, visits, before⟩ := faces.visits
  rw [bump_some took]
  refine ⟨⟨taken ++ [front], visits.next took, ?_⟩, behind, isLater.symm⟩
  rw [List.map_append, List.map_singleton]
  exact unmatched_concat before matched

theorem bump_bind {next : Unit → Parse β} (matched : matchNext opened kind = some after)
    (rest : Matched origin (Faces origin after later) (next ()) post) :
    Matched origin (Faces origin opened (kind :: later)) (Parse.bump >>= next) post :=
  (bump matched).bind fun () => rest

theorem pass_bind {next : Unit → Parse β} (plain : kind.isPlain = true)
    (rest : Matched origin (Faces origin opened later) (next ()) post) :
    Matched origin (Faces origin opened (kind :: later)) (Parse.bump >>= next) post :=
  bump_bind (matchNext_plain plain opened) rest

theorem pass (plain : kind.isPlain = true) :
    Matched origin (Faces origin opened (kind :: later)) Parse.bump fun _ => Faces origin opened [] :=
  (bump (matchNext_plain plain opened)).weaken (fun _ faces => faces) fun _ _ => Faces.forget

theorem open_bind {next : Unit → Parse β} {opener : Operator} (opens : opener.isOpener = true)
    (rest : Matched origin (Faces origin (opener :: opened) later) (next ()) post) :
    Matched origin (Faces origin opened (.operator opener :: later)) (Parse.bump >>= next) post :=
  bump_bind (matchNext_opener opens opened) rest

theorem expect {accepts : TokenKind → Bool} {expected : List String}
    (accepted : ∀ kind, accepts kind = true → matchNext opened kind = some after) :
    Matched origin (Faces origin opened []) (Parse.expect accepts expected) fun _ => Faces origin after [] := by
  refine look_bind endOfInput fun token => ?_
  dsimp only
  split
  next yes => exact bump (accepted token.kind yes)
  next => exact unexpected

theorem eatOperator_bind {operator : Operator} {next : Bool → Parse β}
    (matched : matchNext opened (.operator operator) = some after)
    (yes : Matched origin (Faces origin after []) (next true) post)
    (no : Matched origin (Faces origin opened []) (next false) post) :
    Matched origin (Faces origin opened []) (eatOperator operator >>= next) post := by
  simp only [eatOperator, bind_assoc]
  refine atOperator_bind ?_ ?_
  · simpa only [↓reduceIte, bind_assoc, pure_bind] using bump_bind matched yes
  · simpa using no

theorem rejectNext {expected : List String} :
    Matched origin (Faces origin opened kinds) (Parse.rejectNext expected) post :=
  forget (look_bind endOfInput fun _ => unexpected)

theorem beyondLimit {limit : Nat} : Matched origin (Faces origin opened kinds) (Grammar.beyondLimit limit) post := by
  have deeper : Matched origin (Faces origin opened kinds)
      (modify fun state => { state with depth := state.depth + 1 } : Parse PUnit) fun _ => Faces origin opened kinds :=
    fun _ faces => faces.congr rfl
  exact deeper.bind fun _ => forget ((peek rfl).bind fun _ => throw)

end decisions

section brackets

theorem expectOpen {opener : Operator} (opens : opener.isOpener = true) :
    Matched origin (Faces origin opened []) (expectOperator opener) fun _ => Faces origin (opener :: opened) [] :=
  expect fun kind accepted => by
    rw [eq_of_beq accepted]
    exact matchNext_opener opens opened

theorem expectClose {opener closer : Operator} (closes : opener.closer? = some closer) :
    Matched origin (Faces origin (opener :: opened) []) (expectOperator closer) fun _ => Faces origin opened [] :=
  expect fun kind accepted => by
    rw [eq_of_beq accepted]
    exact matchNext_closer closes opened

theorem between {opener closer : Operator} {program : Parse Unit} {next : Unit → Parse β} {post : β → ParseState → Prop}
    (closes : opener.closer? = some closer) (inside : Balanced origin program)
    (rest : Matched origin (Faces origin opened []) (next ()) post) :
    Matched origin (Faces origin (opener :: opened) []) (program >>= fun _ => expectOperator closer >>= next) post :=
  inside.bind fun _ => (expectClose closes).bind fun () => rest

end brackets

section loops

variable {turn : α → Parse (Turn α β)}

theorem iterate (turns : ∀ value, Matched origin (Faces origin opened []) (turn value) fun _ => Faces origin opened [])
    (value : α) :
    Matched origin (Faces origin opened []) (Parse.iterate turn value) fun _ => Faces origin opened [] := by
  intro state faces
  have ran := turns value state faces
  cases result : turn value state with
  | error failure reached =>
    rw [result] at ran
    rw [iterate_error result]
    exact ran
  | ok answer reached =>
    rw [result] at ran
    cases answer with
    | done found =>
      rw [iterate_done result]
      exact ran
    | again next =>
      by_cases progress : reached.remaining < state.remaining
      · rw [iterate_again result progress]
        exact iterate turns next reached ran
      · rw [iterate_stuck result progress]
        exact ran.stopped
termination_by state => state.remaining

end loops

end Matched

namespace Balanced

theorem iterate {turn : α → Parse (Turn α β)} (turns : ∀ value, Balanced origin (turn value)) (value : α) :
    Balanced origin (Parse.iterate turn value) := fun opened => .iterate (fun value => turns value opened) value

theorem repeatUntil {isDone : Parse Bool} (balanced : Balanced origin isDone) :
    Balanced origin (Parse.repeatUntil isDone) :=
  iterate (fun () _ => balanced.bind fun isDone => by cases isDone <;> exact .done) ()

theorem expect {accepts : TokenKind → Bool} {expected : List String}
    (plain : ∀ kind, accepts kind = true → kind.isPlain = true) :
    Balanced origin (Parse.expect accepts expected) := fun opened =>
  .expect fun kind accepted => matchNext_plain (plain kind accepted) opened

theorem expectOperator {operator : Operator} (plain : (TokenKind.operator operator).isPlain = true) :
    Balanced origin (Parse.expectOperator operator) := expect fun _ accepted => eq_of_beq accepted ▸ plain

theorem expectKeyword {keyword : Keyword} : Balanced origin (Parse.expectKeyword keyword) :=
  expect fun _ accepted => eq_of_beq accepted ▸ rfl

theorem expectName : Balanced origin Parse.expectName := expect fun _ accepted => eq_of_beq accepted ▸ rfl

theorem expectSemicolon {expected : List String} : Balanced origin (Parse.expectSemicolon expected) :=
  expect fun kind accepted => by
    cases kind with
    | semicolon => rfl
    | identifier | keyword | literal | operator | illegal => cases accepted

theorem eatOperator {operator : Operator} (plain : (TokenKind.operator operator).isPlain = true) :
    Balanced origin (Parse.eatOperator operator) := fun opened => by
  have eaten : Matched origin (Faces origin opened []) (Parse.eatOperator operator >>= Pure.pure) fun _ =>
      Faces origin opened [] :=
    .eatOperator_bind (matchNext_plain plain opened) .done .done
  simpa only [bind_pure] using eaten

end Balanced

end GoPrompt
