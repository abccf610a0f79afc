import GoPrompt.Proofs.Coupled.Statements
import GoPrompt.Proofs.Runs.Front
import GoPrompt.Proofs.Runs.Parallel
import GoPrompt.Proofs.Runs.Recovery
import GoPrompt.Proofs.Stream.Twins

/-! Runs over two texts whose lexers are in step. The grammar asks its tokens for nothing but their kinds, so both runs
do the same to the end, and when they fail they fail for the same reason. -/

namespace GoPrompt

open Parse

/-- States with twin streams and as much of the depth in use. -/
structure ParseState.Twin (beyond : Prop) (own number : Nat) (first second : ParseState) : Prop where
  stream : first.stream.Twin beyond own number second.stream
  depth : first.depth = second.depth

/-- Runs that have failed for the same reason, in twin states unless a lexer has failed. -/
inductive FailTwins (beyond : Prop) (own : Nat) : Failure → ParseState → Failure → ParseState → Prop
  | wanted {error error' : ParseError} {number : Nat} {before after : ParseState}
      (same : error.outline = error'.outline) (twin : before.Twin beyond own number after) :
      FailTwins beyond own (.needMoreInput error) before (.needMoreInput error') after
  | rejected {error error' : ParseError} {before after : ParseState} (same : error.outline = error'.outline)
      (twin : (error.StopsScan → beyond) → ∃ number, before.Twin beyond own number after) :
      FailTwins beyond own (.rejected error) before (.rejected error') after

namespace Coupling

/-- Runs over two texts whose lexers are in step. -/
def twins (beyond : Prop) (own : Nat) : Coupling where
  marks number first second := first.Twin beyond own number second
  settled number first second := first.Twin beyond own number second
  seen number one other first second := first.Twin beyond own number second ∧
    first.stream.lookahead.head? = one ∧ second.stream.lookahead.head? = other
  window number one other next later first second := (first.Twin beyond own number second ∧ one.kind = .identifier) ∧
    (first.stream.lookahead.head? = some one ∧ second.stream.lookahead.head? = some other) ∧
      first.stream.lookahead[1]? = next ∧ second.stream.lookahead[1]? = later
  gone _ := False
  excused _ _ := False
  free := False
  stray _ _ := False
  fails := FailTwins beyond own

variable {beyond : Prop} {own number : Nat} {before after : ParseState} {one other : Token} {α : Type} [Alike α]

private theorem twins_coupled {pre : ParseState → ParseState → Prop} {first second : Parse α}
    {post : α → α → ParseState → ParseState → Prop}
    (runs : ∀ before after, pre before after → (twins beyond own).Matches post (first before) (second after)) :
    (twins beyond own).Coupled pre first second post :=
  ⟨fun _ gone => gone.elim, fun before after holds => .inr (runs before after holds)⟩

private theorem twins_onStream {operation : TokenStream → Except ParseError α × TokenStream}
    {meeting : α → α → TokenStream → TokenStream → Prop} {post : α → α → ParseState → ParseState → Prop}
    (depth : before.depth = after.depth)
    (meets : TokenStream.Meets beyond own meeting (operation before.stream) (operation after.stream))
    (leave : ∀ value value' reached reached', operation before.stream = (.ok value, reached) →
      operation after.stream = (.ok value', reached') → meeting value value' reached reached' →
        Alike.alike value value' ∧ post value value' { before with stream := reached } { after with stream := reached' }) :
    (twins beyond own).Matches post (onStream operation before) (onStream operation after) := by
  rcases ran : operation before.stream with ⟨result, reached⟩
  rcases ran' : operation after.stream with ⟨result', reached'⟩
  rw [ran, ran'] at meets
  cases meets with
  | ok holds =>
    rw [onStream_ok ran, onStream_ok ran']
    exact leave _ _ _ _ ran ran' holds
  | error same twin =>
    rw [onStream_error ran, onStream_error ran']
    exact .rejected same fun goesOn => (twin goesOn).imp fun _ twin => ⟨twin, depth⟩

theorem twins_matches {first second : EStateM.Result Failure ParseState α} {post : α → α → ParseState → ParseState → Prop}
    (outcome : ((twins beyond own).Lost first ∧ (twins beyond own).Strays second) ∨ (twins beyond own).Matches post first second) :
    (twins beyond own).Matches post first second :=
  outcome.resolve_left fun left => by cases first <;> exact left.1

private theorem twins_bump (twin : before.Twin beyond own number after)
    (front : before.stream.lookahead.head? = some one) (front' : after.stream.lookahead.head? = some other) :
    ∃ reached reached', bump before = .ok () reached ∧ bump after = .ok () reached' ∧
    reached.Twin beyond own (number + 1) reached' ∧
      reached.stream.lookahead.head? = before.stream.lookahead[1]? ∧
      reached'.stream.lookahead.head? = after.stream.lookahead[1]? := by
  obtain ⟨later, ahead⟩ := List.head?_eq_some_iff.mp front
  obtain ⟨later', ahead'⟩ := List.head?_eq_some_iff.mp front'
  obtain ⟨_, _, took, took', taken, rfl, rfl⟩ := twin.stream.take ahead ahead'
  refine ⟨_, _, bump_some took, bump_some took', ⟨taken, twin.depth⟩, ?_, ?_⟩
  · rw [ahead, List.getElem?_cons_succ, List.head?_eq_getElem?]
  · rw [ahead', List.getElem?_cons_succ, List.head?_eq_getElem?]

private theorem twins_kind (twin : before.Twin beyond own number after)
    (front : before.stream.lookahead.head? = some one) (front' : after.stream.lookahead.head? = some other) :
    one.kind = other.kind := by
  have kinds := twin.stream.kind_at 0
  rw [← List.head?_eq_getElem?, ← List.head?_eq_getElem?, front, front'] at kinds
  exact Option.some.inj kinds

theorem twins_look (number : Nat) : (twins beyond own).Coupled ((twins beyond own).settled number) (peek 0) (peek 0)
    ((twins beyond own).seen number) := twins_coupled fun before after twin => by
  refine twins_onStream twin.depth (twin.stream.peek 0)
    fun found found' reached reached' _ _ ⟨peeked, there, there'⟩ => ?_
  refine ⟨alike_of_kinds ?_, ⟨peeked, twin.depth⟩, ?_, ?_⟩
  · rw [← there, ← there']
    exact peeked.kind_at 0
  · exact List.head?_eq_getElem?.trans there
  · exact List.head?_eq_getElem?.trans there'

private theorem twins_reject (expected : List String) (twin : before.Twin beyond own number after)
    (front : before.stream.lookahead.head? = some one) (front' : after.stream.lookahead.head? = some other)
    (post : α → α → ParseState → ParseState → Prop) :
    (twins beyond own).Matches post ((unexpected one expected : Parse α) before) (unexpected other expected after) := by
  have same := (twins_kind twin front front').symm
  cases kind : one.kind with
  | semicolon origin =>
    rw [kind] at same
    cases origin with
    | endOfInput =>
      simp only [unexpected, kind, same]
      exact .wanted rfl ⟨twin.stream.noteEnd, twin.depth⟩
    | explicit | newline =>
      simp only [unexpected, kind, same]
      exact .rejected rfl fun _ => ⟨number, twin⟩
  | illegal =>
    rw [kind] at same
    obtain ⟨diagnostic, known⟩ := Option.isSome_iff_exists.mp (twin.stream.explains one (List.mem_of_head? front) kind)
    obtain ⟨diagnostic', known'⟩ :=
      Option.isSome_iff_exists.mp (twin.stream.explains' other (List.mem_of_head? front') same)
    have got : ∀ state, (get : Parse ParseState) state = .ok state state := fun _ => rfl
    simp only [unexpected, kind, same, bind_ok (got before), bind_ok (got after), known, known']
    exact .rejected rfl fun _ => ⟨number, twin⟩
  | identifier | keyword | literal | operator =>
    rw [kind] at same
    simp only [unexpected, kind, same]
    exact .rejected rfl fun _ => ⟨number, twin⟩

private theorem twins_stop (number limit : Nat) : (twins beyond own).Coupled ((twins beyond own).marks number)
    (Grammar.beyondLimit limit : Parse α) (Grammar.beyondLimit limit) (fun _ _ _ _ => False) :=
  twins_coupled fun before after twin => by
  let fail (token : Option Token) : Parse α := throw (.rejected (.nestingLimitExceeded limit (token.map (·.span))))
  have fails : ∀ token token',
    (twins beyond own).Coupled ((twins beyond own).seen number token token') (fail token) (fail token')
      fun _ _ _ _ => False := fun _ _ => twins_coupled fun _ _ seen => .rejected rfl fun _ => ⟨number, seen.1⟩
  have stops := (twins_look number).bind fun token token' _ => fails token token'
  exact twins_matches (stops.outcome { before with depth := before.depth + 1 } { after with depth := after.depth + 1 }
    ⟨twin.stream, congrArg (· + 1) twin.depth⟩)

theorem twins_lawful (beyond : Prop) (own : Nat) : (twins beyond own).Lawful where
  excuse _ gone := gone.elim
  settled_marks twin := twin
  window_marks window := window.1.1
  progress := by
    rintro number reached first second before after twin twin' further
    have within := Nat.le_trans twin'.stream.counted.number_le twin'.stream.counted.within
    simp only [ParseState.remaining, twin.stream.remaining, twin'.stream.remaining]
    omega
  seen_settled seen := seen.1
  look number := twins_look number
  take number one other _ _ := twins_coupled fun before after ⟨twin, front, front'⟩ => by
    obtain ⟨reached, reached', taken, taken', twin', -⟩ := twins_bump twin front front'
    rw [taken, taken']
    exact ⟨rfl, twin'⟩
  reject number one other expected _ := twins_coupled fun before after ⟨twin, front, front'⟩ =>
    twins_reject expected twin front front' _
  lose literal illegal seen := by cases (literal.symm.trans (twins_kind seen.1 seen.2.1 seen.2.2)).trans illegal
  spoil _ literal illegal seen := by cases (literal.symm.trans (twins_kind seen.1 seen.2.1 seen.2.2)).trans illegal
  loose literal illegal seen := by cases (literal.symm.trans (twins_kind seen.1 seen.2.1 seen.2.2)).trans illegal
  ended number expected := twins_coupled fun before after seen => .wanted rfl seen.1
  stop number limit := twins_stop number limit
  lookBeyond number one other named _ := twins_coupled fun before after ⟨twin, front, front'⟩ => by
    refine twins_onStream twin.depth (twin.stream.peek 1) fun found found' reached reached' ran ran' met => ?_
    obtain ⟨peeked, there, there'⟩ := met
    refine ⟨alike_of_kinds ?_, ⟨⟨peeked, twin.depth⟩, named⟩, ⟨?_, ?_⟩, there, there'⟩
    · rw [← there, ← there']
      exact peeked.kind_at 1
    · have kept := TokenStream.peek_keeps_front 1 front
      rwa [ran] at kept
    · have kept := TokenStream.peek_keeps_front 1 front'
      rwa [ran'] at kept
  lookInWindow window :=
    ⟨onStream_ok (TokenStream.peek_front window.2.1.1), onStream_ok (TokenStream.peek_front window.2.1.2)⟩
  takeInWindow number one other next later := twins_coupled fun before after ⟨⟨twin, _⟩, ⟨front, front'⟩, _⟩ => by
    obtain ⟨reached, reached', taken, taken', twin', -⟩ := twins_bump twin front front'
    rw [taken, taken']
    exact ⟨rfl, twin'⟩
  takeBoth number one other next later :=
      twins_coupled fun before after ⟨⟨twin, _⟩, ⟨front, front'⟩, there, there'⟩ => by
    obtain ⟨reached, reached', taken, taken', twin', ahead, ahead'⟩ := twins_bump twin front front'
    rw [taken, taken']
    exact ⟨rfl, twin', ahead.trans there, ahead'.trans there'⟩
  loseBeyond literal illegal window := by
    obtain ⟨⟨twin, -⟩, -, there, there'⟩ := window
    have kinds := twin.stream.kind_at 1
    rw [there, there'] at kinds
    cases (literal.symm.trans (Option.some.inj kinds)).trans illegal

end Coupling

instance : Alike Nat := .ofEq Nat
instance : Alike Grammar.SyncStop := .ofEq Grammar.SyncStop

namespace Grammar

variable {beyond : Prop} {own : Nat}

private theorem skipNext_twins (number depth : Nat) :
    (Coupling.twins beyond own).Coupled ((Coupling.twins beyond own).after number)
    (skipNext depth) (skipNext depth) ((Coupling.twins beyond own).turned number) := by
  have took : (Coupling.twins beyond own).Coupled ((Coupling.twins beyond own).after number)
      (onStream TokenStream.next) (onStream TokenStream.next)
      (fun found found' reached reached' => found.map (·.kind) = found'.map (·.kind) ∧
        ∃ place, number ≤ place ∧ reached.Twin beyond own (place + found.toList.length) reached') := by
    refine Coupling.twins_coupled fun before after ⟨place, far, twin⟩ => ?_
    refine Coupling.twins_onStream twin.depth twin.stream.next fun found found' _ _ _ _ ⟨kinds, taken⟩ => ?_
    exact ⟨Coupling.alike_of_kinds kinds, kinds, place, far, taken, twin.depth⟩
  refine took.bind fun found found' alike => ?_
  cases found with
  | none =>
    cases found' with
    | some => exact alike.elim
    | none => exact .pure rfl fun _ _ ⟨_, place, far, twin⟩ => ⟨place, far, twin⟩
  | some token =>
    cases found' with
    | none => exact alike.elim
    | some token' =>
      refine Coupling.twins_coupled fun before after ⟨kinds, place, far, twin⟩ => ?_
      show (Coupling.twins beyond own).Matches _ (.ok (skip depth token.kind) before)
        (.ok (skip depth token'.kind) after)
      rw [show token.kind = token'.kind from Option.some.inj kinds]
      refine ⟨Alike.refl _, ?_⟩
      cases skip depth token'.kind with
      | done => exact ⟨place + 1, Nat.le_succ_of_le far, twin⟩
      | again => exact ⟨place + 1, Nat.succ_le_succ far, twin⟩

theorem synchronize_twins : (Coupling.twins beyond own).Steady synchronize synchronize := by
  rw [synchronize_eq]
  refine (Coupling.twins_lawful beyond own).iterate (fun number depth depth' same => ?_) rfl
  cases same
  exact skipNext_twins number depth

end Grammar

end GoPrompt
