import GoPrompt.Proofs.Completion.Prospects

/-! The prospects of the steps that programs are made of, each in front of a known kind. -/

namespace GoPrompt

open Parse Grammar

theorem discard_bind {α β : Type} (program : Parse α) {next : Unit → Parse β} :
    (discard program >>= next) = program >>= fun _ => next () := bind_map_left _ _ _

section leads

variable {ι α β : Type} {kind : TokenKind} {kinds : List TokenKind}

theorem Leads.of_eq {κ : Type} {programs : Programs ι α} {others : Programs κ α}
    (same : ∀ deeper index, ∃ other, programs deeper index = others deeper other) :
    Leads programs kinds others kinds := by
  refine ⟨0, fun supply left index _ later state ahead => ?_⟩
  obtain ⟨other, same⟩ := same (levels supply.nesting left) index
  exact ⟨left, other, state, Nat.le_refl _, by rw [same], ahead⟩

theorem Leads.peek {next : Deeper → ι → Option Token → Parse β} :
    Leads (fun deeper index => Parse.peek 0 >>= next deeper index) (kind :: kinds)
      (fun deeper (pair : ι × { token : Token // token.kind = kind }) =>
        next deeper pair.1 (some pair.2)) (kind :: kinds) := by
  refine ⟨0, fun supply left index _ later state ahead => ?_⟩
  obtain ⟨found, reached, looked, ahead, same⟩ := ahead.peek (Nat.zero_le _)
  obtain ⟨token, rfl, isKind⟩ := Option.map_eq_some_iff.mp same
  exact ⟨left, (index, ⟨token, isKind⟩), reached, Nat.le_refl _, bind_ok looked, ahead⟩

theorem Leads.peekKind {place : Nat} {next : Deeper → ι → Option TokenKind → Parse β} (near : place ≤ maxLookahead)
    (there : kinds[place]? = some kind) :
    Leads (fun deeper index => Parse.peekKind place >>= next deeper index) kinds
      (fun deeper index => next deeper index (some kind)) kinds := by
  refine ⟨0, fun supply left index _ later state ahead => ?_⟩
  obtain ⟨found, reached, looked, ahead, same⟩ := ahead.peek near
  rw [List.getElem?_append_left (List.getElem?_eq_some_iff.mp there).1, there] at same
  have ran : Parse.peekKind place state = .ok (some kind) reached := by
    rw [← same]
    exact bind_ok looked
  exact ⟨left, index, reached, Nat.le_refl _, bind_ok ran, ahead⟩

theorem Leads.peekOperator {place : Nat} {next : Deeper → ι → Option Operator → Parse β} (near : place ≤ maxLookahead)
    (there : kinds[place]? = some kind) :
    Leads (fun deeper index => Parse.peekOperator place >>= next deeper index) kinds
      (fun deeper index => next deeper index kind.operator?) kinds := by
  refine ⟨0, fun supply left index _ later state ahead => ?_⟩
  obtain ⟨found, reached, looked, ahead, same⟩ := ahead.peek near
  rw [List.getElem?_append_left (List.getElem?_eq_some_iff.mp there).1, there] at same
  obtain ⟨token, rfl, rfl⟩ := Option.map_eq_some_iff.mp same
  have ran : Parse.peekOperator place state = .ok token.kind.operator? reached := bind_ok looked
  exact ⟨left, index, reached, Nat.le_refl _, bind_ok ran, ahead⟩

theorem Leads.bump {next : Deeper → ι → Unit → Parse β} :
    Leads (fun deeper index => Parse.bump >>= next deeper index) (kind :: kinds)
      (fun deeper index => next deeper index ()) kinds := by
  refine ⟨0, fun supply left index _ later state ahead => ?_⟩
  obtain ⟨reached, ran, ahead⟩ := ahead.bump
  exact ⟨left, index, reached, Nat.le_refl _, bind_ok ran, ahead⟩

theorem Leads.spanFrom {start : ι → Span} {next : Deeper → ι → Span → Parse β} :
    Leads (fun deeper index => Parse.spanFrom (start index) >>= next deeper index) kinds
      (fun deeper (pair : ι × Span) => next deeper pair.1 pair.2) kinds :=
  ⟨0, fun _ left index _ _ state ahead => ⟨left, (index, _), state, Nat.le_refl _, bind_ok rfl, ahead⟩⟩

theorem Leads.peekKind_cons {next : Deeper → ι → Option TokenKind → Parse β} :
    Leads (fun deeper index => Parse.peekKind 0 >>= next deeper index) (kind :: kinds)
      (fun deeper index => next deeper index (some kind)) (kind :: kinds) := .peekKind (Nat.zero_le _) rfl

theorem Leads.peekOperator_cons {next : Deeper → ι → Option Operator → Parse β} :
    Leads (fun deeper index => Parse.peekOperator 0 >>= next deeper index) (kind :: kinds)
      (fun deeper index => next deeper index kind.operator?) (kind :: kinds) := .peekOperator (Nat.zero_le _) rfl

theorem Leads.trans {κ μ : Type} {programs : Programs ι β} {others : Programs κ β} {last : Programs μ β}
    {rest rest' : List TokenKind} (leads : Leads programs kinds others rest) (later : Leads others rest last rest') :
    Leads programs kinds last rest' := by
  obtain ⟨level, leads⟩ := leads
  obtain ⟨level', later⟩ := later
  refine ⟨level + level', fun supply left index enough more state ahead => ?_⟩
  obtain ⟨below, other, reached, near, same, ahead⟩ := leads supply left index (by omega) more state ahead
  obtain ⟨lowest, final, after, near', same', ahead⟩ := later supply below other (by omega) more reached ahead
  exact ⟨lowest, final, after, by omega, same.trans same', ahead⟩

theorem Leads.atOperator_yes {operator : Operator} {next : Deeper → ι → Bool → Parse β} :
    Leads (fun deeper index => Parse.atOperator operator >>= next deeper index) (.operator operator :: kinds)
      (fun deeper index => next deeper index true) (.operator operator :: kinds) := by
  simp only [Parse.atOperator, bind_assoc, pure_bind]
  refine peekOperator_cons.trans (.of_eq fun deeper index => ⟨index, ?_⟩)
  exact congrArg _ (beq_self_eq_true _)

theorem Leads.atOperator_no {operator : Operator} {next : Deeper → ι → Bool → Parse β}
    (differs : kind ≠ .operator operator) :
    Leads (fun deeper index => Parse.atOperator operator >>= next deeper index) (kind :: kinds)
      (fun deeper index => next deeper index false) (kind :: kinds) := by
  have other : kind.operator? ≠ some operator := by
    intro isOperator
    cases kind <;> cases isOperator
    exact differs rfl
  simp only [Parse.atOperator, bind_assoc, pure_bind]
  refine peekOperator_cons.trans (.of_eq fun deeper index => ⟨index, ?_⟩)
  rw [beq_eq_false_iff_ne.mpr other]

theorem Leads.atKeyword_yes {keyword : Keyword} {next : Deeper → ι → Bool → Parse β} :
    Leads (fun deeper index => Parse.atKeyword keyword >>= next deeper index) (.keyword keyword :: kinds)
      (fun deeper index => next deeper index true) (.keyword keyword :: kinds) := by
  simp only [Parse.atKeyword, bind_assoc, pure_bind]
  refine peekKind_cons.trans (.of_eq fun deeper index => ⟨index, ?_⟩)
  exact congrArg _ (beq_self_eq_true _)

theorem Leads.atKeyword_no {keyword : Keyword} {next : Deeper → ι → Bool → Parse β} (differs : kind ≠ .keyword keyword) :
    Leads (fun deeper index => Parse.atKeyword keyword >>= next deeper index) (kind :: kinds)
      (fun deeper index => next deeper index false) (kind :: kinds) := by
  simp only [Parse.atKeyword, bind_assoc, pure_bind]
  refine peekKind_cons.trans (.of_eq fun deeper index => ⟨index, ?_⟩)
  rw [beq_eq_false_iff_ne.mpr fun same => differs (Option.some.inj same)]

theorem Leads.atSemicolon {next : Deeper → ι → Bool → Parse β} :
    Leads (fun deeper index => Parse.atSemicolon >>= next deeper index) (kind :: kinds)
      (fun deeper index => next deeper index (isSemicolon kind)) (kind :: kinds) := by
  simp only [Parse.atSemicolon, bind_assoc, pure_bind]
  exact peekKind_cons

theorem Leads.eatOperator_yes {operator : Operator} {next : Deeper → ι → Bool → Parse β} :
    Leads (fun deeper index => Parse.eatOperator operator >>= next deeper index) (.operator operator :: kinds)
      (fun deeper index => next deeper index true) kinds := by
  simp only [Parse.eatOperator, bind_assoc]
  refine atOperator_yes.trans ?_
  simp only [↓reduceIte, bind_assoc, pure_bind]
  exact bump

theorem Leads.eatOperator_no {operator : Operator} {next : Deeper → ι → Bool → Parse β}
    (differs : kind ≠ .operator operator) :
    Leads (fun deeper index => Parse.eatOperator operator >>= next deeper index) (kind :: kinds)
      (fun deeper index => next deeper index false) (kind :: kinds) := by
  simp only [Parse.eatOperator, bind_assoc]
  refine (atOperator_no differs).trans (.of_eq fun deeper index => ⟨index, ?_⟩)
  simp only [Bool.false_eq_true, ↓reduceIte, pure_bind]

theorem Leads.expect {accepts : TokenKind → Bool} {expected : List String} {next : Deeper → ι → Unit → Parse β}
    (accepted : accepts kind = true) :
    Leads (fun deeper index => Parse.expect accepts expected >>= next deeper index) (kind :: kinds)
      (fun deeper index => next deeper index ()) kinds := by
  refine ⟨0, fun supply left index _ later state ahead => ?_⟩
  have runs : Runs supply (kind :: (kinds ++ later)) (Parse.expect accepts expected) fun _ after =>
      after = kinds ++ later :=
    Runs.expect accepted rfl
  obtain ⟨value, reached, _, ran, ahead, rfl⟩ := runs state ahead
  exact ⟨left, index, reached, Nat.le_refl _, bind_ok ran, ahead⟩

theorem Leads.expectKeyword {keyword : Keyword} {next : Deeper → ι → Unit → Parse β} :
    Leads (fun deeper index => Parse.expectKeyword keyword >>= next deeper index) (.keyword keyword :: kinds)
      (fun deeper index => next deeper index ()) kinds := expect (beq_self_eq_true _)

theorem Leads.enter {programs others : Programs ι α}
    (enters : ∀ limit left index, programs (levels limit (left + 1)) index = others (levels limit left) index) :
    Leads programs kinds others kinds := by
  refine ⟨1, fun supply left index enough later state ahead => ?_⟩
  obtain ⟨below, rfl⟩ : ∃ below, left = below + 1 := ⟨left - 1, by omega⟩
  exact ⟨below, index, state, Nat.le_refl _, by rw [enters], ahead⟩

end leads

section refusals

variable {ι α : Type} {kind : TokenKind} {kinds : List TokenKind} {expected : List String}

theorem unexpected_rejected {token : Token} (written : token.kind ≠ .semicolon .endOfInput) (expected : List String)
    (state : ParseState) :
    ∃ error after, (unexpected token expected : Parse α) state = .error (.rejected error) after ∧
      (token.kind ≠ .illegal → error.kind = .unexpectedToken ∧ error.expected = expected) := by
  cases kind : token.kind with
  | illegal =>
    simp only [unexpected, kind, bind_ok (show (get : Parse ParseState) state = .ok state state from rfl)]
    cases state.stream.invalidDiagnostic? token with
    | none => exact ⟨_, _, rfl, fun legal => absurd rfl legal⟩
    | some => exact ⟨_, _, rfl, fun legal => absurd rfl legal⟩
  | semicolon origin =>
    cases origin with
    | endOfInput => exact absurd kind written
    | explicit | newline =>
      simp only [unexpected, kind]
      exact ⟨_, _, rfl, fun _ => ⟨rfl, rfl⟩⟩
  | identifier | keyword | literal | operator =>
    simp only [unexpected, kind]
    exact ⟨_, _, rfl, fun _ => ⟨rfl, rfl⟩⟩

theorem Refuses.unexpected {token : ι → Token} (isKind : ∀ index, (token index).kind = kind)
    (written : kind ≠ .semicolon .endOfInput) :
    Refuses (fun _ index => (Parse.unexpected (token index) expected : Parse α)) kinds fun _ => True := by
  refine ⟨0, fun supply left index _ rest state ahead => ?_⟩
  obtain ⟨error, after, failed, -⟩ := unexpected_rejected (α := α)
    (show (token index).kind ≠ _ from isKind index ▸ written) expected state
  exact ⟨error, after, failed, trivial⟩

theorem Refuses.rejectNext (written : kind ≠ .semicolon .endOfInput) (legal : kind ≠ .illegal) :
    Refuses (fun _ (_ : ι) => (Parse.rejectNext expected : Parse α)) (kind :: kinds)
      fun error => error.kind = .unexpectedToken ∧ error.expected = expected := by
  refine ⟨0, fun supply left index _ rest state ahead => ?_⟩
  obtain ⟨found, reached, looked, ahead, same⟩ := ahead.peek (Nat.zero_le _)
  obtain ⟨token, rfl, rfl⟩ := Option.map_eq_some_iff.mp same
  obtain ⟨error, after, failed, because⟩ := unexpected_rejected (α := α) written expected reached
  exact ⟨error, after, (bind_ok looked).trans failed, because legal⟩

end refusals

namespace Prospect

variable {ι α β : Type} [Alike α] [Alike β] {front kinds : List TokenKind} {kind : TokenKind}
  {programs others : Programs ι β} {ends : Bool → β → Prop} {stops : Option TokenKind → Bool} {cost : Nat}
  {expected : List String}

theorem congr (same : ∀ deeper index, programs deeper index = others deeper index)
    (later : Prospect front others ends stops cost kinds) : Prospect front programs ends stops cost kinds :=
  later.leave (.of_eq fun deeper index => ⟨index, same deeper index⟩) List.suffix_rfl

theorem answer {value : β} {values : ι → β} (isEnd : kinds = [] → ends true value)
    (alike : ∀ index, Alike.alike value (values index)) :
    Prospect front (fun _ index => Pure.pure (values index)) ends stops cost kinds :=
  .passes value kinds List.suffix_rfl isEnd ⟨0, fun _ _ index _ _ _ => Runs.pure ⟨rfl, alike index⟩⟩

theorem pure {value : β} {values : ι → β} (alike : ∀ index, Alike.alike value (values index)) :
    Prospect front (fun _ index => Pure.pure (values index)) (fun _ _ => True) stops cost kinds :=
  answer (fun _ => trivial) alike

theorem ite_pos {condition : Prop} [Decidable condition] (holds : condition)
    (later : Prospect front programs ends stops cost kinds) :
    Prospect front (fun deeper index => if condition then programs deeper index
      else others deeper index) ends stops cost kinds :=
  later.congr fun _ _ => if_pos holds

theorem ite_neg {condition : Prop} [Decidable condition] (fails : ¬ condition)
    (later : Prospect front others ends stops cost kinds) :
    Prospect front (fun deeper index => if condition then programs deeper index
      else others deeper index) ends stops cost kinds :=
  later.congr fun _ _ => if_neg fails

theorem enter (enters : ∀ limit left index, programs (levels limit (left + 1)) index = others (levels limit left) index)
    (later : Prospect front others ends stops cost kinds) : Prospect front programs ends stops cost kinds :=
  later.leave (.enter enters) List.suffix_rfl

theorem peek {next : Deeper → ι → Option Token → Parse β}
    (later : Prospect front (fun deeper (pair : ι × { token : Token // token.kind = kind }) => next deeper pair.1 (some pair.2))
      ends stops cost (kind :: kinds)) :
    Prospect front (fun deeper index => Parse.peek 0 >>= next deeper index) ends stops cost (kind :: kinds) :=
  later.leave .peek List.suffix_rfl

theorem peekKind {next : Deeper → ι → Option TokenKind → Parse β}
    (later : Prospect front (fun deeper index => next deeper index (some kind)) ends stops cost (kind :: kinds)) :
    Prospect front (fun deeper index => Parse.peekKind 0 >>= next deeper index) ends stops cost (kind :: kinds) :=
  later.leave (.peekKind (Nat.zero_le _) rfl) List.suffix_rfl

theorem peekKind_second {first : TokenKind} {next : Deeper → ι → Option TokenKind → Parse β}
    (later : Prospect front (fun deeper index => next deeper index (some kind)) ends stops cost (first :: kind :: kinds)) :
    Prospect front (fun deeper index => Parse.peekKind 1 >>= next deeper index) ends stops cost (first :: kind :: kinds) :=
  later.leave (.peekKind (by decide) rfl) List.suffix_rfl

theorem peekOperator {next : Deeper → ι → Option Operator → Parse β}
    (later : Prospect front (fun deeper index => next deeper index kind.operator?) ends stops cost (kind :: kinds)) :
    Prospect front (fun deeper index => Parse.peekOperator 0 >>= next deeper index) ends stops cost (kind :: kinds) :=
  later.leave (.peekOperator (Nat.zero_le _) rfl) List.suffix_rfl

theorem peekOperator_second {first : TokenKind} {next : Deeper → ι → Option Operator → Parse β}
    (later : Prospect front (fun deeper index => next deeper index kind.operator?) ends stops cost (first :: kind :: kinds)) :
    Prospect front (fun deeper index => Parse.peekOperator 1 >>= next deeper index) ends stops cost (first :: kind :: kinds) :=
  later.leave (.peekOperator (by decide) rfl) List.suffix_rfl

theorem bump_last : Prospect front (fun _ (_ : ι) => Parse.bump) (fun _ _ => True) stops cost (kind :: kinds) :=
  .passes () kinds (List.suffix_cons kind kinds) (fun _ => trivial) ⟨0, fun _ _ _ _ _ _ => Runs.bump ⟨rfl, rfl⟩⟩

theorem spanFrom {start : ι → Span} {next : Deeper → ι → Span → Parse β}
    (later : Prospect front (fun deeper (pair : ι × Span) => next deeper pair.1 pair.2) ends stops cost kinds) :
    Prospect front (fun deeper index => Parse.spanFrom (start index) >>= next deeper index) ends stops cost kinds :=
  later.leave .spanFrom List.suffix_rfl

theorem unexpected {token : ι → Token} (isKind : ∀ index, (token index).kind = kind) :
    Prospect front (fun _ index => (Parse.unexpected (token index) expected : Parse β)) ends stops
      cost (kind :: kinds) := by
  by_cases inserted : kind = .semicolon .endOfInput
  · exact .unwritten (inserted ▸ List.mem_cons_self)
  · exact .refuses (.unexpected isKind inserted)

theorem rejectNext :
    Prospect front (fun _ (_ : ι) => (Parse.rejectNext expected : Parse β)) ends stops cost (kind :: kinds) :=
  peek (unexpected fun pair => pair.2.2)

omit [Alike α] in
theorem rejectNext_bind {next : Deeper → ι → α → Parse β} :
    Prospect front (fun deeper index => Parse.rejectNext expected >>= next deeper index) ends stops
      cost (kind :: kinds) := by
  by_cases inserted : kind = .semicolon .endOfInput
  · exact .unwritten (inserted ▸ List.mem_cons_self)
  · have refuses : Refuses (fun _ (_ : ι) => (Parse.rejectNext expected : Parse α)) (kind :: kinds) fun _ => True :=
      Leads.peek.refuses (.unexpected (fun pair => pair.2.2) inserted)
    exact .refuses refuses.bind

private theorem consume {κ : Type} {others : Programs κ β} (leads : Leads programs (kind :: kinds) others kinds)
    (later : Prospect front others ends stops (share + cost) kinds) :
    Prospect front programs ends stops cost (kind :: kinds) := by
  have suffix := List.suffix_cons kind kinds
  refine later.lead leads suffix (·.mono suffix) ?_
  rw [List.length_cons, Nat.mul_succ]
  omega

theorem bump {next : Deeper → ι → Unit → Parse β}
    (later : Prospect front (fun deeper index => next deeper index ()) ends stops (share + cost) kinds) :
    Prospect front (fun deeper index => Parse.bump >>= next deeper index) ends stops cost (kind :: kinds) :=
  later.consume .bump

theorem expect {accepts : TokenKind → Bool} {next : Deeper → ι → Unit → Parse β}
    (later : accepts kind = true → Prospect front (fun deeper index => next deeper index ()) ends stops (share + cost) kinds) :
    Prospect front (fun deeper index => Parse.expect accepts expected >>= next deeper index) ends stops cost (kind :: kinds) := by
  simp only [Parse.expect, bind_assoc]
  refine peek ?_
  by_cases accepted : accepts kind = true
  · have accepts : ∀ pair : ι × { token : Token // token.kind = kind }, accepts pair.2.1.kind = true := fun pair => by
      rw [pair.2.2, accepted]
    simp only [accepts, ↓reduceIte]
    exact bump ((later accepted).leave (.of_eq fun _ pair => ⟨pair.1, rfl⟩) List.suffix_rfl)
  · have rejects : ∀ pair : ι × { token : Token // token.kind = kind }, accepts pair.2.1.kind = false := fun pair => by
      rw [pair.2.2, Bool.eq_false_iff.mpr accepted]
    simp only [rejects, Bool.false_eq_true, ↓reduceIte]
    by_cases inserted : kind = .semicolon .endOfInput
    · exact .unwritten (inserted ▸ List.mem_cons_self)
    · exact .refuses (Refuses.bind (.unexpected (fun pair => pair.2.2) inserted))

theorem expect_front {accepts : TokenKind → Bool} {next : Deeper → ι → Unit → Parse β} (accepted : accepts kind = true)
    (later : Prospect (front ++ [kind]) (fun deeper index => next deeper index ()) ends stops (share + cost) kinds) :
    Prospect front (fun deeper index => Parse.expect accepts expected >>= next deeper index) ends stops
      cost (kind :: kinds) := by
  refine later.lead (.expect accepted) (List.suffix_cons kind kinds) (fun decided => ?_) ?_
  · rwa [List.append_assoc] at decided
  · rw [List.length_cons, Nat.mul_succ]
    omega

theorem atOperator {operator : Operator} {next : Deeper → ι → Bool → Parse β}
    (there : kind = .operator operator → Prospect front (fun deeper index => next deeper index true) ends stops cost (kind :: kinds))
    (elsewhere : kind ≠ .operator operator →
      Prospect front (fun deeper index => next deeper index false) ends stops cost (kind :: kinds)) :
    Prospect front (fun deeper index => Parse.atOperator operator >>= next deeper index) ends stops cost (kind :: kinds) := by
  by_cases same : kind = .operator operator
  · have later := there same
    rw [same] at later ⊢
    exact later.leave .atOperator_yes List.suffix_rfl
  · exact (elsewhere same).leave (.atOperator_no same) List.suffix_rfl

theorem atKeyword {keyword : Keyword} {next : Deeper → ι → Bool → Parse β}
    (there : kind = .keyword keyword → Prospect front (fun deeper index => next deeper index true) ends stops cost (kind :: kinds))
    (elsewhere : kind ≠ .keyword keyword →
      Prospect front (fun deeper index => next deeper index false) ends stops cost (kind :: kinds)) :
    Prospect front (fun deeper index => Parse.atKeyword keyword >>= next deeper index) ends stops cost (kind :: kinds) := by
  by_cases same : kind = .keyword keyword
  · have later := there same
    rw [same] at later ⊢
    exact later.leave .atKeyword_yes List.suffix_rfl
  · exact (elsewhere same).leave (.atKeyword_no same) List.suffix_rfl

theorem atSemicolon {next : Deeper → ι → Bool → Parse β}
    (later : Prospect front (fun deeper index => next deeper index (isSemicolon kind)) ends stops cost (kind :: kinds)) :
    Prospect front (fun deeper index => Parse.atSemicolon >>= next deeper index) ends stops cost (kind :: kinds) :=
  later.leave .atSemicolon List.suffix_rfl

theorem eatOperator {operator : Operator} {next : Deeper → ι → Bool → Parse β}
    (eaten : kind = .operator operator →
      Prospect front (fun deeper index => next deeper index true) ends stops (share + cost) kinds)
    (elsewhere : kind ≠ .operator operator →
      Prospect front (fun deeper index => next deeper index false) ends stops cost (kind :: kinds)) :
    Prospect front (fun deeper index => Parse.eatOperator operator >>= next deeper index) ends stops
      cost (kind :: kinds) := by
  by_cases same : kind = .operator operator
  · rw [same]
    exact (eaten same).consume .eatOperator_yes
  · exact (elsewhere same).leave (.eatOperator_no same) List.suffix_rfl

end Prospect

end GoPrompt
