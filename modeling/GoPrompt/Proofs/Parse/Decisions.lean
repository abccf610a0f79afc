import GoPrompt.Proofs.Parse.Coupling

/-! The decisions that the grammar takes on the next token, for two coupled runs. Both runs decide
alike, and a token is consumed only after it has been looked at and found to be one. -/

namespace GoPrompt.Coupling

open Parse

variable {C : Coupling} {α β : Type} [Alike α] [Alike β] {number : Nat}
  {post : β → β → ParseState → ParseState → Prop}

/-- The next token has been looked at, and the kind that the second run has found is known. -/
def afterKind (C : Coupling) (number : Nat) (kind : Option TokenKind) (first second : ParseState) : Prop :=
  ∃ one other : Option Token, Alike.alike one other ∧ Option.map Token.kind other = kind ∧
    C.afterSeen number one other first second

/-- The next token is a name, and the kind of what follows it is known, too. -/
def afterName (C : Coupling) (number : Nat) (following : Option TokenKind) (first second : ParseState) : Prop :=
  ∃ (reached : Nat) (one other : Token) (next later : Option Token), number ≤ reached ∧ one.kind = .identifier ∧
    other.kind = .identifier ∧ Alike.alike next later ∧ Option.map Token.kind later = following ∧
    C.window reached one other next later first second

/-- The next token is a name, and behind it the second run has found a spoilt literal. -/
def afterSpoilt (C : Coupling) (number : Nat) (kind : LiteralKind) (first second : ParseState) : Prop :=
  ∃ (reached : Nat) (one other next later : Token), number ≤ reached ∧ one.kind = .identifier ∧
    other.kind = .identifier ∧
    next.kind = .literal kind ∧ later.kind = .illegal ∧ C.window reached one other (some next) (some later) first second

/-- A decision on the next token that does not tell kinds apart which resemble each other. -/
abbrev Blind {γ : Type} (decision : Option TokenKind → γ) : Prop := TokenKind.Blind fun kind => decision (some kind)

namespace Lawful

variable (lawful : C.Lawful)
include lawful

private theorem afterSeen_after {one other : Option Token} {first second : ParseState}
    (holds : C.afterSeen number one other first second) : C.after number first second := by
  obtain ⟨reached, far, seen⟩ := holds
  exact ⟨reached, far, lawful.seen_settled seen⟩

theorem afterKind_after {kind : Option TokenKind} {first second : ParseState}
    (holds : C.afterKind number kind first second) : C.after number first second := by
  obtain ⟨one, other, -, -, seen⟩ := holds
  exact lawful.afterSeen_after seen

theorem forget {kind : Option TokenKind} {first second : Parse β}
    (coupled : C.Coupled (C.after number) first second post) :
    C.Coupled (C.afterKind number kind) first second post :=
  coupled.weaken (fun _ _ => lawful.afterKind_after) fun _ _ _ _ _ holds => holds

theorem forgetSeen {one other : Option Token} {first second : Parse β}
    (coupled : C.Coupled (C.after number) first second post) :
    C.Coupled (C.afterSeen number one other) first second post :=
  coupled.weaken (fun _ _ => lawful.afterSeen_after) fun _ _ _ _ _ holds => holds

omit lawful in
theorem of_settled {first second : Parse β}
    (coupled : ∀ reached, number ≤ reached → C.Coupled (C.settled reached) first second post) :
    C.Coupled (C.after number) first second post := by
  refine ⟨(coupled number (Nat.le_refl _)).keeps, ?_⟩
  rintro before after ⟨reached, far, settled⟩
  exact (coupled reached far).outcome before after settled

omit lawful in
private theorem of_seen {one other : Option Token} {first second : Parse β}
    (coupled : ∀ reached, number ≤ reached → C.Coupled (C.seen reached one other) first second post) :
    C.Coupled (C.afterSeen number one other) first second post := by
  refine ⟨(coupled number (Nat.le_refl _)).keeps, ?_⟩
  rintro before after ⟨reached, far, seen⟩
  exact (coupled reached far).outcome before after seen

private theorem peek_after : C.Coupled (C.after number) (peek 0) (peek 0) (C.afterSeen number) :=
  of_settled fun reached far => (lawful.look reached).weaken (fun _ _ holds => holds)
    fun _ _ _ _ _ holds => ⟨reached, far, holds⟩

theorem look_bind {next later : Option Token → Parse β}
    (ended : C.Coupled (C.afterSeen number none none) (next none) (later none) post)
    (found : ∀ one other : Token, one.kind.Resembles other.kind →
      C.Coupled (C.afterSeen number (some one) (some other)) (next (some one)) (later (some other)) post) :
    C.Coupled (C.after number) (peek 0 >>= next) (peek 0 >>= later) post := by
  refine lawful.peek_after.bind fun one other same => ?_
  cases one with
  | none =>
    cases other with
    | none => exact ended
    | some other => cases same
  | some one =>
    cases other with
    | none => cases same
    | some other => exact found one other same

omit lawful [Alike β] in
theorem peekKind_bind (index : Nat) (next : Option TokenKind → Parse β) :
    peekKind index >>= next = peek index >>= fun found => next (found.map Token.kind) := by
  simp only [peekKind, bind_assoc, pure_bind]

theorem kind_bind {next later : Option TokenKind → Parse β}
    (blind : Blind next)
    (cases : ∀ kind, C.Coupled (C.afterKind number kind) (next kind) (later kind) post) :
    C.Coupled (C.after number) (peekKind 0 >>= next) (peekKind 0 >>= later) post := by
  rw [peekKind_bind, peekKind_bind]
  refine lawful.peek_after.bind fun one other same => ?_
  have decided : next (one.map Token.kind) = next (other.map Token.kind) := by
    cases one <;> cases other
    · rfl
    · cases same
    · cases same
    · exact blind _ _ same
  rw [decided]
  exact (cases _).weaken (fun _ _ seen => ⟨one, other, same, rfl, seen⟩) fun _ _ _ _ _ holds => holds

omit lawful [Alike β] in
theorem peekOperator_bind (index : Nat) (next : Option Operator → Parse β) :
    peekOperator index >>= next = peekKind index >>= fun kind => next (kind.bind TokenKind.operator?) := by
  simp only [peekOperator, peekKind, bind_assoc, pure_bind, Option.bind_map]
  rfl

theorem operator_bind {next later : Option Operator → Parse β}
    (without : C.Coupled (C.after number) (next none) (later none) post)
    (found : ∀ operator, C.Coupled (C.afterKind number (some (.operator operator))) (next (some operator))
      (later (some operator)) post) :
    C.Coupled (C.after number) (peekOperator 0 >>= next) (peekOperator 0 >>= later) post := by
  rw [peekOperator_bind, peekOperator_bind]
  refine lawful.kind_bind (.of (fun _ _ => rfl) fun _ => rfl) fun kind => ?_
  match kind with
  | some (.operator operator) => exact found operator
  | none | some .identifier | some (.keyword _) | some (.literal _) | some (.semicolon _) | some .illegal =>
    exact lawful.forget without

theorem atOperator_bind {operator : Operator} {next later : Bool → Parse β}
    (there : C.Coupled (C.afterKind number (some (.operator operator))) (next true) (later true) post)
    (elsewhere : C.Coupled (C.after number) (next false) (later false) post) :
    C.Coupled (C.after number) (atOperator operator >>= next) (atOperator operator >>= later) post := by
  simp only [atOperator, bind_assoc, pure_bind]
  refine lawful.operator_bind (by simpa using elsewhere) fun found => ?_
  by_cases same : some found = some operator
  · cases same
    simpa using there
  · rw [beq_eq_false_iff_ne.mpr same]
    exact lawful.forget elsewhere

theorem atKeyword_bind {keyword : Keyword} {next later : Bool → Parse β}
    (there : C.Coupled (C.afterKind number (some (.keyword keyword))) (next true) (later true) post)
    (elsewhere : C.Coupled (C.after number) (next false) (later false) post) :
    C.Coupled (C.after number) (atKeyword keyword >>= next) (atKeyword keyword >>= later) post := by
  simp only [atKeyword, bind_assoc, pure_bind]
  refine lawful.kind_bind (.of (fun _ _ => rfl) fun _ => rfl) fun found => ?_
  by_cases same : found = some (.keyword keyword)
  · subst same
    simpa using there
  · rw [beq_eq_false_iff_ne.mpr same]
    exact lawful.forget elsewhere

theorem atSemicolon_bind {next later : Bool → Parse β}
    (there : ∀ origin, C.Coupled (C.afterKind number (some (.semicolon origin))) (next true) (later true) post)
    (elsewhere : C.Coupled (C.after number) (next false) (later false) post) :
    C.Coupled (C.after number) (atSemicolon >>= next) (atSemicolon >>= later) post := by
  simp only [atSemicolon, bind_assoc, pure_bind]
  refine lawful.kind_bind (.of (fun _ _ => rfl) fun _ => rfl) fun found => ?_
  match found with
  | some (.semicolon origin) => exact there origin
  | none | some .identifier | some (.keyword _) | some (.literal _) | some (.operator _) | some .illegal =>
    exact lawful.forget elsewhere

theorem bump_seen {one other : Token} (legal : one.kind ≠ .illegal) (legal' : other.kind ≠ .illegal) :
    C.Coupled (C.afterSeen number (some one) (some other)) bump bump (fun _ _ => C.after (number + 1)) :=
  of_seen fun reached far => (lawful.take reached legal legal').weaken (fun _ _ holds => holds)
    fun _ _ _ _ _ settled => ⟨reached + 1, by omega, settled⟩

private theorem bump_keeps : C.Keeps bump := by
  let token : Token := ⟨.identifier, "", Span.point 0 0⟩
  have legal : token.kind ≠ .illegal := by simp [token]
  exact (lawful.take 0 legal legal : C.Coupled (C.seen 0 (some token) (some token)) _ _ _).keeps

private theorem bump_kind {kind : TokenKind} (legal : kind ≠ .illegal) :
    C.Coupled (C.afterKind number (some kind)) bump bump (fun _ _ => C.after (number + 1)) := by
  refine ⟨lawful.bump_keeps, ?_⟩
  rintro before after ⟨one, other, same, kind', seen⟩
  obtain ⟨other, rfl, rfl⟩ := Option.map_eq_some_iff.mp kind'
  cases one with
  | none => cases same
  | some one => exact (lawful.bump_seen (same.legal legal) legal).outcome before after seen

theorem take_bind {one other : Token} (legal : one.kind ≠ .illegal) (legal' : other.kind ≠ .illegal)
    {next later : Unit → Parse β} (rest : C.Coupled (C.after (number + 1)) (next ()) (later ()) post) :
    C.Coupled (C.afterSeen number (some one) (some other)) (bump >>= next) (bump >>= later) post :=
  (lawful.bump_seen legal legal').bind fun _ _ _ => rest

theorem takeKind_bind {kind : TokenKind} (legal : kind ≠ .illegal) {next later : Unit → Parse β}
    (rest : C.Coupled (C.after (number + 1)) (next ()) (later ()) post) :
    C.Coupled (C.afterKind number (some kind)) (bump >>= next) (bump >>= later) post :=
  (lawful.bump_kind legal).bind fun _ _ _ => rest

private theorem pass_kind {kind : TokenKind} (legal : kind ≠ .illegal) :
    C.Coupled (C.afterKind number (some kind)) bump bump (fun _ _ => C.after number) :=
  (lawful.bump_kind legal).weaken (fun _ _ holds => holds) fun _ _ _ _ _ => after_of_le (Nat.le_succ number)

theorem passKind_bind {kind : TokenKind} (legal : kind ≠ .illegal) {next later : Unit → Parse β}
    (rest : C.Coupled (C.after number) (next ()) (later ()) post) :
    C.Coupled (C.afterKind number (some kind)) (bump >>= next) (bump >>= later) post :=
  (lawful.pass_kind legal).bind fun _ _ _ => rest

theorem passSeen_bind {one other : Token} (legal : one.kind ≠ .illegal) (legal' : other.kind ≠ .illegal)
    {next later : Unit → Parse β} (rest : C.Coupled (C.after number) (next ()) (later ()) post) :
    C.Coupled (C.afterSeen number (some one) (some other)) (bump >>= next) (bump >>= later) post :=
  lawful.take_bind legal legal' (rest.weaken (fun _ _ => after_of_le (Nat.le_succ number)) fun _ _ _ _ _ holds => holds)

theorem passFound_bind {one other : Token} {kind : TokenKind} (same : one.kind = other.kind) (found : one.kind = kind)
    (legal : kind ≠ .illegal) {next later : Unit → Parse β}
    (rest : C.Coupled (C.after number) (next ()) (later ()) post) :
    C.Coupled (C.afterSeen number (some one) (some other)) (bump >>= next) (bump >>= later) post :=
  lawful.passSeen_bind (found ▸ legal) (same ▸ found ▸ legal) rest

theorem unexpected_seen {one other : Token} (same : one.kind.Resembles other.kind) (expected : List String) :
    C.Coupled (C.afterSeen number (some one) (some other)) (unexpected one expected : Parse β)
      (unexpected other expected) post :=
  of_seen fun reached _ => (lawful.reject reached expected same).weaken (fun _ _ holds => holds)
    fun _ _ _ _ _ never => never.elim

theorem endOfInput_seen (expected : List String) :
    C.Coupled (C.afterSeen number none none) (endOfInput expected : Parse β) (endOfInput expected) post :=
  of_seen fun reached _ => (lawful.ended reached expected).weaken (fun _ _ holds => holds)
    fun _ _ _ _ _ never => never.elim

theorem endOfInput_kind (expected : List String) :
    C.Coupled (C.afterKind number none) (endOfInput expected : Parse β) (endOfInput expected) post := by
  refine ⟨(lawful.ended 0 expected).keeps, ?_⟩
  rintro before after ⟨one, other, same, none, seen⟩
  obtain rfl := Option.map_eq_none_iff.mp none
  cases one with
  | none => exact (lawful.endOfInput_seen expected).outcome before after seen
  | some one => cases same

/-- A literal that the first run consumes where it is spoilt for the second one, which rejects it. -/
theorem lose_bind {one other : Token} {kind : LiteralKind} (literal : one.kind = .literal kind)
    (illegal : other.kind = .illegal) {next : Unit → Parse β} (keeps : C.Keeps (next ())) (expected : List String) :
    C.Coupled (C.afterSeen number (some one) (some other)) (bump >>= next) (unexpected other expected) post := by
  refine ⟨lawful.bump_keeps.bind fun _ => keeps, ?_⟩
  rintro before after ⟨reached, -, seen⟩
  exact .inl ⟨Lost.bind (lawful.lose literal illegal seen) fun _ => keeps, lawful.spoil expected literal illegal seen⟩

theorem string_bind {first second : Parse Unit}
    (elsewhere : C.Coupled (C.after number) first second fun _ _ => C.after number) :
    C.Coupled (C.after number) (do if (← peekKind 0) = some (.literal .string) then bump else first)
      (do if (← peekKind 0) = some (.literal .string) then bump else second) (fun _ _ => C.after number) := by
  rw [peekKind_bind, peekKind_bind]
  refine lawful.look_bind (lawful.forgetSeen (by simpa using elsewhere)) fun one other same => ?_
  have there : ∀ {token : Token}, token.kind = .literal .string →
      Option.map Token.kind (some token) = some (.literal .string) := fun isString => congrArg some isString
  have missing : ∀ {token : Token}, token.kind ≠ .literal .string →
      Option.map Token.kind (some token) ≠ some (.literal .string) := fun differs same => differs (Option.some.inj same)
  rcases same.cases with kinds | ⟨_, _, isOne, isOther⟩ | ⟨kind, isOne, isOther⟩
  · by_cases isString : one.kind = .literal .string
    · have isString' : other.kind = .literal .string := kinds ▸ isString
      rw [if_pos (there isString), if_pos (there isString')]
      exact (lawful.bump_seen (by simp [isString]) (by simp [isString'])).weaken (fun _ _ holds => holds)
        fun _ _ _ _ _ => after_of_le (Nat.le_succ number)
    · rw [if_neg (missing isString), if_neg (missing (kinds ▸ isString))]
      exact lawful.forgetSeen elsewhere
  · rw [if_neg (missing (by simp [isOne])), if_neg (missing (by simp [isOther]))]
    exact lawful.forgetSeen elsewhere
  · rw [if_neg (missing (by simp [isOther]) : Option.map Token.kind (some other) ≠ _)]
    by_cases isString : one.kind = .literal .string
    · rw [if_pos (there isString)]
      refine ⟨lawful.bump_keeps, ?_⟩
      rintro before after ⟨reached, -, seen⟩
      exact .inl ⟨lawful.lose isOne isOther seen, strays_of_free (lawful.loose isString isOther seen) _⟩
    · rw [if_neg (missing isString)]
      exact lawful.forgetSeen elsewhere

theorem rejectNext_after (expected : List String) :
    C.Coupled (C.after number) (rejectNext expected : Parse β) (rejectNext expected) post :=
  lawful.look_bind (lawful.endOfInput_seen expected) fun _ _ same => lawful.unexpected_seen same expected

theorem eatOperator_bind {operator : Operator} {next later : Bool → Parse β}
    (eaten : C.Coupled (C.after (number + 1)) (next true) (later true) post)
    (elsewhere : C.Coupled (C.after number) (next false) (later false) post) :
    C.Coupled (C.after number) (eatOperator operator >>= next) (eatOperator operator >>= later) post := by
  simp only [eatOperator, bind_assoc]
  refine lawful.atOperator_bind ?_ ?_
  · simp only [↓reduceIte, bind_assoc, pure_bind]
    exact lawful.takeKind_bind (by simp) eaten
  · simpa using elsewhere

theorem eatOperator_steady (operator : Operator) : C.Steady (eatOperator operator) (eatOperator operator) := by
  intro number
  rw [← bind_pure (eatOperator operator)]
  exact lawful.eatOperator_bind (.pure rfl fun _ _ => after_of_le (Nat.le_succ number))
    (.pure rfl fun _ _ holds => holds)

private theorem expect_after {accepts : TokenKind → Bool} (blind : TokenKind.Blind accepts)
    (legal : accepts .illegal = false) (expected : List String) :
    C.Coupled (C.after number) (expect accepts expected) (expect accepts expected) (fun _ _ =>
      C.after (number + 1)) := by
  refine lawful.look_bind (lawful.endOfInput_seen expected) fun one other same => ?_
  dsimp only
  rw [blind _ _ same]
  by_cases accepted : accepts other.kind = true
  · have plain : ∀ {kind}, accepts kind = true → kind ≠ .illegal := by
      rintro kind accepted rfl
      rw [legal] at accepted
      cases accepted
    simp only [accepted, ↓reduceIte]
    exact lawful.bump_seen (plain ((blind _ _ same).trans accepted)) (plain accepted)
  · simp only [accepted]
    exact lawful.unexpected_seen same expected

private theorem expect_steady {accepts : TokenKind → Bool} (blind : TokenKind.Blind accepts)
    (legal : accepts .illegal = false) (expected : List String) :
    C.Steady (expect accepts expected) (expect accepts expected) :=
  fun number =>
  (lawful.expect_after blind legal expected).weaken (fun _ _ holds => holds) fun _ _ _ _ _ =>
    after_of_le (Nat.le_succ number)

theorem expectOperator_after (operator : Operator) :
    C.Coupled (C.after number) (expectOperator operator) (expectOperator operator) (fun _ _ => C.after (number + 1)) :=
  lawful.expect_after (TokenKind.Blind.of (fun _ _ => rfl) fun _ => rfl) rfl _

theorem expectOperator_steady (operator : Operator) : C.Steady (expectOperator operator) (expectOperator operator) :=
  lawful.expect_steady (TokenKind.Blind.of (fun _ _ => rfl) fun _ => rfl) rfl _

theorem expectKeyword_steady (keyword : Keyword) : C.Steady (expectKeyword keyword) (expectKeyword keyword) :=
  lawful.expect_steady (TokenKind.Blind.of (fun _ _ => rfl) fun _ => rfl) rfl _

theorem expectName_steady : C.Steady expectName expectName :=
  lawful.expect_steady (TokenKind.Blind.of (fun _ _ => rfl) fun _ => rfl) rfl _

theorem expectSemicolon_steady (expected : List String) :
    C.Steady (expectSemicolon expected) (expectSemicolon expected) :=
  lawful.expect_steady (TokenKind.Blind.of (fun _ _ => rfl) fun _ => rfl) rfl _

/-- Behind a name, one more token is looked at. Where it is a spoilt literal, the decision need not be blind. -/
theorem kindBeyond_bind {next later : Option TokenKind → Parse β}
    (cases : ∀ following, C.Coupled (C.afterName number following) (next following) (later following) post)
    (spoilt : ∀ kind, C.Coupled (C.afterSpoilt number kind) (next (some (.literal kind))) (later (some .illegal)) post)
    (semicolons : ∀ one other, next (some (.semicolon one)) = next (some (.semicolon other))) :
    C.Coupled (C.afterKind number (some .identifier)) (peekKind 1 >>= next) (peekKind 1 >>= later) post := by
  rw [peekKind_bind, peekKind_bind]
  have beyond : ∀ reached, number ≤ reached → ∀ one other : Token, one.kind = .identifier → other.kind = .identifier →
      C.Coupled (C.seen reached (some one) (some other)) (peek 1 >>= fun found => next (found.map Token.kind))
        (peek 1 >>= fun found => later (found.map Token.kind)) post := by
    intro reached far one other named named'
    refine (lawful.lookBeyond reached named named').bind fun following further same => ?_
    have plain : ∀ {following further : Option Token}, Alike.alike following further →
        next (following.map Token.kind) = next (further.map Token.kind) →
        C.Coupled (C.window reached one other following further) (next (following.map Token.kind))
          (later (further.map Token.kind)) post := by
      intro following further same decided
      rw [decided]
      refine (cases _).weaken (fun _ _ window => ?_) fun _ _ _ _ _ holds => holds
      exact ⟨reached, one, other, following, further, far, named, named', same, rfl, window⟩
    cases following with
    | none =>
      cases further with
      | none => exact plain same rfl
      | some further => cases same
    | some following =>
      cases further with
      | none => cases same
      | some further =>
        rcases TokenKind.Resembles.cases same with kinds | ⟨_, _, isNext, isLater⟩ | ⟨kind, isNext, isLater⟩
        · exact plain same (congrArg (fun kind => next (some kind)) kinds)
        · exact plain same (by rw [Option.map_some, Option.map_some, isNext, isLater, semicolons])
        · rw [Option.map_some, Option.map_some, isNext, isLater]
          refine (spoilt kind).weaken (fun _ _ window => ?_) fun _ _ _ _ _ holds => holds
          exact ⟨reached, one, other, following, further, far, named, named', isNext, isLater, window⟩
  refine ⟨(beyond number (Nat.le_refl _) ⟨.identifier, "", Span.point 0 0⟩ ⟨.identifier, "",
    Span.point 0 0⟩ rfl rfl).keeps, ?_⟩
  rintro before after ⟨one, other, same, kind, reached, far, seen⟩
  obtain ⟨other, rfl, named'⟩ := Option.map_eq_some_iff.mp kind
  cases one with
  | none => cases same
  | some one =>
    have named : one.kind = .identifier := by
      have resembles : one.kind.Resembles other.kind := same
      rw [named'] at resembles
      exact resembles.of_identifier
    exact (beyond reached far one other named named').outcome before after seen

omit lawful in
theorem afterSpoilt_afterName {kind : LiteralKind} {first second : ParseState}
    (holds : C.afterSpoilt number kind first second) :
    C.afterName number (some .illegal) first second := by
  obtain ⟨reached, one, other, next, later, far, named, named', isNext, isLater, window⟩ := holds
  have same : next.kind.Resembles later.kind := by
    rw [isNext, isLater]
    exact .spoilt kind
  exact ⟨reached, one, other, some next, some later, far, named, named', same, congrArg some isLater, window⟩

theorem operatorBeyond_bind {next later : Option Operator → Parse β}
    (cases : ∀ following, C.Coupled (C.afterName number following) (next (following.bind TokenKind.operator?))
      (later (following.bind TokenKind.operator?)) post) :
    C.Coupled (C.afterKind number (some .identifier)) (peekOperator 1 >>= next) (peekOperator 1 >>= later) post := by
  rw [peekOperator_bind, peekOperator_bind]
  refine lawful.kindBeyond_bind cases (fun kind => ?_) fun _ _ => rfl
  exact (cases (some .illegal)).weaken (fun _ _ => afterSpoilt_afterName) fun _ _ _ _ _ holds => holds

omit lawful in
theorem of_window {following : Option TokenKind} {first second : Parse β}
    (coupled : ∀ reached one other (next later : Option Token), number ≤ reached → Token.kind one = .identifier →
      Token.kind other = .identifier → Alike.alike next later → Option.map Token.kind later = following →
      C.Coupled (C.window reached one other next later) first second post) :
    C.Coupled (C.afterName number following) first second post := by
  let token (kind : TokenKind) : Token := ⟨kind, "", Span.point 0 0⟩
  have kinds : Option.map Token.kind (Option.map token following) = following := by
    cases following <;> rfl
  refine ⟨(coupled number (token .identifier) (token .identifier) _ _ (Nat.le_refl _) rfl rfl
    (Alike.refl _) kinds).keeps, ?_⟩
  rintro before after ⟨reached, one, other, next, later, far, named, named', same, same', window⟩
  exact (coupled reached one other next later far named named' same same').outcome before after window

private theorem bump_name {following : Option TokenKind} :
    C.Coupled (C.afterName number following) bump bump (fun _ _ => C.after (number + 1)) :=
  of_window fun reached _ _ _ _ far _ _ _ _ => (lawful.takeInWindow reached).weaken (fun _ _ holds => holds)
    fun _ _ _ _ _ settled => ⟨reached + 1, by omega, settled⟩

theorem pass_name {following : Option TokenKind} :
    C.Coupled (C.afterName number following) bump bump (fun _ _ => C.after number) :=
  lawful.bump_name.weaken (fun _ _ holds => holds) fun _ _ _ _ _ => after_of_le (Nat.le_succ number)

theorem passName_bind {following : Option TokenKind} {next later : Unit → Parse β}
    (rest : C.Coupled (C.after number) (next ()) (later ()) post) :
    C.Coupled (C.afterName number following) (bump >>= next) (bump >>= later) post :=
  lawful.pass_name.bind fun _ _ _ => rest

theorem stepName_bind {following : TokenKind} {next later : Unit → Parse β}
    (rest : C.Coupled (C.afterKind (number + 1) (some following)) (next ()) (later ()) post) :
    C.Coupled (C.afterName number (some following)) (bump >>= next) (bump >>= later) post := by
  refine of_window fun reached one other found further far _ _ same kind => ?_
  obtain ⟨further, rfl, -⟩ := Option.map_eq_some_iff.mp kind
  cases found with
  | none => cases same
  | some found =>
    refine (lawful.takeBoth reached).bind fun _ _ _ => rest.weaken (fun _ _ seen => ?_) fun _ _ _ _ _ holds => holds
    exact ⟨some found, some further, same, kind, reached + 1, by omega, seen⟩

/-- A name and the string behind it are consumed by the first run where the string is spoilt for the second one. -/
theorem loseBeyond_bind {later : Parse Unit} {post : Unit → Unit → ParseState → ParseState → Prop} :
    C.Coupled (C.afterSpoilt number .string)
      (do bump; if (← peekKind 0) = some (.literal .string) then bump) later post := by
  refine ⟨lawful.bump_keeps.bind fun _ => ?_, ?_⟩
  · rw [peekKind_bind]
    refine (lawful.look 0).keeps.bind fun found => ?_
    split
    next => exact lawful.bump_keeps
    next => exact fun _ gone => gone
  · rintro before after ⟨reached, one, other, next, later, -, -, -, isNext, isLater, window⟩
    obtain ⟨free, lost⟩ := lawful.loseBeyond isNext isLater window
    exact .inl ⟨lost, strays_of_free free _⟩

theorem lookName_bind {following : Option TokenKind} {next later : Option Token → Parse β}
    (keeps : C.Keeps (peek 0 >>= next))
    (found : ∀ one other : Token, one.kind = .identifier → other.kind = .identifier →
      C.Coupled (C.afterName number following) (next (some one)) (later (some other)) post) :
    C.Coupled (C.afterName number following) (peek 0 >>= next) (peek 0 >>= later) post := by
  refine ⟨keeps, ?_⟩
  rintro before after ⟨reached, one, other, _, _, far, named, named', same, same', window⟩
  obtain ⟨there, there'⟩ := lawful.lookInWindow window
  rw [bind_ok there, bind_ok there']
  exact (found one other named named').outcome before after
    ⟨reached, one, other, _, _, far, named, named', same, same', window⟩

theorem atOperator_name_bind {operator : Operator} {following : Option TokenKind} {next later : Bool → Parse β}
    (keeps : C.Keeps (next true))
    (elsewhere : C.Coupled (C.afterName number following) (next false) (later false) post) :
    C.Coupled (C.afterName number following) (atOperator operator >>= next) (atOperator operator >>= later) post := by
  simp only [atOperator, peekOperator, bind_assoc, pure_bind]
  refine lawful.lookName_bind ((lawful.look 0).keeps.bind fun found => ?_) fun one other named named' => ?_
  · cases Option.bind found Token.operator? == some operator with
    | true => exact keeps
    | false => exact elsewhere.keeps
  · simp only [Option.bind_some, Token.operator?, named, named']
    exact elsewhere

theorem eatOperator_name (operator : Operator) (following : Option TokenKind) :
    C.Coupled (C.afterName number following) (eatOperator operator) (eatOperator operator)
      (fun _ _ => C.afterName number following) :=
  lawful.atOperator_name_bind (lawful.bump_keeps.bind fun _ _ gone => gone) (.pure rfl fun _ _ holds => holds)

theorem expectName_name {following : Option TokenKind} :
    C.Coupled (C.afterName number following) expectName expectName (fun _ _ => C.after (number + 1)) := by
  refine lawful.lookName_bind (lawful.expectName_steady number).keeps fun one other named named' => ?_
  simp only [named, named', beq_self_eq_true, ↓reduceIte]
  exact lawful.bump_name

omit lawful in
theorem spanFrom_coupled {pre : ParseState → ParseState → Prop} (one other : Span) :
    C.Coupled pre (spanFrom one) (spanFrom other) (fun _ _ => pre) :=
  ⟨fun _ gone => gone, fun _ _ holds => .inr ⟨trivial, holds⟩⟩

omit lawful in
private theorem turn_coupled {pre : ParseState → ParseState → Prop} {first second : Parse Bool}
    (coupled : C.Coupled pre first second (fun isDone _ => if isDone then C.after number else C.after (number + 1))) :
    C.Coupled pre (do return if ← first then Turn.done () else .again ())
      (do return if ← second then Turn.done () else .again ()) (C.turned number) := by
  refine coupled.bind fun isDone _ same => ?_
  cases same
  cases isDone with
  | true => exact .pure rfl fun _ _ holds => holds
  | false => exact .pure rfl fun _ _ holds => holds

theorem repeatUntil_steady {first second : Parse Bool}
    (turns : ∀ number, C.Coupled (C.after number) first second
      (fun isDone _ => if isDone then C.after number else C.after (number + 1))) :
    C.Steady (repeatUntil first) (repeatUntil second) :=
  lawful.iterate (fun number _ _ _ => turn_coupled (turns number)) rfl

theorem repeatUntil_name {first second : Parse Bool}
    (turns : ∀ number, C.Coupled (C.after number) first second (fun isDone _ =>
      if isDone then C.after number else C.after (number + 1)))
    (start : ∀ number following, C.Coupled (C.afterName number following) first second (fun isDone _ =>
      if isDone then C.after number else C.after (number + 1)))
    (following : Option TokenKind) :
    C.Coupled (C.afterName number following) (repeatUntil first) (repeatUntil second) (fun _ _ => C.after number) := by
  refine of_window fun reached one other next later far named named' same same' => ?_
  have start' : C.Coupled (C.window reached one other next later) first second (fun isDone _ =>
      if isDone then C.after reached else C.after (reached + 1)) :=
    (start reached following).weaken
      (fun _ _ window => ⟨reached, one, other, next, later, Nat.le_refl _, named, named', same, same', window⟩)
      fun _ _ _ _ _ holds => holds
  have turns' : ∀ number, C.Coupled (C.settled number) first second (fun isDone _ =>
      if isDone then C.after number else C.after (number + 1)) := fun number =>
    (turns number).weaken (fun _ _ settled => ⟨number, Nat.le_refl _, settled⟩) fun _ _ _ _ _ holds => holds
  unfold repeatUntil
  refine Coupled.weaken ?_ (fun _ _ holds => holds) fun _ _ _ _ _ => after_of_le far
  exact lawful.iterateFrom (fun _ _ => lawful.window_marks) (fun number _ _ _ => turn_coupled (turns' number))
    (turn_coupled start')

end Lawful

end GoPrompt.Coupling
