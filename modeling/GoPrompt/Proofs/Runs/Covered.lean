import GoPrompt.Proofs.Coupled.Statements
import GoPrompt.Proofs.Delimiters.Texts
import GoPrompt.Proofs.Runs.Endings
import GoPrompt.Proofs.Runs.Onward
import GoPrompt.Proofs.Runs.Parsed
import GoPrompt.Proofs.Stream.Budgets
import GoPrompt.Proofs.Stream.Lookahead
import GoPrompt.Proofs.Stream.Visits

/-! The tokens that a run has consumed. None of them is illegal, for the grammar consumes no token without having looked
at it, and the span of the last one is the place up to which a construct reaches.

A complete statement and its text. All tokens of the text have been consumed, whole and legal as they are, and the span
of the statement reaches from the first of them to the last one, but for the semicolon that ends the statement. -/

namespace GoPrompt

open Parse

namespace TokenStream

variable {origin point : TokenStream} {taken : List Token}

theorem Visits.counted {own number : Nat} (visits : origin.Visits taken point) (counted : origin.Counted own number) :
    point.Counted own (number + taken.length) := by
  induction visits with
  | start => exact counted
  | @peek _ _ _ index _ _ peeked ih =>
    have kept := peek_counted index ih
    rwa [peeked] at kept
  | @next taken point after token _ took ih =>
    obtain ⟨filled, later, fills, front, took⟩ := of_next took
    have counted' : filled.Counted own (number + taken.length) := by
      have kept := fill_counted (0 + 1 - point.lookahead.length) ih
      rwa [show fill _ point = _ from fills] at kept
    obtain ⟨_, taken', counted'', -⟩ := next_counted 0 (by rw [front]; rfl) counted'
    cases took.symm.trans taken'
    rwa [List.length_append]
  | noteEnd _ ih => exact ⟨ih.budget, ih.count, ih.within⟩

theorem Visits.lastConsumed (visits : origin.Visits taken point) :
    point.lastConsumed = (taken.getLast?.map (·.kind)).or origin.lastConsumed := by
  induction visits with
  | start => rfl
  | @peek taken point after index found _ peeked ih =>
    have given := point.peek_given index
    rw [peeked] at given
    exact given.lastConsumed.symm.trans ih
  | next _ took =>
    obtain ⟨filled, later, fills, front, took⟩ := of_next took
    cases (next_given front).symm.trans took
    rw [List.getLast?_concat]
    rfl
  | noteEnd _ ih => exact ih

end TokenStream

/-- So many tokens have been consumed since, none of them illegal. -/
def Consumed (origin : TokenStream) (number : Nat) (state : ParseState) : Prop :=
  ∃ taken, origin.Visits taken state.stream ∧ taken.length = number ∧ (∀ token ∈ taken, token.kind ≠ .illegal) ∧
    ∀ last, taken.getLast? = some last → state.lastSpan = last.span

namespace Consumed

variable {origin : TokenStream} {own number : Nat} {state after : ParseState}

theorem counted (consumed : Consumed origin number state) (start : origin.Counted own 0) :
    state.stream.Counted own number := by
  obtain ⟨taken, visits, rfl, -⟩ := consumed
  have counted := visits.counted start
  rwa [Nat.zero_add] at counted

theorem peek {index : Nat} {found : Option Token} (consumed : Consumed origin number state)
    (looked : Parse.peek index state = .ok found after) : Consumed origin number after := by
  obtain ⟨taken, visits, length, legal, last⟩ := consumed
  have same : after.lastSpan = state.lastSpan := by
    unfold Parse.peek onStream at looked
    split at looked
    next =>
      cases looked
      rfl
    next => cases looked
  exact ⟨taken, visits.peek (of_onStream_ok looked), length, legal, same ▸ last⟩

theorem bump {token : Token} {later : List Token} (consumed : Consumed origin number state)
    (front : state.stream.lookahead = token :: later) (legal : token.kind ≠ .illegal)
    (ran : Parse.bump state = .ok () after) :
    Consumed origin (number + 1) after ∧ after.stream.lookahead = later := by
  obtain ⟨taken, visits, length, legals, -⟩ := consumed
  have took := TokenStream.next_given front
  cases (bump_some took).symm.trans ran
  refine ⟨⟨taken ++ [token],
    visits.next took, by rw [List.length_append, length]; rfl, fun other mem => ?_, fun last isLast => ?_⟩, rfl⟩
  · rcases List.mem_append.mp mem with before | here
    · exact legals other before
    · exact List.mem_singleton.mp here ▸ legal
  · rw [List.getLast?_concat] at isLast
    cases isLast
    rfl

end Consumed

namespace Coupling

/-- A run and itself, with the tokens that it has consumed since it was at this stream. -/
def consumed (origin : TokenStream) : Coupling where
  marks number first second := first = second ∧ Consumed origin number first
  settled number first second := first = second ∧ Consumed origin number first
  seen number one other first second :=
    (first = second ∧ one = other) ∧ Consumed origin number first ∧ first.stream.lookahead[0]? = one
  window number one other next later first second :=
    (first = second ∧ one = other ∧ next = later) ∧ (Consumed origin number first ∧ one.kind = .identifier) ∧
      first.stream.lookahead[0]? = some one ∧ first.stream.lookahead[1]? = next
  -- A run is never apart from itself, so there is nothing to excuse.
  gone _ := False
  excused _ _ := False
  free := True
  stray _ _ := True
  fails failure first failure' second := failure = failure' ∧ first = second

variable {origin : TokenStream} {own : Nat} {α : Type} [Alike α]

private theorem consumed_coupled {pre : ParseState → ParseState → Prop} {program : Parse α}
    {post : α → α → ParseState → ParseState → Prop} (same : ∀ before after, pre before after → before = after)
    (runs : ∀ state value after, pre state state → program state = .ok value after → post value value after after) :
    (consumed origin).Coupled pre program program post := by
  refine ⟨fun _ gone => gone.elim, fun before after holds => .inr ?_⟩
  obtain rfl := same before after holds
  cases ran : program before with
  | ok value reached => exact ⟨Alike.refl value, runs before value reached holds ran⟩
  | error failure reached => exact ⟨rfl, rfl⟩

private theorem consumed_lawful (start : origin.Counted own 0) : (consumed origin).Lawful where
  excuse _ gone := gone.elim
  settled_marks settled := settled
  window_marks window := ⟨window.1.1, window.2.1.1⟩
  progress := by
    rintro number reached first _ before _ ⟨rfl, consumed⟩ ⟨rfl, consumed'⟩ further
    have less := (consumed.counted start).remaining_lt (consumed'.counted start) further
    exact ⟨less, less⟩
  seen_settled seen := ⟨seen.1.1, seen.2.1⟩
  look number := consumed_coupled (fun _ _ settled => settled.1) fun state found after settled ran =>
    ⟨⟨rfl, rfl⟩, settled.2.peek ran, (TokenStream.peek_lookahead (of_onStream_ok ran)).2.symm⟩
  take number one other legal _ := consumed_coupled (fun _ _ seen => seen.1.1) fun state _ after seen ran => by
    obtain ⟨later, front⟩ := List.head?_eq_some_iff.mp (List.head?_eq_getElem?.trans seen.2.2)
    exact ⟨rfl, (seen.2.1.bump front legal ran).1⟩
  reject number one other expected _ := by
    refine ⟨fun _ gone => gone.elim, ?_⟩
    rintro state _ ⟨⟨rfl, same⟩, seen⟩
    cases same
    exact (@consumed_coupled origin _ _ Eq _ _ (fun _ _ same => same) fun state value after _ ran =>
      unexpected_ne_ok one expected value ran).outcome state state rfl
  lose literal illegal seen := by
    obtain ⟨⟨-, same⟩, -⟩ := seen
    cases same
    cases literal.symm.trans illegal
  spoil _ _ _ _ := strays_of_free trivial _
  loose _ _ _ := trivial
  ended number expected := consumed_coupled (fun _ _ seen => seen.1.1) fun state value after _ ran => by cases ran
  stop number limit := consumed_coupled (fun _ _ marked => marked.1) fun state value after _ ran => by
    obtain ⟨_, _, -, ran⟩ := of_bind_ok ran
    obtain ⟨_, _, -, ran⟩ := of_bind_ok ran
    cases ran
  lookBeyond number one other named _ :=
      consumed_coupled (fun _ _ seen => seen.1.1) fun state found after seen ran => by
    obtain ⟨⟨-, same⟩, consumed, front⟩ := seen
    cases same
    obtain ⟨⟨_, longer⟩, there⟩ := TokenStream.peek_lookahead (of_onStream_ok ran)
    obtain ⟨later, ahead⟩ := List.head?_eq_some_iff.mp (List.head?_eq_getElem?.trans front)
    refine ⟨⟨rfl, rfl, rfl⟩, ⟨consumed.peek ran, named⟩, ?_, there.symm⟩
    rw [← longer, ahead]
    rfl
  lookInWindow := by
    rintro number one _ next _ first _ ⟨⟨rfl, rfl, rfl⟩, -, front, -⟩
    have looked : peek 0 first = .ok (some one) first :=
      onStream_ok (TokenStream.peek_front (List.head?_eq_getElem?.trans front))
    exact ⟨looked, looked⟩
  takeInWindow number one other next later :=
      consumed_coupled (fun _ _ window => window.1.1) fun state _ after window ran => by
    obtain ⟨-, ⟨consumed, named⟩, front, -⟩ := window
    obtain ⟨later, front⟩ := List.head?_eq_some_iff.mp (List.head?_eq_getElem?.trans front)
    exact ⟨rfl, (consumed.bump front (by simp [named]) ran).1⟩
  takeBoth number one other next later :=
      consumed_coupled (fun _ _ window => window.1.1) fun state _ after window ran => by
    obtain ⟨⟨-, -, same⟩, ⟨consumed, named⟩, front, behind⟩ := window
    cases same
    obtain ⟨later, front⟩ := List.head?_eq_some_iff.mp (List.head?_eq_getElem?.trans front)
    obtain ⟨consumed', ahead⟩ := consumed.bump front (by simp [named]) ran
    rw [front] at behind
    exact ⟨⟨rfl, rfl⟩, consumed', ahead ▸ behind⟩
  loseBeyond literal illegal window := by
    obtain ⟨⟨-, -, same⟩, -⟩ := window
    cases same
    cases literal.symm.trans illegal

end Coupling

/-- The tokens without the semicolon that ends a statement. -/
def withoutTerminator (tokens : List Token) : List Token :=
  if tokens.getLast?.any (isSemicolon ·.kind) then tokens.dropLast else tokens

private theorem withoutTerminator_concat (tokens : List Token) {last : Token} (ends : isSemicolon last.kind = true) :
    withoutTerminator (tokens ++ [last]) = tokens := by
  have terminated : (tokens ++ [last]).getLast?.any (isSemicolon ·.kind) = true := by
    rw [List.getLast?_concat]
    exact ends
  rw [withoutTerminator, if_pos terminated, List.dropLast_concat]

private theorem withoutTerminator_eq {tokens : List Token} {last : Token} (isLast : tokens.getLast? = some last)
    (written : isSemicolon last.kind = false) : withoutTerminator tokens = tokens := by
  refine if_neg ?_
  rw [isLast, Option.any_some, written]
  exact Bool.noConfusion

private theorem withoutTerminator_taken {tokens taken : List Token} {last : Token} {semicolon : Bool}
    (isTaken : taken = tokens.take taken.length) (length : tokens.length = taken.length + semicolon.toNat)
    (behind : semicolon = (tokens[taken.length]?.map (·.kind)).any isSemicolon) (isLast : taken.getLast? = some last)
    (written : isSemicolon last.kind = false) : withoutTerminator tokens = taken := by
  cases semicolon with
  | false =>
    have all : tokens = taken := by
      have few : tokens.length ≤ taken.length := Nat.le_of_eq length
      rw [isTaken, List.take_of_length_le few]
    rw [all]
    exact withoutTerminator_eq isLast written
  | true =>
    cases isBehind : tokens[taken.length]? with
    | none =>
      rw [isBehind] at behind
      cases behind
    | some token =>
      have all : tokens = taken ++ [token] := by
        have parts : tokens.take (taken.length + 1) = taken ++ [token] := by
          rw [List.take_add_one, ← isTaken, isBehind, Option.toList_some]
        have few : tokens.length ≤ taken.length + 1 := Nat.le_of_eq length
        rwa [List.take_of_length_le few] at parts
      rw [isBehind] at behind
      rw [all]
      exact withoutTerminator_concat taken behind.symm

/-- Steps that are tokens, neither cut off nor illegal, are given back by their tokens. -/
theorem Lexer.Lexes.whole {lexer : Lexer} {steps : List LexStep} (lexes : lexer.Lexes steps)
    (uncut : ∀ step ∈ steps, step.cutoff? = none) (legal : ∀ token ∈ LexStep.tokens steps, token.kind ≠ .illegal) :
    steps = (LexStep.tokens steps).map .token := by
  induction lexes with
  | ended => rfl
  | comment => cases uncut _ (List.mem_singleton_self _)
  | @more _ _ step later reads goesOn _ ih =>
    have rest := ih (fun other mem => uncut other (List.mem_cons_of_mem _ mem))
    cases step with
    | token token =>
      exact congrArg (LexStep.token token :: ·) (rest fun other mem => legal other (List.mem_cons_of_mem _ mem))
    | truncated => cases uncut _ List.mem_cons_self
    | invalid token => exact absurd reads.kind (legal token List.mem_cons_self)
    | incomplete | endOfInput => cases goesOn

namespace TokenStream

variable {origin point : TokenStream} {taken : List Token} {steps : List LexStep} {lexer : Lexer}

theorem Visits.serves (visits : origin.Visits taken point) (lexes : lexer.Lexes steps) (start : origin.Serves steps 0) :
    taken = (LexStep.tokens steps).take taken.length ∧ point.Serves steps taken.length := by
  induction visits with
  | start => exact ⟨rfl, start⟩
  | @peek taken point after index found _ peeked ih =>
    obtain ⟨same, serves⟩ := ih
    have near : index ≤ maxLookahead := Nat.le_of_not_lt fun far => by
      rw [show point.peek index = _ from serve_far (.peek index) far] at peeked
      cases peeked
    obtain ⟨_, served, serves', -⟩ := serves.serve lexes (.peek index) near
    cases (show point.peek index = _ from served).symm.trans peeked
    have few : taken.length ≤ (LexStep.tokens steps).length := Nat.le_trans serves.taken serves.scanned
    exact ⟨same, Nat.min_eq_left few ▸ serves'⟩
  | @next taken point after token _ took ih =>
    obtain ⟨same, serves⟩ := ih
    obtain ⟨_, served, serves', -⟩ := serves.serve lexes .next (Nat.zero_le _)
    obtain ⟨isToken, rfl⟩ := Prod.mk.inj ((show point.next = _ from served).symm.trans took)
    have isToken : (LexStep.tokens steps)[taken.length]? = some token := Except.ok.inj isToken
    have less := (List.getElem?_eq_some_iff.mp isToken).1
    have oneMore : [StreamCall.next].count .next = 1 := rfl
    rw [oneMore, Nat.min_eq_left less] at serves'
    rw [List.length_append, List.length_singleton, List.take_add_one, isToken, ← same]
    exact ⟨rfl, serves'⟩
  | noteEnd _ ih => exact ⟨ih.1, ih.2.noteEnd⟩

theorem Serves.looked {number : Nat} {found : Option Token} (serves : point.Serves steps number)
    (lexes : lexer.Lexes steps) {after : TokenStream} (looked : point.peek 0 = (.ok found, after)) :
    found = (LexStep.tokens steps)[number]? := by
  obtain ⟨_, served, -⟩ := serves.serve lexes (.peek 0) (Nat.zero_le _)
  exact Except.ok.inj (congrArg Prod.fst (looked.symm.trans served))

theorem tokens_map (tokens : List Token) : LexStep.tokens (tokens.map .token) = tokens := by
  induction tokens with
  | nil => rfl
  | cons token later ih => exact congrArg (token :: ·) ih

/-- When a stream has given away everything, and nothing of it is cut off or illegal, the lexer yields these tokens and
no other step. -/
theorem Visits.collects {text : List Char} {limit : Nat} (visits : (ofText text limit).Visits taken point)
    (ahead : point.lookahead = []) (exhausted : point.exhausted = true) (whole : point.tail = none)
    (legal : ∀ token ∈ taken, token.kind ≠ .illegal) :
    ∃ last, (Lexer.ofText 0 text).steps = (.ok (taken.map .token), last) := by
  obtain ⟨last, gives, -, ended⟩ := (visits.traces (ofText_traces text limit)).gives
  rw [ahead, List.append_nil, show point.text = text from visits.text] at gives
  obtain ⟨steps, scanned, tokens⟩ := gives.steps (ended exhausted whole)
  rcases isSteps : (Lexer.ofText 0 text).steps with ⟨result, behind⟩
  obtain rfl : result = .ok steps := by rw [← scanned, isSteps]
  have collects := Lexer.Collects.of_steps isSteps
  have counted := visits.counted ⟨rfl, rfl, Nat.zero_le limit⟩
  have room : (LexStep.tokens steps).length ≤ limit := by
    rw [LexStep.tokens, tokens, ← Nat.zero_add taken.length]
    exact Nat.le_trans counted.number_le counted.within
  obtain ⟨-, serves⟩ := visits.serves collects.lexes (ofText_serves collects room)
  obtain ⟨uncut, nothing⟩ := serves.uncut whole
  have all : steps.take point.scanned = steps := by
    have parts := List.take_append_drop point.scanned steps
    rwa [nothing exhausted, List.append_nil] at parts
  rw [all] at uncut
  have same := collects.lexes.whole uncut (by rwa [LexStep.tokens, tokens])
  rw [same, LexStep.tokens, tokens]
  exact ⟨behind, rfl⟩

end TokenStream

section

variable {limit number : Nat} {state begun after : ParseState} {statement : Statement} {origin : TokenStream}
  {own : Nat}

private theorem Grammar.topLevelStatement_span {first : Token} (front : begun.stream.lookahead.head? = some first)
    (ran : topLevelStatement limit begun = .ok statement after) : statement.span = first.span.merge after.lastSpan := by
  unfold topLevelStatement at ran
  cases isLeft : limit - begun.depth with
  | zero =>
    rw [isLeft] at ran
    obtain ⟨_, _, -, ran⟩ := of_bind_ok (show (beyondLimit limit : Parse Statement) begun = _ from ran)
    obtain ⟨_, _, -, ran⟩ := of_bind_ok ran
    cases ran
  | succ left =>
    rw [isLeft] at ran
    have ran : statementBody (levels limit left) .topLevel begun = .ok statement after := ran
    have looked : peek 0 begun = .ok (some first) begun := onStream_ok (TokenStream.peek_front front)
    obtain ⟨found, begun', looked', ran⟩ := of_bind_ok ran
    cases looked.symm.trans looked'
    obtain ⟨kind, ended, -, ran⟩ := of_bind_ok ran
    rw [bind_ok (show spanFrom first.span ended = .ok (first.span.merge ended.lastSpan) ended from rfl)] at ran
    cases ran
    rfl

private theorem Grammar.topLevelStatement_written {last : Token} {taken : List Token}
    (ran : topLevelStatement limit begun = .ok statement after) (visits : origin.Visits taken after.stream)
    (isLast : taken.getLast? = some last) : isSemicolon last.kind = false := by
  refine (topLevelStatement_finishes limit begun statement after ⟨nofun, nofun⟩ ran).not_semicolon ?_
  rw [visits.lastConsumed, isLast]
  rfl

theorem Consumed.topLevelStatement (start : origin.Counted own 0) (consumed : Consumed origin number begun)
    (ran : Grammar.topLevelStatement limit begun = .ok statement after) : ∃ reached, Consumed origin reached after := by
  have outcome := ((Grammar.levels_deep (Coupling.consumed_lawful start) limit (limit - begun.depth)).statement
    .topLevel number).outcome
    begun begun ⟨number, Nat.le_refl _, rfl, consumed⟩
  rw [show (Grammar.levels limit (limit - begun.depth)).statement .topLevel begun = _ from ran] at outcome
  obtain ⟨-, reached, -, -, consumed⟩ := outcome.resolve_left And.left
  exact ⟨reached, consumed⟩

private theorem Consumed.terminator {semicolon : Bool} {found : Option Token} {ended noted closed : ParseState}
    (consumed : Consumed origin number ended) (looked : Parse.peek 0 ended = .ok found noted)
    (behind : semicolon = (found.map (·.kind)).any isSemicolon)
    (bumped : semicolon = true → Parse.bump noted = .ok () closed) (skipped : semicolon = false → closed = noted) :
    Consumed origin (number + semicolon.toNat) closed := by
  have consumedNoted := consumed.peek looked
  cases semicolon with
  | false => exact skipped rfl ▸ consumedNoted
  | true =>
    have there := (TokenStream.peek_lookahead (of_onStream_ok looked)).2
    cases found with
    | none => cases behind
    | some token =>
      obtain ⟨later, front⟩ := List.head?_eq_some_iff.mp (List.head?_eq_getElem?.trans there.symm)
      refine (consumedNoted.bump front (fun illegal => ?_) (bumped rfl)).1
      rw [Option.map_some, Option.any_some, illegal] at behind
      cases behind

private theorem of_atSemicolon {semicolon : Bool} (ran : atSemicolon state = .ok semicolon after) :
    ∃ found, peek 0 state = .ok found after ∧ semicolon = (found.map (·.kind)).any isSemicolon := by
  simp only [atSemicolon, peekKind, bind_assoc, pure_bind] at ran
  obtain ⟨found, reached, looked, ran⟩ := of_bind_ok ran
  cases ran
  exact ⟨found, looked, rfl⟩

end

theorem Lexer.Lexes.merge {lexer : Lexer} {tokens : List Token} (lexes : lexer.Lexes (tokens.map .token)) {number : Nat}
    {first last : Token} (isFirst : tokens[0]? = some first) (isLast : tokens[number]? = some last) :
    (first.span.merge last.span).start = first.span.start ∧ (first.span.merge last.span).stop = last.span.stop := by
  have there : ∀ (place : Nat) (token : Token), tokens[place]? = some token →
      (tokens.map LexStep.token)[place]? = some (LexStep.token token) := by
    intro place token isThere
    rw [List.getElem?_map, isThere]
    rfl
  have before := first.span.ordered
  have behind := last.span.ordered
  cases number with
  | zero =>
    cases isFirst.symm.trans isLast
    exact ⟨Nat.min_self _, Nat.max_self _⟩
  | succ number =>
    have ordered := lexes.ordered (Nat.succ_pos number) (there _ _ isFirst) rfl (there _ _ isLast) rfl
    simp only [Span.merge]
    omega

/-- How a text is read as a statement: the tokens of the statement first, and then the semicolon behind it, if
there is one. -/
structure ReadsWhole (limits : Limits) (text : List Char) (statement : Statement) (tokens taken : List Token)
    (first : Token)
    (begun ended noted : ParseState) : Prop where
  steps : ∃ last, (Lexer.ofText 0 text).steps = (.ok (tokens.map .token), last)
  legal : ∀ token ∈ tokens, token.kind ≠ .illegal
  looked : Parse.peek 0 (.ofText limits text) = .ok (some first) begun
  isFirst : tokens[0]? = some first
  read : Grammar.topLevelStatement limits.maxNesting begun = .ok statement ended
  lookedBehind : Parse.peek 0 ended = .ok tokens[taken.length]? noted
  visits : (TokenStream.ofText text limits.maxTokens).Visits taken ended.stream
  isTaken : taken = tokens.take taken.length
  nonempty : taken ≠ []
  length : tokens.length = taken.length + ((tokens[taken.length]?.map (·.kind)).any isSemicolon).toNat
  lastSpan : ∀ last, taken.getLast? = some last → ended.lastSpan = last.span

theorem ReadsWhole.exists_last {limits : Limits} {text : List Char} {tokens taken : List Token} {first : Token}
    {ended noted : ParseState} (reads : ReadsWhole limits text statement tokens taken first begun ended noted) :
    ∃ last, taken.getLast? = some last ∧ tokens[taken.length - 1]? = some last := by
  obtain ⟨last, ends⟩ : ∃ last, taken.getLast? = some last := by
    cases isEnd : taken.getLast? with
    | none => exact absurd (List.getLast?_eq_none_iff.mp isEnd) reads.nonempty
    | some last => exact ⟨last, rfl⟩
  have positive := List.length_pos_iff.mpr reads.nonempty
  have same : taken[taken.length - 1]? = (tokens.take taken.length)[taken.length - 1]? := by rw [← reads.isTaken]
  refine ⟨last, ends, ?_⟩
  rw [← ends, List.getLast?_eq_getElem?, same, List.getElem?_take_of_lt (Nat.sub_lt positive Nat.one_pos)]

namespace Parser

variable {limits : Limits} {text : List Char} {collector : Collector} {report : Report} {parser : Parser}
  {statement : Statement}

theorem wholeText_reads {after : ParseState}
    (ran : Grammar.wholeText limits.maxNesting (.ofText limits text) = .ok statement after)
    (whole : after.stream.tail = none) :
    ∃ tokens taken first begun ended noted, ReadsWhole limits text statement tokens taken first begun ended noted ∧
      after.stream.scanned = tokens.length ∧ (TokenStream.ofText text limits.maxTokens).Visits tokens after.stream := by
  obtain ⟨first, begun, ended, noted, closed, semicolon, looked, written, read, asked, bumped, skipped, atEnd⟩ :=
    wholeText_parts ran
  obtain ⟨found, looked', isSemicolon⟩ := of_atSemicolon asked
  have start : (TokenStream.ofText text limits.maxTokens).Counted limits.maxTokens 0 := ⟨rfl, rfl, Nat.zero_le _⟩
  have consumedFirst : Consumed (.ofText text limits.maxTokens) 0 begun :=
    Consumed.peek ⟨[], .start, rfl, nofun, nofun⟩ looked
  obtain ⟨number, consumedLast⟩ := consumedFirst.topLevelStatement start read
  have consumedAll := consumedLast.terminator looked' isSemicolon bumped skipped
  obtain ⟨tokens, visits, length, legal, -⟩ := consumedAll.peek atEnd
  have nothing : after.stream.lookahead = [] := by
    have there := (TokenStream.peek_lookahead (of_onStream_ok atEnd)).2
    rwa [← List.head?_eq_getElem?, eq_comm, List.head?_eq_none_iff] at there
  obtain ⟨last, collected⟩ := visits.collects nothing (wholeText_exhausted ran) whole legal
  have collects := Lexer.Collects.of_steps collected
  have counted := visits.counted start
  have scanned : after.stream.scanned = tokens.length := by
    rw [counted.count, nothing, Nat.zero_add]
    rfl
  have room : (LexStep.tokens (tokens.map .token)).length ≤ limits.maxTokens := by
    rw [TokenStream.tokens_map, ← scanned]
    exact counted.within
  have serves := TokenStream.ofText_serves collects room
  obtain ⟨taken, visits', rfl, -, isLast⟩ := consumedLast
  obtain ⟨isTaken, serves'⟩ := visits'.serves collects.lexes serves
  have isFirst : some first = tokens[0]? := by
    rw [← TokenStream.tokens_map tokens]
    exact serves.looked collects.lexes (of_onStream_ok looked)
  have isFound : found = tokens[taken.length]? := by
    rw [← TokenStream.tokens_map tokens]
    exact serves'.looked collects.lexes (of_onStream_ok looked')
  rw [TokenStream.tokens_map] at isTaken
  -- A statement that had consumed nothing would have been asked to end where it begins, at a token that is no
  -- semicolon.
  have nonempty : taken ≠ [] := by
    rintro rfl
    rw [show tokens[([] : List Token).length]? = some first from isFirst.symm] at isFound
    rw [isFound, Option.map_some, Option.any_some, written] at isSemicolon
    subst isSemicolon
    rw [List.length_eq_zero_iff.mp length] at isFirst
    cases isFirst
  rw [isFound] at looked' isSemicolon
  exact ⟨tokens, taken, first, begun, ended, noted,
    ⟨⟨last, collected⟩, legal, looked, isFirst.symm, read, looked', visits', isTaken, nonempty,
    isSemicolon ▸ length, isLast⟩, scanned, visits⟩

private theorem wholeText_covers {after : ParseState}
    (ran : Grammar.wholeText limits.maxNesting (.ofText limits text) = .ok statement after)
    (whole : after.stream.tail = none) :
    ∃ tokens, (∃ last, (Lexer.ofText 0 text).steps = (.ok (tokens.map .token), last)) ∧
      (∀ token ∈ tokens, token.kind ≠ .illegal) ∧ after.stream.scanned = tokens.length ∧
      (TokenStream.ofText text limits.maxTokens).Visits tokens after.stream ∧
      ∃ first last, tokens.head? = some first ∧ (withoutTerminator tokens).getLast? = some last ∧
        statement.span.start = first.span.start ∧ statement.span.stop = last.span.stop := by
  obtain ⟨tokens, taken, first, begun, ended, noted, reads, scanned, visits⟩ := wholeText_reads ran whole
  refine ⟨tokens, reads.steps, reads.legal, scanned, visits, ?_⟩
  obtain ⟨_, collected⟩ := reads.steps
  obtain ⟨last, ends, isThere⟩ := reads.exists_last
  have reaches : withoutTerminator tokens = taken := withoutTerminator_taken reads.isTaken reads.length rfl ends
    (Grammar.topLevelStatement_written reads.read reads.visits ends)
  have front : begun.stream.lookahead.head? = some first := by
    rw [List.head?_eq_getElem?]
    exact (TokenStream.peek_lookahead (of_onStream_ok reads.looked)).2.symm
  rw [Grammar.topLevelStatement_span front reads.read, reads.lastSpan last ends, reaches]
  exact ⟨first, last, List.head?_eq_getElem?.trans reads.isFirst, ends,
    (Lexer.Collects.of_steps collected).lexes.merge reads.isFirst isThere⟩

/-- A complete statement accounts for its text. The lexer yields tokens and no other step for it, none of them illegal;
their number is that of the report, and the parse has taken each of them once. The span of the statement reaches from
the start of the first token to the end of the last one, but for the semicolon that ends the statement. -/
theorem parse_covers (parsed : (ofText limits text collector).parse = (.ok report, parser))
    (complete : report.verdict = .complete statement) :
    ∃ tokens, (Lexer.ofText 0 text).steps.1 = .ok (tokens.map .token) ∧ (∀ token ∈ tokens, token.kind ≠ .illegal) ∧
      report.tokensScanned = tokens.length ∧
      (TokenStream.ofText text limits.maxTokens).Visits tokens parser.state.stream ∧
      ∃ first last, tokens.head? = some first ∧ (withoutTerminator tokens).getLast? = some last ∧
        statement.span.start = first.span.start ∧ statement.span.stop = last.span.stop := by
  obtain ⟨after, ran, whole⟩ := parse_complete parsed complete
  have isState := parse_ended parsed
  have concludes := parse_concludes parsed
  rw [ran] at isState concludes
  obtain ⟨tokens, ⟨_, collected⟩, legal, scanned, visits, spans⟩ := wholeText_covers ran whole
  refine ⟨tokens, congrArg Prod.fst collected, legal, concludes.1.trans scanned, ?_, spans⟩
  rw [isState]
  exact visits

/-- The second semicolon ends the statement; the first one stands in it. -/
theorem parse_covers_block : ∃ report parser statement tokens,
    (ofText {} "\n \x7b x; \x7d ;".toList {}).parse = (.ok report, parser) ∧ report.verdict = .complete statement ∧
      (Lexer.ofText 0 "\n \x7b x; \x7d ;".toList).steps.1 = .ok (tokens.map .token) ∧
      report.tokensScanned = tokens.length ∧
      ∃ last, (withoutTerminator tokens).getLast? = some last ∧ statement.span.stop = last.span.stop := by
  obtain ⟨report, parser, parsed, computed⟩ := @reported_of_decide {} "\n \x7b x; \x7d ;".toList {}
    (fun report _ => decide (report.verdict = .complete ⟨.block, ⟨0, 2, 8, by decide⟩⟩)) (by decide +kernel)
  have complete := of_decide_eq_true computed
  obtain ⟨tokens, collected, -, scanned, -, _, last, -, isLast, -, stop⟩ := parse_covers parsed complete
  exact ⟨report, parser, _, tokens, parsed, complete, collected, scanned, last, isLast, stop⟩

end Parser

end GoPrompt
