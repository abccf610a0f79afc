import GoPrompt.Proofs.Lexical.Collected
import GoPrompt.Proofs.Stream.Calls
import GoPrompt.Proofs.Stream.Onward
import GoPrompt.Proofs.Stream.Traces

/-! What calls on a stream answer once a call has failed. A lexer that fails at the first character of a token fails
there again; behind a NUL character in a comment it goes on, and the stream gives tokens that the text does not have. A
token that the budget refuses is lost, so at last the stream finds the end of a text that it has not given away. -/

namespace GoPrompt

namespace Lexer

/-- Whether the scan of a text stops at a NUL character in a comment. -/
def FailsInComment (lexer : Lexer) : Prop :=
  ∃ given last stop length, lexer.Gives given last ∧ gap last.armed 0 0 last.rest = (stop, .nulInComment length)

theorem skip_zero (lexer : Lexer) : lexer.skip 0 = lexer := rfl

private theorem next_forbidden {lexer : Lexer} {first : Char} {rest : List Char} (here : lexer.rest = first :: rest)
    (fits : lexer.offset ≤ maxOffset) {fault : LexFault} (forbidden : first = '\x00' ∨ first = byteOrderMark)
    (failed : lexer.stepAt (.token first) = (.error fault, lexer)) : lexer.next = (.error fault, lexer) := by
  have stands : gap lexer.armed 0 0 lexer.rest = (0, .token first) := by
    rw [here]
    rcases forbidden with rfl | rfl <;> rfl
  simp only [next, advance, stands, skip_zero, failed, if_pos fits]

/-- Unless it has failed in a comment, a lexer that has failed fails again, and stays where it is. -/
private theorem next_again {lexer after : Lexer} {fault : LexFault} (failed : lexer.next = (.error fault, after))
    (outside : ∀ stop length, gap lexer.armed 0 0 lexer.rest ≠ (stop, .nulInComment length)) :
    after.next = (.error fault, after) := by
  rcases advanced : lexer.advance with ⟨result, behind⟩
  by_cases fits : behind.offset ≤ maxOffset
  case neg =>
    have stalled := failed
    simp only [next, advanced, if_neg fits] at stalled
    obtain ⟨-, rfl⟩ := Prod.mk.inj stalled
    exact failed
  simp only [next, advanced, if_pos fits] at failed
  obtain ⟨rfl, rfl⟩ := Prod.mk.inj failed
  rcases skipped : gap lexer.armed 0 0 lexer.rest with ⟨stop, landmark⟩
  simp only [advance, skipped] at advanced
  cases landmark with
  | token first =>
    obtain ⟨rest, here⟩ := gap_begins skipped
    have ahead : (lexer.skip stop).rest = first :: rest := here
    have stays : ∀ {cause : LexFault}, (first = '\x00' ∨ first = byteOrderMark) →
        (lexer.skip stop).stepAt (.token first) = (.error cause, lexer.skip stop) →
          behind.next = (.error fault, behind) := by
      intro cause forbidden stopped
      obtain ⟨isFault, rfl⟩ := Prod.mk.inj (stopped.symm.trans advanced)
      cases isFault
      exact next_forbidden ahead fits forbidden stopped
    by_cases nul : first = '\x00'
    · exact stays (.inl nul) (if_pos nul)
    by_cases mark : first = byteOrderMark
    · exact stays (.inr mark) ((if_neg nul).trans (if_pos mark))
    obtain ⟨step, accepted⟩ := accept_ok ahead
    simp only [stepAt, if_neg nul, if_neg mark, ahead, List.drop_one, List.tail_cons] at advanced
    rw [advanced] at accepted
    cases accepted
  | nulInComment length => exact absurd skipped (outside stop length)
  | lineEnd | openComment => cases advanced
  | endOfInput =>
    simp only [stepAt] at advanced
    split at advanced <;> cases advanced

end Lexer

namespace TokenStream

/-- Where a stream stands that has shown these tokens of a text. It goes on behind them, the lexer does not come
further, the budget has refused a token, or there are no more tokens. -/
inductive Shows (origin : Lexer) (shown : List Token) (refused : Prop) (stream : TokenStream) : Prop
  | running (gives : origin.Gives shown stream.lexer) (more : stream.exhausted = false)
  | stuck {last : Lexer} {fault : LexFault} (gives : origin.Gives shown last) (more : stream.exhausted = false)
      (failed : stream.lexer.next = (.error fault, stream.lexer))
  | full {last : Lexer} (gives : origin.Gives shown last) (full : stream.maxTokens ≤ stream.scanned)
      (isRefused : refused)
  | ended {last : Lexer} {steps : List LexStep} (gives : origin.Gives shown last) (exhausted : stream.exhausted = true)
      (collected : origin.steps.1 = .ok steps) (all : LexStep.tokens steps = shown)

/-- What a stream shows once it has looked for more tokens, and whether the budget has refused one by then. -/
def ShowsMore (origin : Lexer) (shown : List Token) (refused : Prop) (stream : TokenStream)
    (outcome : Except ParseError Unit × TokenStream) : Prop :=
  ∃ fresh, outcome.2.lookahead = stream.lookahead ++ fresh ∧ outcome.2.maxTokens = stream.maxTokens ∧
    outcome.2.Shows origin (shown ++ fresh) (refused ∨
      ∃ span, outcome.1 = .error (.tokenLimitExceeded stream.maxTokens span))

section

variable {origin : Lexer} {shown : List Token} {refused : Prop} {stream after : TokenStream}
  {result : Except ParseError Unit}

theorem Shows.gives (shows : stream.Shows origin shown refused) : ∃ last, origin.Gives shown last := by
  cases shows with
  | running gives | stuck gives | full gives | ended gives => exact ⟨_, gives⟩

theorem Shows.mono {refused' : Prop} (shows : stream.Shows origin shown refused) (implies : refused → refused') :
    stream.Shows origin shown refused' := by
  cases shows with
  | running gives more => exact .running gives more
  | stuck gives more failed => exact .stuck gives more failed
  | full gives full isRefused => exact .full gives full (implies isRefused)
  | ended gives exhausted collected all => exact .ended gives exhausted collected all

theorem Shows.congr (shows : stream.Shows origin shown refused) (lexer : after.lexer = stream.lexer)
    (exhausted : after.exhausted = stream.exhausted) (maxTokens : after.maxTokens = stream.maxTokens)
    (scanned : after.scanned = stream.scanned) : after.Shows origin shown refused := by
  cases shows with
  | running gives more => exact .running (lexer ▸ gives) (exhausted.trans more)
  | stuck gives more failed => exact .stuck gives (exhausted.trans more) (lexer ▸ failed)
  | full gives full isRefused => exact .full gives (maxTokens ▸ scanned ▸ full) isRefused
  | ended gives isExhausted collected all => exact .ended gives (exhausted.trans isExhausted) collected all

theorem Shows.stay (shows : stream.Shows origin shown refused) (result : Except ParseError Unit) :
    stream.ShowsMore origin shown refused (result, stream) :=
  ⟨[], (List.append_nil _).symm, rfl, (List.append_nil shown).symm ▸ shows.mono .inl⟩

theorem ShowsMore.trans {between : TokenStream} (first : stream.ShowsMore origin shown refused (.ok (), between))
    (second : ∀ shown', between.Shows origin shown' refused → between.ShowsMore origin shown' refused (result, after)) :
    stream.ShowsMore origin shown refused (result, after) := by
  obtain ⟨fresh, ahead, budget, shows⟩ := first
  obtain ⟨fresh', ahead', budget', shows'⟩ := second _ (shows.mono fun either => either.elim id nofun)
  dsimp only at ahead budget ahead' budget' shows'
  refine ⟨fresh ++ fresh', ?_, budget'.trans budget, ?_⟩
  · rw [← List.append_assoc, ← ahead]
    exact ahead'
  · rwa [← List.append_assoc, ← budget]

theorem Shows.found {step : LexStep} {token : Token} {lexer : Lexer} (gives : origin.Gives shown stream.lexer)
    (more : stream.exhausted = false) (answered : stream.lexer.next = (.ok step, lexer))
    (isToken : step.token? = some token) :
    (stream.withFound step token lexer).Shows origin (shown ++ [token]) refused := by
  have given := gives.concat answered isToken
  have exhausted : (stream.withFound step token lexer).exhausted = step.cutoff?.isSome := by
    show (step.cutoff?.isSome || stream.exhausted) = _
    rw [more, Bool.or_false]
  cases step with
  | token | invalid => exact .running given exhausted
  | incomplete | endOfInput => cases isToken
  | truncated cut cutoff =>
    -- Nothing comes behind a token that is cut off.
    obtain ⟨empty, unarmed⟩ := (Lexer.Reads.of_next answered).truncated_ends
    obtain ⟨steps, collected, all⟩ := given.all (Lexer.next_at_end empty unarmed (Lexer.offset_le_of_next answered)) rfl
    exact .ended given exhausted collected all

/-- What a fetch leaves, unless the lexer fails in a comment. -/
theorem Shows.fetch (shows : stream.Shows origin shown refused) (running : stream.exhausted = false)
    (fetched : stream.fetch = (result, after))
    (readable : (∀ fault, result ≠ .error (.ofLexFault fault)) ∨ ¬ origin.FailsInComment) :
    stream.ShowsMore origin shown refused (result, after) := by
  have fetches := stream.fetch_fetches
  rw [fetched] at fetches
  cases shows with
  | ended _ exhausted => cases running.symm.trans exhausted
  | full gives full isRefused =>
    -- Nothing is found any more, whatever the lexer does.
    cases fetches with
    | fault | refused | ended =>
      exact ⟨[], (List.append_nil _).symm, rfl, .full (List.append_nil shown ▸ gives) full (.inl isRefused)⟩
    | found _ _ room => exact absurd room (Nat.not_lt.mpr full)
  | stuck gives more failed =>
    cases fetches with
    | fault answered =>
      cases failed.symm.trans answered
      exact ⟨[], (List.append_nil _).symm, rfl, .stuck (List.append_nil shown ▸ gives) more failed⟩
    | refused answered | found answered | ended answered => cases failed.symm.trans answered
  | running gives more =>
    cases fetches with
    | fault answered =>
      have outside : ∀ stop length, gap stream.lexer.armed 0 0 stream.lexer.rest ≠ (stop, .nulInComment length) := by
        intro stop length skipped
        rcases readable with noFault | notThere
        · exact noFault _ rfl
        · exact notThere ⟨_, _, _, _, gives, skipped⟩
      exact ⟨[], (List.append_nil _).symm, rfl,
        .stuck (List.append_nil shown ▸ gives) more (Lexer.next_again answered outside)⟩
    | @refused _ token _ answered isToken full =>
      exact ⟨[], (List.append_nil _).symm, rfl, .full (List.append_nil shown ▸ gives) full (.inr ⟨token.span, rfl⟩)⟩
    | found answered isToken => exact ⟨_, rfl, rfl, .found gives more answered isToken⟩
    | ended answered ends =>
      obtain ⟨steps, collected, all⟩ := gives.all answered ends
      rw [← List.append_nil shown] at gives all
      exact ⟨[], (List.append_nil _).symm, rfl, .ended gives rfl collected all⟩

theorem Shows.fill (shows : stream.Shows origin shown refused) {missing : Nat}
    (filled : fill missing stream = (result, after))
    (readable : (∀ fault, result ≠ .error (.ofLexFault fault)) ∨ ¬ origin.FailsInComment) :
    stream.ShowsMore origin shown refused (result, after) := by
  fun_induction TokenStream.fill missing stream generalizing shown with
  | case1 | case2 =>
    obtain ⟨-, rfl⟩ := Prod.mk.inj filled
    exact shows.stay _
  | case3 _ _ running _ fetched further =>
    have shown := shows.fetch (Bool.eq_false_iff.mpr running) fetched (.inl fun _ failed => by cases failed)
    exact shown.trans fun _ shows' => further shows' filled
  | case4 _ _ running => exact shows.fetch (Bool.eq_false_iff.mpr running) filled readable

/-- A call takes the token that it answers if it asks for the next one, and leaves the others. -/
theorem Shows.settle (shows : stream.Shows origin shown refused) (call : StreamCall) :
    (stream.settle call).Shows origin shown refused ∧ (stream.settle call).maxTokens = stream.maxTokens ∧
      StreamCall.taken [call] [.ok stream.lookahead[call.reach]?] ++
        (stream.settle call).lookahead = stream.lookahead := by
  cases call with
  | peek index =>
    simp only [TokenStream.settle]
    split <;> exact ⟨shows.congr rfl rfl rfl rfl, rfl, rfl⟩
  | next =>
    simp only [TokenStream.settle, StreamCall.reach]
    cases front : stream.lookahead with
    | nil => exact ⟨shows.congr rfl rfl rfl rfl, rfl, front⟩
    | cons token later => exact ⟨shows.congr rfl rfl rfl rfl, rfl, rfl⟩

end

/-- What calls have been answered, and where the stream stands behind them. -/
structure Survives (origin : Lexer) (limit : Nat) (calls : List StreamCall)
    (answers : List (Except ParseError (Option Token)))
    (stream : TokenStream) : Prop where
  length : answers.length = calls.length
  budget : stream.maxTokens = limit
  shows : stream.Shows origin (StreamCall.taken calls answers ++ stream.lookahead)
    (∃ span, Except.error (.tokenLimitExceeded limit span) ∈ answers)

section

variable {origin : Lexer} {limit : Nat} {calls : List StreamCall} {answers : List (Except ParseError (Option Token))}
  {stream : TokenStream}

theorem Survives.serve (survives : stream.Survives origin limit calls answers) (call : StreamCall)
    (readable : (∀ fault, (stream.serve call).1 ≠ .error (.ofLexFault fault)) ∨ ¬ origin.FailsInComment) :
    (stream.serve call).2.Survives origin limit (calls ++ [call]) (answers ++ [(stream.serve call).1]) := by
  have length : (answers ++ [(stream.serve call).1]).length = (calls ++ [call]).length := by
    rw [List.length_append, List.length_append, survives.length]
    rfl
  have taken := StreamCall.taken_concat survives.length call
  have budget := survives.budget
  have failed : ∀ error, StreamCall.taken [call] [.error error] = [] := fun error => by cases call <;> rfl
  by_cases near : call.reach ≤ maxLookahead
  case neg =>
    rw [serve_far call (Nat.lt_of_not_le near)] at length ⊢
    refine ⟨length, budget, ?_⟩
    rw [taken, failed, List.append_nil]
    exact survives.shows.mono fun ⟨span, mem⟩ => ⟨span, List.mem_append_left _ mem⟩
  rcases isFilled : stream.fillTo call.reach with ⟨result, filled⟩
  cases result with
  | error error =>
    have answered := serve_unfilled call near isFilled
    rw [answered] at readable length ⊢
    obtain ⟨fresh, ahead, budget', shows⟩ := survives.shows.fill isFilled (readable.imp_left fun noFault fault same =>
      noFault fault (congrArg Except.error (Except.error.inj same)))
    refine ⟨length, budget'.trans budget, ?_⟩
    dsimp only at ahead shows ⊢
    rw [taken, failed, List.append_nil, ahead, ← List.append_assoc]
    refine shows.mono fun either =>
      either.elim (fun ⟨span, mem⟩ => ⟨span, List.mem_append_left _ mem⟩) fun ⟨span, same⟩ => ⟨span, ?_⟩
    rw [budget] at same
    exact List.mem_append_right _ (List.mem_singleton.mpr (congrArg Except.error (Except.error.inj same)).symm)
  | ok =>
    rw [serve_filled call near isFilled] at length ⊢
    obtain ⟨fresh, ahead, budget', shows⟩ := survives.shows.fill isFilled (.inl nofun)
    obtain ⟨settled, budget'', parts⟩ := shows.settle call
    refine ⟨length, budget''.trans (budget'.trans budget), ?_⟩
    dsimp only at ahead settled parts ⊢
    rw [taken, List.append_assoc, parts, ahead, ← List.append_assoc]
    exact settled.mono fun either => either.elim (fun ⟨span, mem⟩ => ⟨span, List.mem_append_left _ mem⟩) nofun

private theorem serveAll_survives (more : List StreamCall) (survives : stream.Survives origin limit calls answers)
    (readable : (∀ fault, Except.error (.ofLexFault fault) ∉ (serveAll more stream).1) ∨ ¬ origin.FailsInComment) :
    (serveAll more stream).2.Survives origin limit (calls ++ more) (answers ++ (serveAll more stream).1) := by
  induction more generalizing stream calls answers with
  | nil => simpa only [List.append_nil, serveAll] using survives
  | cons call more ih =>
    rw [serveAll_cons] at readable ⊢
    have one := survives.serve call (readable.imp_left fun noFault fault same =>
      noFault fault (same ▸ List.mem_cons_self))
    have rest := ih one (readable.imp_left fun noFault fault mem => noFault fault (List.mem_cons_of_mem _ mem))
    rwa [List.append_assoc, List.append_assoc] at rest

end

/-- Whether or not some of the calls have failed, a reader that asks for one token after the other gets the first tokens
of the text, as long as the lexer has not failed in a comment. It is told that there are no more of them only when it
has got all tokens of a text that can be scanned, or when the budget has refused one before. -/
theorem serveAll_firstTokens {text : List Char} {limit : Nat} {calls : List StreamCall}
    {answers : List (Except ParseError (Option Token))} {stream : TokenStream}
    (served : serveAll calls (ofText text limit) = (answers, stream))
    (readable : (∀ fault, Except.error (.ofLexFault fault) ∉ answers) ∨ ¬ (Lexer.ofText 0 text).FailsInComment) :
    StreamCall.taken calls answers = (Lexer.ofText 0 text).tokens (StreamCall.taken calls answers).length ∧
      (stream.next.1 = .ok none → (∀ span, Except.error (.tokenLimitExceeded limit span) ∉ answers) →
        ∃ steps, (Lexer.ofText 0 text).steps.1 = .ok steps ∧
          LexStep.tokens steps = StreamCall.taken calls answers) := by
  have start : (ofText text limit).Survives (Lexer.ofText 0 text) limit [] [] := ⟨rfl, rfl, .running (.none _) rfl⟩
  have survives := serveAll_survives calls start (by rwa [served])
  rw [served, List.nil_append, List.nil_append] at survives
  dsimp only at survives
  obtain ⟨last, gives⟩ := survives.shows.gives
  refine ⟨?_, fun finished unrefused => ?_⟩
  · have within : (StreamCall.taken calls answers).length ≤
        (StreamCall.taken calls answers ++ stream.lookahead).length := by
      rw [List.length_append]
      exact Nat.le_add_right _ _
    rw [gives.tokens within, List.take_left]
  · rcases isFilled : stream.fillTo 0 with ⟨result, filled⟩
    cases result with
    | error error =>
      have answered : stream.next = (.error error, filled) := serve_unfilled .next (Nat.zero_le _) isFilled
      rw [answered] at finished
      cases finished
    | ok =>
      have answered : stream.next = (.ok filled.lookahead[0]?, _) := serve_filled .next (Nat.zero_le _) isFilled
      rw [answered] at finished
      have empty : filled.lookahead = [] := by
        rw [← List.head?_eq_none_iff, List.head?_eq_getElem?]
        exact Except.ok.inj finished
      have exhausted : filled.exhausted = true :=
        (fill_ahead isFilled).resolve_left (by rw [empty, List.length_nil]; omega)
      obtain ⟨fresh, ahead, -, shows⟩ := survives.shows.fill isFilled (.inl nofun)
      dsimp only at ahead shows
      rw [List.append_assoc, ← ahead, empty, List.append_nil] at shows
      cases shows with
      | running _ more | stuck _ more => cases exhausted.symm.trans more
      | full _ _ isRefused =>
        obtain ⟨span, mem⟩ := isRefused.elim id nofun
        exact absurd mem (unrefused span)
      | ended _ _ collected all => exact ⟨_, collected, all⟩

/-- Where the budget has room for two tokens, the reader gets them and no other one. -/
theorem serveAll_firstTokens_full : ∃ answers stream,
    serveAll [.peek 3, .next, .next, .next] (ofText "a b c".toList 2) = (answers, stream) ∧
      StreamCall.taken [.peek 3, .next, .next, .next] answers = (Lexer.ofText 0 "a b c".toList).tokens 2 ∧
      ∀ fault, Except.error (.ofLexFault fault) ∉ answers := by
  have unreadable : ∀ fault, Except.error (.ofLexFault fault) ∉
      (serveAll [.peek 3, .next, .next, .next] (ofText "a b c".toList 2)).1 := by
    have lexical : ∀ answer ∈ (serveAll [.peek 3, .next, .next, .next] (ofText "a b c".toList 2)).1,
        (answer.tryCatch fun error => if error.lexical.isSome then .error error else .ok none).isOk =
          true := by decide +kernel
    intro fault mem
    cases lexical _ mem
  have counted : (StreamCall.taken [.peek 3, .next, .next, .next]
      (serveAll [.peek 3, .next, .next, .next] (ofText "a b c".toList 2)).1).length = 2 := by decide +kernel
  refine ⟨_, _, rfl, ?_, unreadable⟩
  rw [← counted]
  exact (serveAll_firstTokens rfl (.inl unreadable)).1

/-- Behind the failure in a comment the stream gives the tokens `*`, `/` and `b`, which the text does not have.
Without room for the token `a` it fails twice, at that token and at the end of the line, and then says that there are
no tokens. -/
theorem serveAll_firstTokens_lost :
    (¬ ∀ text limit calls, StreamCall.taken calls (serveAll calls (ofText text limit)).1 =
      (Lexer.ofText 0 text).tokens (StreamCall.taken calls (serveAll calls (ofText text limit)).1).length) ∧
    ¬ ∀ text limit calls, (serveAll calls (ofText text limit)).2.next.1 = .ok none →
      ∃ steps, (Lexer.ofText 0 text).steps.1 = .ok steps ∧
        LexStep.tokens steps = StreamCall.taken calls (serveAll calls (ofText text limit)).1 := by
  refine ⟨fun all => ?_, fun all => ?_⟩
  · have same := all "/*\x00*/b".toList 9 [.next, .next, .next, .next]
    exact absurd same (by decide +kernel)
  · have finished : (serveAll [.next, .next] (ofText "a".toList 0)).2.next.1 = .ok none := by
      have computed : (serveAll [.next, .next] (ofText "a".toList 0)).2.next.1.toOption = some none := by decide +kernel
      cases isAnswer : (serveAll [.next, .next] (ofText "a".toList 0)).2.next.1 with
      | error error =>
        rw [isAnswer] at computed
        cases computed
      | ok found =>
        rw [isAnswer] at computed
        cases computed
        rfl
    obtain ⟨steps, collected, same⟩ := all "a".toList 0 [.next, .next] finished
    have two : (Lexer.ofText 0 "a".toList).steps.1.toOption.map (LexStep.tokens · |>.length) = some 2 := by
      decide +kernel
    have none : (StreamCall.taken [.next, .next] (serveAll [.next, .next] (ofText "a".toList 0)).1).length = 0 := by
      decide +kernel
    rw [collected] at two
    rw [← same] at none
    cases (Option.some.inj two).symm.trans none

end TokenStream

end GoPrompt
