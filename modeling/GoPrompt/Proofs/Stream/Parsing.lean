import GoPrompt.Grammar.Levels
import GoPrompt.Proofs.Stream.Steps

/-! The single steps of the parser on a stream whose place among the tokens is known, and the ways in which
they fail. -/

namespace GoPrompt

namespace ParseError

/-- An error that says that a budget is used up. -/
def IsBudget (error : ParseError) : Prop := error.kind = .tokenLimitExceeded ∨ error.kind = .nestingLimitExceeded

/-- An error that says which budget is used up: that for the nesting, or that for the tokens, at a token behind
legal ones. -/
def Spends (steps : List LexStep) (limit : Nat) (error : ParseError) : Prop :=
  error.kind = .nestingLimitExceeded ∨ (error.kind = .tokenLimitExceeded ∧
    ∃ number token, limit ≤ number ∧ tokenAt steps number = some token ∧
      ∀ earlier found, earlier < number → tokenAt steps earlier = some found → found.kind ≠ .illegal)

theorem Spends.isBudget {steps : List LexStep} {limit : Nat} {error : ParseError} (spends : error.Spends steps limit) :
    error.IsBudget := spends.symm.imp_left And.left

/-- An error that blames a token. -/
def Blames (error : ParseError) (token : Token) : Prop :=
  error.span = some token.span ∧
    (error.kind = .unexpectedToken ∨
      (error.kind = .invalidToken ∧ token.kind = .illegal ∧ error.found = some token.lexeme))

/-- An error that asks for more behind the end of the text, or in the place of the semicolon that is inserted there. -/
def Asks (error : ParseError) (stream : TokenStream) (found : Option Token) : Prop :=
  error.kind = .unexpectedEndOfInput ∧ error.span = some (found.elim stream.endSpan (·.span))

theorem Blames.not_isFault {error : ParseError} {token : Token} (blames : error.Blames token) :
    error.isFault = false := by
  rcases blames.2 with kind | ⟨kind, -⟩
  · simp [isFault, kind, ParseErrorKind.isFault]
  · simp [isFault, kind, ParseErrorKind.isFault]

theorem Blames.not_isBudget {error : ParseError} {token : Token} (blames : error.Blames token) : ¬ error.IsBudget := by
  rintro (budget | budget) <;> rcases blames.2 with kind | ⟨kind, -⟩ <;> rw [kind] at budget <;> cases budget

theorem IsBudget.isFault {error : ParseError} (budget : error.IsBudget) : error.isFault = true := by
  rcases budget with kind | kind
  · simp [ParseError.isFault, kind, ParseErrorKind.isFault]
  · simp [ParseError.isFault, kind, ParseErrorKind.isFault]

end ParseError

namespace Parse

variable {steps : List LexStep} {limit number : Nat} {state : ParseState} {found following : Option Token}
  {token name : Token}

theorem peek_settled (settled : state.stream.Settled steps limit number) :
    (limit ≤ number ∧ state.stream.lookahead = [] ∧ ∃ token error after, tokenAt steps number = some token ∧
      error.Spends steps limit ∧ peek 0 state = .error (.rejected error) after) ∨
    ∃ after, peek 0 state = .ok (tokenAt steps number) after ∧
      after.stream.Seen steps limit number (tokenAt steps number) := by
  rcases settled.peek with ⟨full, ahead, token, after, there, failed⟩ | ⟨after, found, seen⟩
  · refine .inl ⟨full, ahead, token, _, _, there, ?_, onStream_error failed⟩
    exact Or.inr ⟨rfl, number, token, full, there, settled.legal⟩
  · exact .inr ⟨_, onStream_ok found, seen⟩

theorem peekBeyond_seen (seen : state.stream.Seen steps limit number (some name)) (named : name.kind = .identifier) :
    (limit ≤ number + 1 ∧ ∃ token error after, tokenAt steps (number + 1) = some token ∧ error.Spends steps limit ∧
      peek 1 state = .error (.rejected error) after) ∨
    ∃ after, peek 1 state = .ok (tokenAt steps (number + 1)) after ∧
      after.stream.Window steps limit number name (tokenAt steps (number + 1)) := by
  rcases seen.peekBeyond named with ⟨full, token, after, there, failed⟩ | ⟨after, found, window⟩
  · have legal : ∀ earlier found, earlier < number + 1 → tokenAt steps earlier = some found →
        found.kind ≠ .illegal := by
      intro earlier found less isFound
      rcases Nat.lt_succ_iff_lt_or_eq.mp less with before | rfl
      · exact seen.legal earlier found before isFound
      · obtain rfl := Option.some.inj (seen.isNext.symm.trans isFound)
        simp [named]
    refine .inl ⟨full, token, _, _, there, ?_, onStream_error failed⟩
    exact Or.inr ⟨rfl, number + 1, token, full, there, legal⟩
  · exact .inr ⟨_, onStream_ok found, window⟩

theorem peek_window (window : state.stream.Window steps limit number name following) :
    peek 0 state = .ok (some name) state := onStream_ok window.peek

theorem bump_seen (seen : state.stream.Seen steps limit number (some token)) (legal : token.kind ≠ .illegal) :
    ∃ after, bump state = .ok () after ∧ after.stream.Settled steps limit (number + 1) ∧
    after.stream.lookahead = [] := by
  obtain ⟨after, taken, reading, ahead, -⟩ := seen.next seen.front legal
  exact ⟨_, bump_some taken, ⟨reading, by simp [ahead], fun some => absurd ahead some⟩, ahead⟩

theorem bump_window (window : state.stream.Window steps limit number name following) :
    ∃ after, bump state = .ok () after ∧ after.stream.Settled steps limit (number + 1) ∧
      after.stream.lookahead = following.toList ∧
      (following ≠ none → after.stream.Seen steps limit (number + 1) following) := by
  obtain ⟨after, taken, reading, ahead, ended⟩ := window.next window.front (by simp [window.named])
  have fresh : following ≠ none → after.exhausted = true → CutsOff steps (number + 1) := by
    rw [ended]
    exact window.fresh
  refine ⟨_, bump_some taken, ⟨reading, ?_, fun some => fresh fun none => some ?_⟩, ahead, fun some => ?_⟩
  · rw [ahead]
    cases following <;> simp
  · rw [ahead, none]
    rfl
  · exact ⟨reading, ahead, fresh, fun none => absurd none some⟩

/-- A grammar that cannot use a token asks for more input where the token is only an inserted semicolon,
and blames the token otherwise. -/
theorem unexpected_seen {α : Type} (seen : state.stream.Seen steps limit number (some token)) (expected : List String) :
    (token.IsInserted ∧ ∃ error after, (unexpected token expected : Parse α) state =
      .error (.needMoreInput error) after ∧
      after.stream = state.stream.noteEnd ∧ error.Asks after.stream (some token)) ∨
    (¬ token.IsInserted ∧ ∃ error, (unexpected token expected : Parse α) state = .error (.rejected error) state ∧
      error.Blames token) := by
  cases kind : token.kind with
  | semicolon origin =>
    cases origin with
    | endOfInput =>
      refine .inl ⟨kind, .unexpectedEndOfInput token.span expected,
        { state with stream := state.stream.noteEnd }, ?_, rfl, rfl, rfl⟩
      simp only [unexpected, kind]
      rfl
    | explicit | newline =>
      refine .inr ⟨by simp [Token.IsInserted, kind], .unexpectedToken token expected, ?_, rfl, .inl rfl⟩
      simp only [unexpected, kind]
      rfl
  | illegal =>
    have explained := seen.explained token (by rw [seen.front]; exact List.mem_singleton_self token) kind
    obtain ⟨diagnostic, known⟩ := Option.isSome_iff_exists.mp explained
    refine .inr ⟨by simp [Token.IsInserted, kind], .invalidToken token diagnostic, ?_, rfl, .inr ⟨rfl, kind, rfl⟩⟩
    simp only [unexpected, kind, bind_ok (show (get : Parse ParseState) state = .ok state state from rfl), known]
    rfl
  | identifier | keyword | literal | operator =>
    refine .inr ⟨by simp [Token.IsInserted, kind], .unexpectedToken token expected, ?_, rfl, .inl rfl⟩
    simp only [unexpected, kind]
    rfl

theorem endOfInput_run {α : Type} (state : ParseState) (expected : List String) :
    (endOfInput expected : Parse α) state =
      .error (.needMoreInput (.unexpectedEndOfInput state.stream.endSpan expected)) state := rfl

end Parse

namespace Grammar

theorem beyondLimit_reading {α : Type} (limit : Nat) {steps : List LexStep} {maxTokens number : Nat}
    {state : ParseState} (reading : state.stream.Reading steps maxTokens number) :
    ∃ error after, (beyondLimit limit : Parse α) state = .error (.rejected error) after ∧
    error.Spends steps maxTokens := by
  let deeper : ParseState := { state with depth := state.depth + 1 }
  let fail (token : Option Token) : Parse α := throw (.rejected (.nestingLimitExceeded limit (token.map (·.span))))
  have start : (beyondLimit limit : Parse α) state = (Parse.peek 0 >>= fail) deeper := rfl
  rw [start]
  have looks : (∃ found after, Parse.peek 0 deeper = .ok found after) ∨
      ∃ error after, Parse.peek 0 deeper = .error (.rejected error) after ∧ error.Spends steps maxTokens := by
    cases ahead : state.stream.lookahead with
    | nil =>
      have settled : deeper.stream.Settled steps maxTokens number :=
        ⟨reading, by simp [deeper, ahead], fun nonempty => absurd ahead nonempty⟩
      rcases Parse.peek_settled settled with ⟨_, _, _, error, after, _, budget, failed⟩ | ⟨after, found, _⟩
      · exact .inr ⟨error, after, failed, budget⟩
      · exact .inl ⟨_, after, found⟩
    | cons token later =>
      have looks : deeper.stream.peek 0 = (.ok (some token), state.stream) := by
        simp [deeper, TokenStream.peek, TokenStream.fillTo, ahead, TokenStream.fill]
      exact .inl ⟨some token, _, Parse.onStream_ok looks⟩
  rcases looks with ⟨found, after, looked⟩ | ⟨error, after, failed, budget⟩
  · rw [Parse.bind_ok looked]
    exact ⟨_, after, rfl, .inl rfl⟩
  · rw [Parse.bind_error failed]
    exact ⟨error, after, rfl, budget⟩

end Grammar

end GoPrompt
