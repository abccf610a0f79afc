import GoPrompt.Proofs.Classification.Answers
import GoPrompt.Proofs.Lexical.Fillers
import GoPrompt.Proofs.Lexical.Lexes
import GoPrompt.Proofs.Runs.Front
import GoPrompt.Proofs.Runs.Parsed

/-! A text is said to be empty only when there is no token in it. -/

namespace GoPrompt

open Parse

namespace Lexer

variable {lexer after : Lexer} {step : LexStep}

private theorem next_unarmed (unarmed : lexer.armed = false) (answered : lexer.next = (.ok step, after)) :
    (∀ token, step.token? = some token → token.kind ≠ .semicolon .endOfInput) ∧
    (step = .endOfInput → IsTrivia lexer.rest) := by
  cases Reads.of_next answered with
  | @whole _ _ _ _ kind _ _ scanned =>
    refine ⟨fun token isToken inserted => ?_, fun isEnd => by cases isEnd⟩
    cases isToken
    have written := scanToken_isWritten (congrArg TokenScan.shape scanned)
    rw [show kind = _ from inserted] at written
    cases written
  | cutOff | invalid | lineEnd =>
    refine ⟨fun token isToken inserted => ?_, fun isEnd => by cases isEnd⟩
    cases isToken
    cases inserted
  | openComment => exact ⟨fun token isToken => (by cases isToken), fun isEnd => by cases isEnd⟩
  | inserted _ armed => exact absurd unarmed (by simp [armed])
  | ended skipped =>
    rw [unarmed] at skipped
    exact ⟨fun token isToken => (by cases isToken), fun _ => isTrivia_of_gap skipped⟩

end Lexer

namespace PendingReason

private theorem ofLastToken_emptyInput {last : Option TokenKind} (empty : ofLastToken last = .emptyInput) :
    last = none := by
  cases last with
  | none => rfl
  | some kind =>
    cases kind with
    | operator operator =>
      unfold ofLastToken at empty
      split at empty
      next none => cases none
      next => cases empty
      next => split at empty <;> cases empty
      next => cases empty
    | identifier | keyword | literal | semicolon | illegal => cases empty

end PendingReason

namespace TokenStream

variable {stream : TokenStream}

private theorem pendingReason_emptyInput (empty : stream.pendingReason = .emptyInput) :
    stream.tail = none ∧ stream.lastConsumed = none := by
  unfold pendingReason at empty
  split at empty
  next => cases empty
  next none =>
    refine ⟨none, ?_⟩
    split at empty
    next reason isReason =>
      -- An open delimiter is a reason of its own.
      obtain ⟨operator, -, isReason⟩ := Option.bind_eq_some_iff.mp isReason
      rw [empty] at isReason
      unfold PendingReason.ofOpenDelimiter? at isReason
      split at isReason <;> cases isReason
    next => exact PendingReason.ofLastToken_emptyInput empty

end TokenStream

namespace TokenStream

variable {text : List Char} {maxTokens : Nat}

private theorem peek_fetch (stream : TokenStream) (fresh : stream.lookahead = []) (running : stream.exhausted = false) :
    stream.peek 0 = match stream.fetch with
      | (.ok (), after) =>
        let noted := if after.lookahead.isEmpty then { after with observedEnd := true } else after
        (.ok noted.lookahead[0]?, noted)
      | (.error error, after) => (.error error, after) := by
  have fills : stream.fillTo 0 = stream.fetch := by
    rw [fillTo, fresh]
    simp only [List.length_nil, fill, running, Bool.false_eq_true, ↓reduceIte]
    split <;> simp_all
  unfold TokenStream.peek
  rw [if_neg (Nat.not_lt_zero _), fills]
  split <;> simp_all

private theorem offers_first {result : Except LexFault LexStep} {lexer : Lexer} {token : Token}
    (read : (Lexer.ofText 0 text).next = (result, lexer)) (first : ∀ step, result = .ok step → step.token? = some token) :
    (ofText text maxTokens).Offers token := by
  intro found after peeked
  rw [peek_fetch _ rfl rfl, fetch, show (ofText text maxTokens).lexer = Lexer.ofText 0 text from rfl, read] at peeked
  cases result with
  | error fault => cases peeked
  | ok step =>
    have isFirst := first step rfl
    cases step with
    | incomplete | endOfInput => cases isFirst
    | token | truncated | invalid =>
      obtain rfl := Option.some.inj isFirst
      by_cases full : maxTokens ≤ 0
      · simp only [push, ofText, full, ↓reduceIte] at peeked
        cases peeked
      · simp only [push, ofText, full, ↓reduceIte, List.nil_append] at peeked
        cases peeked
        exact ⟨rfl, rfl⟩

/-- Without a first token the stream finds the end of the text, and what is cut off there. -/
theorem peek_ended (maxTokens : Nat) {step : LexStep} {lexer : Lexer}
    (read : (Lexer.ofText 0 text).next = (.ok step, lexer)) (ends : step.endsInput = true) :
    ∃ after, (ofText text maxTokens).peek 0 = (.ok none, after) ∧ after.tail = step.cutoff? ∧
      (after.tail = none → after.pendingReason = .emptyInput) := by
  rw [peek_fetch _ rfl rfl, fetch, show (ofText text maxTokens).lexer = Lexer.ofText 0 text from rfl, read]
  cases step with
  | incomplete => exact ⟨_, rfl, rfl, fun isNone => by cases isNone⟩
  | endOfInput => exact ⟨_, rfl, rfl, fun _ => rfl⟩
  | token | truncated | invalid => cases ends

end TokenStream

private theorem Parser.parse_emptyInput {limits : Limits} {text : List Char} {collector : Collector} {report : Report}
    {parser : Parser} (parsed : (Parser.ofText limits text collector).parse = (.ok report, parser))
    (empty : report.verdict = .needMoreInput .emptyInput) :
    ∃ error after, Grammar.wholeText limits.maxNesting { stream := .ofText text limits.maxTokens } =
        .error (.needMoreInput error) after ∧ after.stream.tail = none ∧ after.stream.lastConsumed = none := by
  have parses := Parser.ofText_parses limits text collector
  rw [parsed] at parses
  change Parser.Parses _ (Grammar.wholeText limits.maxNesting { stream := .ofText text limits.maxTokens }) _ at parses
  generalize Grammar.wholeText limits.maxNesting { stream := .ofText text limits.maxTokens } = outcome at parses ⊢
  cases parses with
  | complete | cutOff | rejected => cases empty
  | wanted | wantedCutOff => exact ⟨_, _, rfl, TokenStream.pendingReason_emptyInput (Verdict.needMoreInput.inj empty)⟩

private theorem isTokenFree_of_ofText {text : List Char} (trivia : IsTrivia (Lexer.ofText 0 text).rest) :
    IsTokenFree text := by
  cases text with
  | nil => exact .inl trivia
  | cons c rest =>
    by_cases mark : c = byteOrderMark
    · subst mark
      exact .inr ⟨rest, rfl, by simpa [Lexer.ofText] using trivia⟩
    · exact .inl (by simpa [Lexer.ofText, mark] using trivia)

/-- A text that is said to be empty has no token in it, of whatever length it is. -/
theorem isTokenFree_of_emptyInput {limits : Limits} {text : String} {classification : Classification}
    (answered : classify limits text = .ok classification) (empty : classification.pending = some .emptyInput) :
    IsTokenFree text.toList := by
  obtain ⟨report, parser, parsed, -, tells⟩ := classifySource_report (classify_source answered)
  have verdict : report.verdict = .needMoreInput .emptyInput := by
    cases isVerdict : report.verdict <;> rw [isVerdict, empty] at tells
    · cases tells.2.2
    · rw [Option.some.inj tells.2.2]
    · cases tells.2.2
  obtain ⟨error, after, ran, whole, unbegun⟩ := Parser.parse_emptyInput parsed verdict
  -- A token at the start of the text would have been consumed.
  have noToken : ∀ token : Token, token.kind ≠ .semicolon .endOfInput →
      ¬ (TokenStream.ofText text.toList limits.forClassification.maxTokens).Offers token := fun token written offers =>
    wholeText_begins offers written rfl ran unbegun
  have unarmed : (Lexer.ofText 0 text.toList).armed = false := by
    unfold Lexer.ofText
    split
    next => rfl
    next => split <;> rfl
  rcases read : (Lexer.ofText 0 text.toList).next with ⟨result, lexer⟩
  cases result with
  | error fault => exact absurd (TokenStream.offers_first read fun _ isStep => by cases isStep) (noToken ⟨.identifier, "", .point 0 0⟩ (by simp))
  | ok step =>
    obtain ⟨written, ended⟩ := Lexer.next_unarmed unarmed read
    cases step with
    | endOfInput => exact isTokenFree_of_ofText (ended rfl)
    | incomplete cutoff =>
      obtain ⟨peeked, ahead, cut, -⟩ := TokenStream.peek_ended limits.forClassification.maxTokens read rfl
      let start : ParseState := { stream := .ofText text.toList limits.forClassification.maxTokens }
      have looked : peek 0 start = .ok none { start with stream := peeked } := onStream_ok ahead
      rw [Grammar.wholeText, bind_ok looked] at ran
      cases ran
      rw [show _ = some cutoff from cut] at whole
      cases whole
    | token token | truncated token | invalid token =>
      exact absurd (TokenStream.offers_first read fun _ isStep => by cases isStep; rfl)
        (noToken token (written token rfl))

end GoPrompt
