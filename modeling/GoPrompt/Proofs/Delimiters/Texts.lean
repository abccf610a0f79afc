import GoPrompt.Proofs.Delimiters.Statements
import GoPrompt.Proofs.Runs.Budgets

/-! The delimiters of a text that is parsed. Every closing delimiter that the parser consumes closes the innermost
open one, so a complete statement has nested delimiters, and the reason to need more input names the innermost
delimiter that is open. -/

namespace GoPrompt

open Parse

/-- The kinds of the first tokens of a text, or of all tokens if there are not as many. -/
def firstKinds (text : List Char) (count : Nat) : List TokenKind := ((Lexer.ofText 0 text).tokens count).map (·.kind)

section

variable {origin : TokenStream}

private theorem Grammar.wholeText_matched (limit : Nat) :
    Matched origin (Faces origin [] []) (Grammar.wholeText limit) fun _ => Faces origin [] [] := by
  refine .look_bind .endOfInput fun token => ?_
  dsimp only
  split
  next => exact .unexpected
  next =>
    refine .forget ((Grammar.topLevelStatement_balanced limit).bind fun statement => ?_)
    exact .atSemicolon_bind (fun _ => .pass_bind rfl (.look_bind .done fun _ => .unexpected))
      (.look_bind .done fun _ => .unexpected)

variable {text : List Char} {maxTokens : Nat} {state : ParseState}

/-- Where a parse of a text stops, the open delimiters are those that the tokens consumed leave unmatched. -/
theorem Stopped.gave (stopped : Stopped (.ofText text maxTokens) state) : state.stream.text = text ∧ ∃ taken,
    state.stream.Gave taken ∧ unmatched [] (taken.map (·.kind)) = some state.stream.openDelimiters := by
  obtain ⟨taken, point, visits, isMatched, reached⟩ := stopped
  obtain ⟨opened, matched⟩ := Option.isSome_iff_exists.mp isMatched
  have traces := visits.traces (TokenStream.ofText_traces text maxTokens)
  have same : point.openDelimiters = opened := visits.openDelimiters.trans (foldl_delimitersAfter matched)
  rcases reached with here | ⟨index, here⟩
  · rw [here, same]
    exact ⟨visits.text, taken, traces.gave, matched⟩
  · have given := point.peek_given index
    have onward := point.peek_onward index
    rcases peeked : point.peek index with ⟨found, after⟩
    rw [peeked] at here given onward
    rw [here, ← given.openDelimiters, same]
    exact ⟨onward.text.trans visits.text, taken, (traces.peek peeked).1, matched⟩

private theorem firstKinds_consumed {stream : TokenStream} {taken : List Token} (isText : stream.text = text)
    (gave : stream.Gave taken) :
    firstKinds text stream.consumed = taken.map (·.kind) := by
  rw [firstKinds, ← isText, gave.tokens (Nat.le_refl _), gave.consumed, List.take_length]

theorem Stopped.matched (stopped : Stopped (.ofText text maxTokens) state) :
    unmatched [] (firstKinds text state.stream.consumed) = some state.stream.openDelimiters := by
  obtain ⟨isText, taken, gave, matched⟩ := stopped.gave
  rw [firstKinds_consumed isText gave, matched]

end

namespace Parser

variable {limits : Limits} {text : List Char} {collector : Collector} {parser : Parser}

private theorem ofText_faces (limits : Limits) (text : List Char) :
    Faces (.ofText text limits.maxTokens) [] [] (.ofText limits text) := ⟨⟨[], .start, rfl⟩, List.nil_prefix⟩

/-- A text that is read as a statement has no tokens besides those that have been consumed. -/
theorem wholeText_nested {statement : Statement} {after : ParseState}
    (ran : Grammar.wholeText limits.maxNesting (.ofText limits text) = .ok statement after)
    (whole : after.stream.tail = none) :
    ∃ steps, (Lexer.ofText 0 text).steps.1 = .ok steps ∧ Nested ((steps.filterMap LexStep.token?).map (·.kind)) := by
  have matched := Grammar.wholeText_matched limits.maxNesting (.ofText limits text) (ofText_faces limits text)
  rw [ran] at matched
  obtain ⟨taken, visits, nested⟩ := matched.visits
  obtain ⟨before, looked⟩ := wholeText_looked ran
  have ahead : after.stream.lookahead = [] := by
    have there := (TokenStream.peek_lookahead (of_onStream_ok looked)).2
    rwa [← List.head?_eq_getElem?, eq_comm, List.head?_eq_none_iff] at there
  obtain ⟨last, gives, -, ended⟩ := (visits.traces (TokenStream.ofText_traces text limits.maxTokens)).gives
  rw [ahead, List.append_nil, show after.stream.text = text from visits.text] at gives
  obtain ⟨steps, scanned, tokens⟩ := gives.steps (ended (wholeText_exhausted ran) whole)
  exact ⟨steps, scanned, by rw [tokens]; exact nested_iff.mpr nested⟩

end Parser

namespace PendingReason

/-- The reasons that name an open delimiter. -/
def unclosed : List PendingReason := [.unclosedParen, .unclosedBracket, .unclosedBrace]

end PendingReason

namespace Parser

variable {limits : Limits} {text : List Char} {collector : Collector} {parser : Parser}

theorem reported_of_decide {p : Report → Parser → Bool}
    (computed : (match (ofText limits text collector).parse with
      | (.ok report, parser) => p report parser
      | (.error _, _) => false) = true) :
    ∃ report parser, (ofText limits text collector).parse = (.ok report, parser) ∧ p report parser = true := by
  split at computed
  next report parser parsed => exact ⟨report, parser, parsed, computed⟩
  next => cases computed

end Parser

end GoPrompt
