import GoPrompt.Proofs.Classification.Consistency
import GoPrompt.Proofs.Runs.Parsed
import GoPrompt.Proofs.Syntax.Accepted
import GoPrompt.Proofs.Syntax.Word

/-! Every statement of the grammar is accepted with its kind, however its names and literals are spelled, if the
budgets have room for it. -/

namespace GoPrompt

open Parse Grammar

section

variable {supply : Supply} {kind : StatementKind} {level : Nat} {kinds ending : List TokenKind} {state : ParseState}

/-- What is left of a text behind its statement. -/
def behindStatement (statement : Statement) : Parse Statement := do
  if ← atSemicolon then bump
  match ← Parse.peek 0 with
  | none => return statement
  | some token => unexpected token ["end of statement"]

theorem wholeText_starts {first : TokenKind} (ahead : supply.Ahead (first :: kinds) state) (outermost : state.depth = 0)
    (noSemicolon : ¬ isSemicolon first = true) : ∃ looking, supply.Ahead (first :: kinds) looking ∧
      wholeText supply.nesting state =
      ((levels supply.nesting supply.nesting).statement .topLevel >>= behindStatement) looking := by
  obtain ⟨found, looking, looked, ahead, same⟩ := ahead.peek (Nat.zero_le _)
  obtain ⟨token, rfl, rfl⟩ := Option.map_eq_some_iff.mp same
  refine ⟨looking, ahead, ?_⟩
  have level : topLevelStatement supply.nesting looking =
      (levels supply.nesting supply.nesting).statement .topLevel looking := by
    rw [topLevelStatement, peek_depth looked, outermost]
    rfl
  have here : wholeText supply.nesting state =
      (if isSemicolon token.kind = true then unexpected token ["statement"]
        else topLevelStatement supply.nesting >>= behindStatement : Parse Statement) looking := by
    rw [wholeText, bind_ok looked]
    rfl
  rw [here, if_neg noSemicolon, bind_congr_left level]

/-- What may stand behind the statement of a text: nothing, or a semicolon. -/
def EndsText (kinds : List TokenKind) : Prop := kinds = [] ∨ ∃ origin, kinds = [.semicolon origin]

theorem endsText_of_isEnding (isEnding : Word.IsEnding ending) : EndsText ending :=
  isEnding.imp_right fun same => ⟨_, same⟩

theorem ending_runs (isEnding : EndsText ending) (statement : Statement) :
    Runs supply ending (behindStatement statement) fun found after => after = [] ∧ found = statement := by
  have finish : Runs supply []
      (do
        match ← Parse.peek 0 with
        | none => return statement
        | some token => unexpected token ["end of statement"]) fun found after => after = [] ∧ found = statement := by
    apply Runs.bind
    apply Runs.peek (Nat.zero_le _)
    rintro found same
    obtain rfl := Option.map_eq_none_iff.mp same
    exact Runs.pure ⟨rfl, rfl⟩
  apply Runs.bind
  apply Runs.atSemicolon
  rcases isEnding with rfl | ⟨_, rfl⟩
  · exact Runs.ite_neg Bool.false_ne_true finish
  · apply Runs.ite_pos rfl
    apply Runs.bind
    exact Runs.bump finish

theorem IsStatement.wholeText (isStatement : IsStatement supply .topLevel kind level kinds)
    (enough : level ≤ supply.nesting) (isEnding : Word.IsEnding ending) (ahead : supply.Ahead (kinds ++ ending) state)
    (outermost : state.depth = 0) :
    ∃ statement after, wholeText supply.nesting state = .ok statement after ∧ statement.kind = kind ∧
    supply.Ahead [] after := by
  have starts := isStatement.starts
  cases kinds with
  | nil => cases starts
  | cons first later =>
    have noSemicolon : ¬ isSemicolon first = true := by
      simp only [List.head?_cons, Option.any_some, startsStatement, Bool.and_eq_true, Bool.not_eq_true'] at starts
      exact Bool.eq_false_iff.mp starts.2
    obtain ⟨looking, ahead, begins⟩ := wholeText_starts ahead outermost noSemicolon
    have ends : endsStatement ending.head? = true := by rcases isEnding with rfl | rfl <;> rfl
    obtain ⟨statement, reached, _, ran, behind, rfl, isKind⟩ :=
      isStatement.reads supply.nesting enough _ ends looking ahead
    obtain ⟨_, after, _, finished, nothing, rfl, rfl⟩ :=
      ending_runs (endsText_of_isEnding isEnding) statement reached behind
    refine ⟨_, after, ?_, isKind, nothing⟩
    rw [begins, bind_ok ran]
    exact finished

end

namespace Syntax

theorem Tree.supplied {words : List Word} (limits : Limits) (fits : byteSize (Word.text words) ≤ maxOffset)
    (room : words.length < limits.maxTokens) :
    ∃ (supply : Supply) (ending : List TokenKind), supply.nesting = limits.maxNesting ∧ Word.IsEnding ending ∧
      supply.Ahead (words.map (·.kind) ++ ending) (.ofText limits (Word.text words)) := by
  obtain ⟨tokens, ending, lexes, kinds, isEnding⟩ := Word.text_readBy words (Word.ofText_text words)
  have count : tokens.length = words.length + ending.length := by simpa using congrArg List.length kinds
  have short : ending.length ≤ 1 := by rcases isEnding with rfl | rfl <;> simp
  have scans : Scans (Word.text words) (tokens.map LexStep.token) := ⟨Word.encoded_text words, fits, lexes⟩
  obtain ⟨supply, nesting, ahead⟩ := scans.supplied limits (by omega)
  exact ⟨supply, ending, nesting, isEnding, kinds ▸ ahead⟩

/-- Every statement of the grammar can be spelled, and however it is spelled, it is complete and of its kind. -/
theorem Tree.classify_complete {kind : StatementKind} (tree : Tree (.statement .topLevel kind)) :
    (∃ words, tree.SpelledBy words) ∧
      ∀ (limits : Limits) (words : List Word), tree.SpelledBy words → byteSize (Word.text words) ≤ maxOffset →
        tree.depth ≤ min limits.maxNesting maxNestingCeiling → words.length < limits.maxTokens →
        ∃ classification, classify limits (String.ofList (Word.text words)) = .ok classification ∧
          classification.answer = .complete ∧ classification.statement = some kind := by
  refine ⟨tree.written.exists_words, ?_⟩
  intro limits words spelled fits shallow room
  obtain ⟨supply, ending, nesting, isEnding, ahead⟩ := Tree.supplied limits.forClassification fits room
  rw [spelled] at ahead
  have enough : tree.depth ≤ supply.nesting := by
    rw [nesting]
    exact shallow
  obtain ⟨statement, after, ran, rfl, nothing⟩ := IsStatement.wholeText tree.accepted enough isEnding ahead rfl
  rw [nesting] at ran
  have encoded := Word.encoded_text words
  have whole : (String.ofList (Word.text words)).toList = Word.text words := String.toList_ofList
  rcases classify_cases limits (String.ofList (Word.text words)) (by rw [whole]; exact fits) with
    ⟨_, same⟩ | ⟨_, _, _, offence, _⟩
  · rw [same, whole]
    exact classifySource_reduced encoded fits ran nothing.tail_eq_none
  · rw [whole] at offence
    exact absurd encoded offence.not_encoded

/-- A goroutine started in a loop without an end. -/
theorem Tree.classify_complete_loop : ∃ classification, classify {} "for { go serve ( ) }" = .ok classification ∧
    classification.answer = .complete ∧ classification.statement = some .for := by
  let serve : Word := ⟨.identifier, ['s', 'e', 'r', 'v', 'e'], by decide +kernel, by decide⟩
  let call : Tree (.expression .free) := .ofUnary (.ofPrimary (.call .name .absent))
  have accepted := (Tree.classify_complete (.forEver (.block (.present (.one (.line (.go call))))))).2 {}
    [.keyword .for, .operator .leftBrace, .keyword .go, serve, .operator .leftParen,
      .operator .rightParen, .operator .rightBrace]
    rfl (by decide +kernel) (by decide +kernel) (by decide)
  exact accepted

end Syntax

end GoPrompt
