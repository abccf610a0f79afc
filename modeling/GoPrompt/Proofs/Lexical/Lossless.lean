import GoPrompt.Proofs.Lexical.Layout
import GoPrompt.Proofs.Lexical.Order

/-! Scanning loses nothing: every character of a text is skipped as white space or a comment, or belongs to the one step
that stands for it. -/

namespace GoPrompt

/-- Whether a token stands for a part of the text and is spelled like it, unless it is inserted at a newline. Only the
semicolon inserted at the end of the text stands for nothing. -/
def Token.Covers (source : Nat) (text : List Char) (token : Token) : Prop :=
  ∃ before chars behind, text = before ++ chars ++ behind ∧
    token.span = Span.ofLength source (byteSize before) (byteSize chars) ∧
    (chars = [] ↔ token.kind = .semicolon .endOfInput) ∧
    (token.kind ≠ .semicolon .newline → token.lexeme = String.ofList chars)

/-- The steps of a text account for all of it, in its order, and leave the lexer `last` behind its end. -/
structure Lossless (source : Nat) (text : List Char) (steps : List LexStep) (last : Lexer) : Prop where
  /-- Nothing but a byte-order mark and complete pieces without a token stands between the steps. -/
  laid : ∃ items, Layout source text items ∧ ∃ ending, steps = items.flatMap Item.steps ++ ending ∧
    (ending = [] ∨ ending = [.token (.insertedBehind source text)])
  covers : ∀ step ∈ steps, ∀ token, step.token? = some token → token.Covers source text
  ordered : ∀ {number later : Nat} {step next : LexStep} {token other : Token}, number < later →
    steps[number]? = some step → step.token? = some token → steps[later]? = some next → next.token? = some other →
    token.span.stop ≤ other.span.start
  cutLast : ∀ {number : Nat} {step : LexStep} {cutoff : Cutoff}, steps[number]? = some step →
    step.cutoff? = some cutoff →
    steps.length = number + 1
  ends : last.rest = [] ∧ last.offset = byteSize text
  stays : last.next = (.ok .endOfInput, last)

section

variable {source : Nat} {text before behind : List Char} {items : List Item} {item : Item} {step : LexStep}
  {token : Token}

theorem Token.Spells.covers {chars : List Char} (spells : token.Spells source before chars)
    (whole : text = before ++ chars ++ behind) : token.Covers source text :=
  ⟨before, chars, behind, whole, spells.span,
    ⟨fun empty => absurd empty spells.nonempty, fun isEnd => absurd isEnd spells.notEnd⟩, fun _ => spells.lexeme⟩

theorem Item.Stands.covers (stands : item.Stands source before behind) (mem : step ∈ item.steps)
    (isToken : step.token? = some token) (whole : text = before ++ item.chars ++ behind) :
    token.Covers source text := by
  cases item with
  | skipped filler semicolon =>
    obtain ⟨inserted, isSome, rfl⟩ := List.mem_map.mp mem
    cases isToken
    obtain rfl := stands.2 token (Option.mem_toList.mp isSome)
    exact ⟨before, filler.chars, behind, whole, rfl, ⟨fun empty => absurd empty filler.chars_ne_nil, nofun⟩,
      fun written => absurd rfl written⟩
  | read step' chars =>
    obtain rfl := List.mem_singleton.mp mem
    cases step with
    | token | truncated | invalid =>
      cases isToken
      exact stands.1.covers whole
    | incomplete | endOfInput => cases isToken

private theorem Token.insertedBehind_covers : (Token.insertedBehind source text).Covers source text :=
  ⟨text, [], [], by simp, rfl, ⟨fun _ => rfl, fun _ => rfl⟩, fun _ => rfl⟩

private theorem Layout.around {front later : List Item} (layout : Layout source text (front ++ item :: later)) :
    text = leadingMark text ++ front.flatMap Item.chars ++ item.chars ++ later.flatMap Item.chars := by
  rw [List.append_assoc, List.append_assoc, ← List.flatMap_cons, ← List.flatMap_append]
  exact layout.whole

theorem Layout.covers (layout : Layout source text items) (mem : step ∈ items.flatMap Item.steps)
    (isToken : step.token? = some token) : token.Covers source text := by
  obtain ⟨item, there, ofItem⟩ := List.mem_flatMap.mp mem
  obtain ⟨front, later, rfl⟩ := List.append_of_mem there
  exact (layout.stands rfl).covers ofItem isToken layout.around

end

private theorem Lexer.Lexes.cutoff_last {lexer : Lexer} {steps : List LexStep} {number : Nat} {step : LexStep}
    {cutoff : Cutoff} (lexes : lexer.Lexes steps) (there : steps[number]? = some step)
    (isCut : step.cutoff? = some cutoff) :
    steps.length = number + 1 := by
  cases step with
  | truncated => exact lexes.truncated_last there
  | incomplete cutoff =>
    obtain ⟨within, -⟩ := List.getElem?_eq_some_iff.mp there
    rcases Nat.lt_or_ge (number + 1) steps.length with inside | atEnd
    · obtain ⟨token, isToken, -⟩ := lexes.inner there inside
      cases isToken
    · exact Nat.le_antisymm atEnd within
  | token | invalid | endOfInput => cases isCut

namespace Lexer

variable {source : Nat} {text : List Char} {steps : List LexStep} {last : Lexer}

private theorem lossless_of_steps (collected : (ofText source text).steps = (.ok steps, last)) :
    Lossless source text steps last := by
  have collects := Collects.of_steps collected
  have lexes := collects.lexes
  obtain ⟨empty, unarmed, place, fits⟩ := collects.last_ended
  obtain ⟨items, layout, -, same⟩ := layout_of_steps collected
  have ends : ending source text (items.foldl Item.arms false) = [] ∨
      ending source text (items.foldl Item.arms false) = [.token (.insertedBehind source text)] := by
    unfold ending
    split
    · exact .inr rfl
    · exact .inl rfl
  refine ⟨⟨items, layout, _, same, ends⟩, fun step mem token isToken => ?_,
    fun less there isToken => lexes.ordered less there isToken, lexes.cutoff_last,
    ⟨empty, place.trans (ofText_size source text)⟩, next_at_end empty unarmed fits⟩
  rw [same] at mem
  rcases List.mem_append.mp mem with mem | atEnd
  · exact layout.covers mem isToken
  · rcases ends with none | inserted
    · rw [none] at atEnd
      cases atEnd
    · rw [inserted] at atEnd
      obtain rfl := List.mem_singleton.mp atEnd
      cases isToken
      exact Token.insertedBehind_covers

/-- A semicolon is inserted at a piece of the text with a newline in it. -/
theorem newline_of_steps {step : LexStep} {token : Token} (collected : (ofText source text).steps = (.ok steps, last))
    (mem : step ∈ steps) (isToken : step.token? = some token) (inserted : token.kind = .semicolon .newline) :
    ∃ before chars behind, text = before ++ chars ++ behind ∧ '\n' ∈ chars ∧
      token.span = Span.ofLength source (byteSize before) (byteSize chars) := by
  obtain ⟨items, layout, inserts, same⟩ := layout_of_steps collected
  rw [same] at mem
  rcases List.mem_append.mp mem with mem | atEnd
  · obtain ⟨item, there, ofItem⟩ := List.mem_flatMap.mp mem
    obtain ⟨front, later, rfl⟩ := List.append_of_mem there
    have stands := layout.stands rfl
    cases item with
    | skipped filler semicolon =>
      obtain ⟨found, isSome, rfl⟩ := List.mem_map.mp ofItem
      cases isToken
      have isFound := Option.mem_toList.mp isSome
      obtain rfl := stands.2 token isFound
      have breaks := inserts rfl
      rw [Item.Inserts, isFound, Option.isSome_some] at breaks
      exact ⟨_, filler.chars, _, layout.around, filler.newline_mem (Bool.and_eq_true_iff.mp breaks.symm).2, rfl⟩
    | read step' chars =>
      obtain rfl := List.mem_singleton.mp ofItem
      cases step with
      | token | truncated | invalid =>
        cases isToken
        exact absurd inserted stands.1.notNewline
      | incomplete | endOfInput => cases isToken
  · unfold ending at atEnd
    split at atEnd
    next =>
      obtain rfl := List.mem_singleton.mp atEnd
      cases isToken
      cases inserted
    next => cases atEnd

/-- Collecting the steps of a text whose offsets fit fails only because of its encoding, and otherwise loses nothing. -/
theorem steps_lossless (source : Nat) (text : List Char) (fits : byteSize text ≤ maxOffset) :
    (∀ fault, (ofText source text).steps.1 = .error fault → ∃ diagnostic, fault = .malformed diagnostic) ∧
      ∀ steps last, (ofText source text).steps = (.ok steps, last) → Lossless source text steps last :=
  ⟨fun _ failed => steps_fault (by rwa [ofText_size]) failed, fun _ _ => lossless_of_steps⟩

/-- A byte-order mark, a comment over two lines and a string that is cut off. -/
theorem steps_lossless_comment : byteSize "\uFEFFa /* b\n */ \"c".toList ≤ maxOffset ∧
    ∃ steps last, (ofText 7 "\uFEFFa /* b\n */ \"c".toList).steps = (.ok steps, last) ∧ steps.length = 3 ∧
      Lossless 7 "\uFEFFa /* b\n */ \"c".toList steps last := by
  have fits : byteSize "\uFEFFa /* b\n */ \"c".toList ≤ maxOffset := by decide
  obtain ⟨steps, last, collected, count⟩ :=
    @steps_of_decide (ofText 7 "\uFEFFa /* b\n */ \"c".toList) (fun steps => steps.length == 3) (by decide +kernel)
  exact ⟨fits, steps, last, collected, by simpa using count, (steps_lossless 7 _ fits).2 steps last collected⟩

end Lexer

end GoPrompt
