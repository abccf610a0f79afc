import GoPrompt.Proofs.Lexical.Layout

/-! Where semicolons are inserted: at the first piece with a newline in it behind a token that may end a line, and at
the end of the text. Text that is no token neither ends a line nor keeps a semicolon from being inserted. -/

namespace GoPrompt

inductive TokenKind.EndsLine : TokenKind → Prop
  | identifier : EndsLine .identifier
  | literal (kind : LiteralKind) : EndsLine (.literal kind)
  | keyword {word : Keyword} (ends : word ∈ [.break, .continue, .fallthrough, .return]) : EndsLine (.keyword word)
  | operator {symbol : Operator} (ends : symbol ∈ [.inc, .dec, .rightParen, .rightBracket, .rightBrace]) :
      EndsLine (.operator symbol)

private theorem TokenKind.terminatesLine_iff (kind : TokenKind) : kind.terminatesLine = true ↔ kind.EndsLine := by
  constructor
  · intro terminates
    cases kind with
    | identifier => exact .identifier
    | literal kind => exact .literal kind
    | keyword word => cases word <;> first | exact .keyword (by decide) | cases terminates
    | operator symbol => cases symbol <;> first | exact .operator (by decide) | cases terminates
    | semicolon | illegal => cases terminates
  · rintro (_ | _ | ends | ends)
    · rfl
    · rfl
    all_goals
      simp only [List.mem_cons, List.not_mem_nil, or_false] at ends
      rcases ends with rfl | rfl | rfl | rfl | rfl <;> rfl

namespace Item

/-- Whether the item is text that is no token, or skipped without a semicolon. -/
def Quiet : Item → Prop
  | skipped _ semicolon => semicolon = none
  | read (.invalid _ _) _ => True
  | read _ _ => False

/-- Whether the item is text that is no token, or skipped and without a newline. -/
def KeepsLine : Item → Prop
  | skipped filler _ => filler.breaksLine = false
  | read (.invalid _ _) _ => True
  | read _ _ => False

end Item

/-- Whether the last token of the items may end a line and has only items of one sort behind it. -/
def EndedBy (sort : Item → Prop) (items : List Item) : Prop :=
  ∃ front token chars between, items = front ++ .read (.token token) chars :: between ∧ token.kind.EndsLine ∧
    ∀ item ∈ between, sort item

section

variable {sort : Item → Prop} {items : List Item} {item : Item}

private theorem EndedBy.concat_iff (notToken : ∀ token chars, item ≠ .read (.token token) chars) :
    EndedBy sort (items ++ [item]) ↔ EndedBy sort items ∧ sort item := by
  constructor
  · rintro ⟨front, token, chars, between, splits, ends, sorted⟩
    rcases List.eq_nil_or_concat between with rfl | ⟨between, last, rfl⟩
    · exact absurd (List.cons.inj (List.append_inj' splits rfl).2).1 (notToken token chars)
    · rw [List.concat_eq_append, ← List.cons_append, ← List.append_assoc] at splits
      obtain ⟨rfl, same⟩ := List.append_inj' splits rfl
      obtain ⟨rfl, -⟩ := List.cons.inj same
      rw [List.concat_eq_append] at sorted
      exact ⟨⟨front, token, chars, between, rfl, ends, fun other mem => sorted other (List.mem_append_left _ mem)⟩,
        sorted item (List.mem_append_right _ (List.mem_singleton_self item))⟩
  · rintro ⟨⟨front, token, chars, between, rfl, ends, sorted⟩, ofSort⟩
    refine ⟨front, token, chars, between ++ [item], by simp, ends, fun other mem => ?_⟩
    rcases List.mem_append.mp mem with before | last
    · exact sorted other before
    · rwa [List.mem_singleton.mp last]

private theorem EndedBy.concat_token_iff {token : Token} {chars : List Char}
    (notSort : ¬ sort (.read (.token token) chars)) :
    EndedBy sort (items ++ [.read (.token token) chars]) ↔ token.kind.EndsLine := by
  constructor
  · rintro ⟨front, other, chars', between, splits, ends, sorted⟩
    rcases List.eq_nil_or_concat between with rfl | ⟨between, last, rfl⟩
    · obtain ⟨same, -⟩ := List.cons.inj (List.append_inj' splits rfl).2
      cases same
      exact ends
    · rw [List.concat_eq_append, ← List.cons_append, ← List.append_assoc] at splits
      obtain ⟨same, -⟩ := List.cons.inj (List.append_inj' splits rfl).2
      rw [List.concat_eq_append] at sorted
      exact absurd (same ▸ sorted last (List.mem_append_right _ (List.mem_singleton_self last))) notSort
  · intro ends
    exact ⟨items, token, chars, [], rfl, ends, fun _ mem => absurd mem List.not_mem_nil⟩

private theorem EndedBy.concat_arms (notToken : ∀ token chars, ¬ sort (.read (.token token) chars))
    (keeps : (∀ token chars, item ≠ .read (.token token) chars) → items.foldl Item.arms false = true →
      (item.arms true = true ↔ sort item))
    (here : items.foldl Item.arms false = true ↔ EndedBy sort items) :
    (items ++ [item]).foldl Item.arms false = true ↔ EndedBy sort (items ++ [item]) := by
  rw [List.foldl_append, List.foldl_cons, List.foldl_nil]
  by_cases isToken : ∃ token chars, item = .read (.token token) chars
  · obtain ⟨token, chars, rfl⟩ := isToken
    rw [EndedBy.concat_token_iff (notToken token chars), ← TokenKind.terminatesLine_iff]
    rfl
  · have other : ∀ token chars, item ≠ .read (.token token) chars :=
      fun token chars same => isToken ⟨token, chars, same⟩
    rw [EndedBy.concat_iff other, ← here]
    cases armed : items.foldl Item.arms false with
    | true => rw [← keeps other armed]; simp
    | false =>
      have unarmed : item.arms false = false := by
        cases item with
        | skipped => rfl
        | read step chars =>
          cases step with
          | token token => exact absurd rfl (other token chars)
          | truncated | invalid | incomplete | endOfInput => rfl
      simp [unarmed]

private theorem arms_iff_endedBy (notToken : ∀ token chars, ¬ sort (.read (.token token) chars))
    (keeps : ∀ {front later item}, items = front ++ item :: later → (∀ token chars, item ≠ .read (.token token) chars) →
      front.foldl Item.arms false = true → (item.arms true = true ↔ sort item)) {front later : List Item}
    (splits : items = front ++ later) : front.foldl Item.arms false = true ↔ EndedBy sort front := by
  have start : ([] : List Item).foldl Item.arms false = true ↔ EndedBy sort [] :=
    ⟨nofun, fun ⟨front, token, chars, between, splits, _⟩ => by simp at splits⟩
  -- The items in front of `front` are reached one by one.
  have reached : ∀ (seen ahead : List Item), front = seen ++ ahead →
      (seen.foldl Item.arms false = true ↔ EndedBy sort seen) →
        (front.foldl Item.arms false = true ↔ EndedBy sort front) := by
    intro seen ahead parts here
    induction ahead generalizing seen with
    | nil =>
      rw [List.append_nil] at parts
      rwa [parts]
    | cons item ahead ih =>
      have next : items = seen ++ item :: (ahead ++ later) := by rw [splits, parts, List.append_assoc, List.cons_append]
      exact ih (seen ++ [item]) (by rw [parts, List.append_assoc]; rfl) (EndedBy.concat_arms notToken (keeps next) here)
  exact reached [] front rfl start

section

variable (inserts : ∀ {front later : List Item} {item : Item}, items = front ++ item :: later →
  item.Inserts (front.foldl Item.arms false)) {front later : List Item}

include inserts

private theorem arms_iff_quiet (splits : items = front ++ later) :
    front.foldl Item.arms false = true ↔ EndedBy Item.Quiet front := by
  refine arms_iff_endedBy (fun _ _ => id) (fun {front later item} next other armed => ?_) splits
  have inserted := inserts next
  rw [armed] at inserted
  cases item with
  | skipped filler semicolon =>
    have inserted : semicolon.isSome = filler.breaksLine := inserted
    show (!filler.breaksLine) = true ↔ semicolon = none
    rw [← inserted, Bool.not_eq_true', Option.isSome_eq_false_iff, Option.isNone_iff_eq_none]
  | read step chars =>
    cases step with
    | token token => exact absurd rfl (other token chars)
    | invalid => exact ⟨fun _ => trivial, fun _ => rfl⟩
    | truncated | incomplete | endOfInput => exact ⟨nofun, nofun⟩

end

private theorem arms_iff_keepsLine : items.foldl Item.arms false = true ↔ EndedBy Item.KeepsLine items := by
  refine arms_iff_endedBy (fun _ _ => id) (fun {front later item} _ other _ => ?_) (List.append_nil items).symm
  cases item with
  | skipped filler semicolon =>
    show (!filler.breaksLine) = true ↔ filler.breaksLine = false
    rw [Bool.not_eq_true']
  | read step chars =>
    cases step with
    | token token => exact absurd rfl (other token chars)
    | invalid => exact ⟨fun _ => trivial, fun _ => rfl⟩
    | truncated | incomplete | endOfInput => exact ⟨nofun, nofun⟩

end

/-- Whether a kind of tokens is inserted and never written. -/
def TokenKind.IsSupplied (kind : TokenKind) : Prop := kind = .semicolon .newline ∨ kind = .semicolon .endOfInput

/-- A semicolon is inserted between two steps just if there is a newline, wherever it stands. -/
private theorem exists_semicolon_iff {items front later : List Item} {gap : List (Filler × Option Token)}
    (newline : ∀ {front later : List Item} {filler : Filler} {semicolon : Option Token},
      items = front ++ .skipped filler semicolon :: later →
        (semicolon.isSome = true ↔ EndedBy Item.Quiet front ∧ filler.breaksLine = true))
    (splits : items = front ++ gap.map (fun piece => .skipped piece.1 piece.2) ++ later) :
    (∃ piece ∈ gap, piece.2.isSome = true) ↔ EndedBy Item.Quiet front ∧ ∃ piece ∈ gap, piece.1.breaksLine = true := by
  induction gap generalizing front with
  | nil =>
    refine ⟨?_, ?_⟩
    · rintro ⟨piece, mem, -⟩
      cases mem
    · rintro ⟨-, piece, mem, -⟩
      cases mem
  | cons piece gap ih =>
    have here : piece.2.isSome = true ↔ EndedBy Item.Quiet front ∧ piece.1.breaksLine = true :=
      newline (splits.trans (List.append_assoc _ _ _))
    have behind := @ih (front ++ [.skipped piece.1 piece.2]) (splits.trans (by simp))
    have quiet : EndedBy Item.Quiet (front ++ [.skipped piece.1 piece.2]) ↔ EndedBy Item.Quiet front ∧ piece.2 = none :=
      EndedBy.concat_iff fun _ _ => nofun
    simp only [List.mem_cons, exists_eq_or_imp, behind, quiet]
    constructor
    · rintro (some | ⟨⟨ends, -⟩, breaks⟩)
      · exact ⟨(here.mp some).1, .inl (here.mp some).2⟩
      · exact ⟨ends, .inr breaks⟩
    · rintro ⟨ends, breaks | breaks⟩
      · exact .inl (here.mpr ⟨ends, breaks⟩)
      · cases absent : piece.2 with
        | some token => exact .inl rfl
        | none => exact .inr ⟨⟨ends, rfl⟩, breaks⟩

namespace Lexer

variable {lexer after : Lexer} {step : LexStep} {steps : List LexStep} {token other : Token}

theorem Reads.supplied (reads : lexer.Reads (.token token) after) (supplied : token.kind.IsSupplied) :
    lexer.armed = true ∧ after.armed = false := by
  generalize isStep : LexStep.token token = step at reads
  cases reads with
  | @whole _ _ _ _ kind _ _ scanned =>
    cases isStep
    obtain ⟨notNewline, notEnd, -⟩ := isWritten_apart (scanToken_isWritten (congrArg TokenScan.shape scanned))
    rcases supplied with newline | atEnd
    · exact absurd newline notNewline
    · exact absurd atEnd notEnd
  | lineEnd skipped =>
    obtain ⟨-, -, -, -, -, -, isArmed, -⟩ := gap_skips skipped
    exact ⟨isArmed, rfl⟩
  | inserted _ armed => exact ⟨armed, rfl⟩
  | cutOff | invalid | openComment | ended => cases isStep

theorem Lexes.apart (lexes : lexer.Lexes steps) {number : Nat} (there : steps[number]? = some (.token token))
    (next : steps[number + 1]? = some (.token other)) (supplied : token.kind.IsSupplied) : ¬ other.kind.IsSupplied := by
  induction lexes generalizing number with
  | ended => simp at there
  | comment => simp at next
  | more reads _ later ih =>
    cases number with
    | succ number => exact ih there next
    | zero =>
      obtain rfl := Option.some.inj there
      intro again
      cases later with
      | ended => simp at next
      | comment => simp at next
      | more reads' =>
        obtain rfl := Option.some.inj next
        exact absurd (reads'.supplied again).1 (Bool.eq_false_iff.mp (reads.supplied supplied).2)

end Lexer

/-- The semicolons that are inserted into a text of the items. -/
structure InsertsSemicolons (source : Nat) (text : List Char) (items : List Item) (steps : List LexStep) : Prop where
  newline : ∀ {front later : List Item} {filler : Filler} {semicolon : Option Token},
    items = front ++ .skipped filler semicolon :: later →
      (semicolon.isSome = true ↔ EndedBy Item.Quiet front ∧ filler.breaksLine = true)
  /-- Between two steps there is a semicolon just if there is a newline, wherever it stands. -/
  between : ∀ {front later : List Item} {gap : List (Filler × Option Token)},
    items = front ++ gap.map (fun piece => .skipped piece.1 piece.2) ++ later →
      ((∃ piece ∈ gap, piece.2.isSome = true) ↔ EndedBy Item.Quiet front ∧ ∃ piece ∈ gap, piece.1.breaksLine = true)
  inserted : EndedBy Item.KeepsLine items → steps = items.flatMap Item.steps ++ [.token (.insertedBehind source text)]
  uninserted : ¬ EndedBy Item.KeepsLine items → steps = items.flatMap Item.steps
  apart : ∀ {number : Nat} {token other : Token}, steps[number]? = some (.token token) →
    steps[number + 1]? = some (.token other) → token.kind.IsSupplied → ¬ other.kind.IsSupplied

/-- The semicolons that the lexer inserts are those that the rule of the language asks for. -/
theorem Lexer.steps_insertsSemicolons {source : Nat} {text : List Char} {steps : List LexStep} {last : Lexer}
    (collected : (ofText source text).steps = (.ok steps, last)) :
    ∃ items, Layout source text items ∧ InsertsSemicolons source text items steps := by
  obtain ⟨items, layout, inserts, same⟩ := layout_of_steps collected
  have newline : ∀ {front later : List Item} {filler : Filler} {semicolon : Option Token},
      items = front ++ .skipped filler semicolon :: later →
        (semicolon.isSome = true ↔ EndedBy Item.Quiet front ∧ filler.breaksLine = true) := by
    intro front later filler semicolon splits
    have inserted : semicolon.isSome = (front.foldl Item.arms false && filler.breaksLine) := inserts splits
    rw [inserted, Bool.and_eq_true, arms_iff_quiet inserts splits]
  refine ⟨items, layout, newline, exists_semicolon_iff newline, fun ends => ?_, fun unended => ?_,
    (Collects.of_steps collected).lexes.apart⟩
  · rw [same, ending, if_pos (arms_iff_keepsLine.mpr ends)]
  · rw [same, ending, if_neg fun armed => unended (arms_iff_keepsLine.mp armed), List.append_nil]

/-- A comment over two lines ends the line of a name, across a character that starts no token. -/
theorem Lexer.steps_insertsSemicolons_comment : ∃ steps last,
    (ofText 0 "x @ /*\n*/ \x7d".toList).steps = (.ok steps, last) ∧ steps.length = 5 ∧
      ∃ items, Layout 0 "x @ /*\n*/ \x7d".toList items ∧ InsertsSemicolons 0 "x @ /*\n*/ \x7d".toList items steps := by
  obtain ⟨steps, last, collected, count⟩ :=
    @steps_of_decide (ofText 0 "x @ /*\n*/ \x7d".toList) (fun steps => steps.length == 5) (by decide +kernel)
  exact ⟨steps, last, collected, by simpa using count, steps_insertsSemicolons collected⟩

end GoPrompt
