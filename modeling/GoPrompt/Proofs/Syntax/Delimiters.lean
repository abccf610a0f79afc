import GoPrompt.Parse.Stream

/-! Delimiters that match. Reading tokens from left to right, the openers that have no closing delimiter yet form a
stack; the tokens are properly nested and all closed exactly if every closing delimiter is of the kind of the opener on
top, and the stack is empty at the end. -/

namespace GoPrompt

namespace Operator

/-- The delimiter that closes what an opener opens. -/
def closer? : Operator → Option Operator
  | .leftParen => some .rightParen
  | .leftBracket => some .rightBracket
  | .leftBrace => some .rightBrace
  | _ => none

theorem isOpener_of_closer? {opener closer : Operator} (closes : opener.closer? = some closer) :
    opener.isOpener = true ∧ closer.isOpener = false ∧ closer.isCloser = true := by
  cases opener <;> cases closes <;> exact ⟨rfl, rfl, rfl⟩

end Operator

/-- Whether a token is no delimiter. -/
def TokenKind.isPlain : TokenKind → Bool
  | .operator symbol => !symbol.isOpener && !symbol.isCloser
  | _ => true

/-- The unmatched openers behind one more token. There are none if the token closes something else than the
innermost. -/
def matchNext (opened : List Operator) : TokenKind → Option (List Operator)
  | .operator operator =>
    if operator.isOpener then some (operator :: opened)
    else if operator.isCloser then
      match opened with
      | [] => none
      | innermost :: outer => if innermost.closer? = some operator then some outer else none
    else some opened
  | _ => some opened

/-- The openers, innermost first, that are unmatched behind some tokens; the tokens follow others behind which the given
ones were unmatched. -/
def unmatched (opened : List Operator) : List TokenKind → Option (List Operator)
  | [] => some opened
  | kind :: later => (matchNext opened kind).bind (unmatched · later)

section

variable {opened after : List Operator}

theorem matchNext_plain {kind : TokenKind} (plain : kind.isPlain = true) (opened : List Operator) :
    matchNext opened kind = some opened := by
  cases kind with
  | operator operator =>
    obtain ⟨notOpener, notCloser⟩ : operator.isOpener = false ∧ operator.isCloser = false := by
      simpa [TokenKind.isPlain] using plain
    simp only [matchNext, notOpener, notCloser, Bool.false_eq_true, ↓reduceIte]
  | identifier | keyword | literal | semicolon | illegal => rfl

theorem matchNext_opener {operator : Operator} (opens : operator.isOpener = true) (opened : List Operator) :
    matchNext opened (.operator operator) = some (operator :: opened) := by
  simp only [matchNext, opens, ↓reduceIte]

theorem matchNext_closer {opener closer : Operator} (closes : opener.closer? = some closer) (opened : List Operator) :
    matchNext (opener :: opened) (.operator closer) = some opened := by
  obtain ⟨-, notOpener, isCloser⟩ := Operator.isOpener_of_closer? closes
  simp only [matchNext, notOpener, isCloser, closes, Bool.false_eq_true, ↓reduceIte]

/-- What a token does to the unmatched openers: it is no delimiter, it opens, or it closes the innermost one. -/
private theorem matchNext_cases {kind : TokenKind} (matched : matchNext opened kind = some after) :
    (kind.isPlain = true ∧ after = opened) ∨
      (∃ operator, kind = .operator operator ∧ operator.isOpener = true ∧ after = operator :: opened) ∨
        ∃ opener closer, kind = .operator closer ∧ opener.closer? = some closer ∧ opened = opener :: after := by
  cases kind with
  | operator operator =>
    simp only [matchNext] at matched
    split at matched
    next opens => exact .inr (.inl ⟨operator, rfl, opens, (Option.some.inj matched).symm⟩)
    next notOpener =>
      split at matched
      next =>
        split at matched
        next => cases matched
        next innermost outer =>
          split at matched
          next closes =>
            cases matched
            exact .inr (.inr ⟨innermost, operator, rfl, closes, rfl⟩)
          next => cases matched
      next notCloser => exact .inl ⟨by simp [TokenKind.isPlain, notOpener, notCloser], (Option.some.inj matched).symm⟩
  | identifier | keyword | literal | semicolon | illegal => exact .inl ⟨rfl, (Option.some.inj matched).symm⟩

/-- A stream that closes nothing but the innermost delimiter keeps exactly the unmatched ones. -/
theorem delimitersAfter_eq {kind : TokenKind} (matched : matchNext opened kind = some after) :
    TokenStream.delimitersAfter kind opened = after := by
  rcases matchNext_cases matched with ⟨plain, rfl⟩ | ⟨operator, rfl, opens, rfl⟩ | ⟨opener, closer, rfl, closes, rfl⟩
  · cases kind with
    | operator operator =>
      obtain ⟨notOpener, notCloser⟩ : operator.isOpener = false ∧ operator.isCloser = false := by
        simpa [TokenKind.isPlain] using plain
      simp only [TokenStream.delimitersAfter, notOpener, notCloser, Bool.false_eq_true, ↓reduceIte]
    | identifier | keyword | literal | semicolon | illegal => rfl
  · simp only [TokenStream.delimitersAfter, opens, ↓reduceIte]
  · obtain ⟨-, notOpener, isCloser⟩ := Operator.isOpener_of_closer? closes
    simp only [TokenStream.delimitersAfter, notOpener, isCloser, Bool.false_eq_true, ↓reduceIte, List.tail_cons]

private theorem unmatched_append (opened : List Operator) (first second : List TokenKind) :
    unmatched opened (first ++ second) = (unmatched opened first).bind (unmatched · second) := by
  induction first generalizing opened with
  | nil => rfl
  | cons kind later ih =>
    simp only [List.cons_append, unmatched]
    cases matchNext opened kind with
    | none => rfl
    | some after => exact ih after

theorem unmatched_concat {kinds : List TokenKind} {last : List Operator} (before : unmatched opened kinds = some after)
    {kind : TokenKind} (matched : matchNext after kind = some last) :
    unmatched opened (kinds ++ [kind]) = some last := by
  rw [unmatched_append, before, Option.bind_some]
  simp only [unmatched, matched, Option.bind_some]

end

/-- Tokens whose delimiters are properly nested and all closed. -/
inductive Nested : List TokenKind → Prop
  | nil : Nested []
  | plain {kind : TokenKind} {later : List TokenKind} (isPlain : kind.isPlain = true) (rest : Nested later) :
      Nested (kind :: later)
  | pair {opener closer : Operator} {inner later : List TokenKind} (closes : opener.closer? = some closer)
      (inside : Nested inner) (rest : Nested later) : Nested (.operator opener :: inner ++ .operator closer :: later)

/-- Tokens that close the given openers, one behind the other and with nested tokens between them. -/
inductive Closes : List Operator → List TokenKind → Prop
  | all {kinds : List TokenKind} (nested : Nested kinds) : Closes [] kinds
  | next {opener closer : Operator} {outer : List Operator} {inner later : List TokenKind}
      (closes : opener.closer? = some closer) (inside : Nested inner) (rest : Closes outer later) :
      Closes (opener :: outer) (inner ++ .operator closer :: later)

theorem Closes.plain {opened : List Operator} {kinds : List TokenKind} {kind : TokenKind}
    (isPlain : kind.isPlain = true) (closes : Closes opened kinds) : Closes opened (kind :: kinds) := by
  cases closes with
  | all nested => exact .all (.plain isPlain nested)
  | next closes inside rest => exact .next closes (.plain isPlain inside) rest

/-- An opener in front of its closing delimiter, which is the first one that closes any of these. -/
theorem Closes.opened {opener : Operator} {outer : List Operator} {kinds : List TokenKind}
    (closes : Closes (opener :: outer) kinds) :
    Closes outer (.operator opener :: kinds) := by
  cases closes with
  | next closes inside behind =>
    cases behind with
    | all nested => exact .all (.pair closes inside nested)
    | next closes' inside' behind' =>
      have joined := Closes.next closes' (.pair closes inside inside') behind'
      simpa using joined

private theorem unmatched_cases {opened after : List Operator} {kinds : List TokenKind}
    (matched : unmatched opened kinds = some after) :
    (∃ closed, opened = closed ++ after ∧ Closes closed kinds) ∨
      ∃ innermost outer before behind, after = innermost :: outer ∧ kinds = before ++ .operator innermost :: behind ∧
        innermost.isOpener = true ∧ Nested behind := by
  induction kinds generalizing opened with
  | nil =>
    cases matched
    exact .inl ⟨[], rfl, .all .nil⟩
  | cons kind later ih =>
    obtain ⟨between, next, rest⟩ := Option.bind_eq_some_iff.mp matched
    rcases ih rest with ⟨closed, rfl, closes⟩ | ⟨innermost, outer, before, behind, rfl, rfl, opens, nested⟩
    · rcases matchNext_cases next with ⟨plain, rfl⟩ | ⟨operator, rfl, opens, same⟩ | ⟨opener, closer, rfl, pair, rfl⟩
      · exact .inl ⟨closed, rfl, closes.plain plain⟩
      · cases closed with
        | nil =>
          cases closes with
          | all nested => exact .inr ⟨operator, opened, [], later, same, rfl, opens, nested⟩
        | cons opener closed =>
          obtain ⟨rfl, rfl⟩ := List.cons.inj same
          exact .inl ⟨closed, rfl, closes.opened⟩
      · exact .inl ⟨opener :: closed, rfl, .next pair .nil closes⟩
    · exact .inr ⟨innermost, outer, kind :: before, behind, rfl, rfl, opens, nested⟩

private theorem closes_of_unmatched {opened : List Operator} {kinds : List TokenKind}
    (matched : unmatched opened kinds = some []) :
    Closes opened kinds := by
  rcases unmatched_cases matched with ⟨closed, rfl, closes⟩ | ⟨_, _, _, _, never, -⟩
  · simpa using closes
  · cases never

theorem Nested.unmatched {kinds : List TokenKind} (nested : Nested kinds) (opened : List Operator) :
    unmatched opened kinds = some opened := by
  induction nested generalizing opened with
  | nil => rfl
  | plain isPlain rest ih => simp only [GoPrompt.unmatched, matchNext_plain isPlain, Option.bind_some, ih]
  | @pair opener closer inner later closes inside rest ih ih' =>
    have opens := (Operator.isOpener_of_closer? closes).1
    rw [List.cons_append, GoPrompt.unmatched, matchNext_opener opens, Option.bind_some,
      unmatched_append, ih, Option.bind_some, GoPrompt.unmatched, matchNext_closer closes, Option.bind_some, ih']

theorem nested_iff {kinds : List TokenKind} : Nested kinds ↔ unmatched [] kinds = some [] := by
  refine ⟨fun nested => nested.unmatched [], fun matched => ?_⟩
  cases closes_of_unmatched matched with
  | all nested => exact nested

end GoPrompt
