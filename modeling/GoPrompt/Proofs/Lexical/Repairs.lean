import GoPrompt.Proofs.Lexical.Encoding
import GoPrompt.Proofs.Lexical.Places
import GoPrompt.Proofs.Lexical.QuotedTokens
import GoPrompt.Proofs.Lexical.Unfinished

/-! What more text can make of a token that is cut off or invalid. An invalid token stays invalid. A literal that is
cut off may become whole unless something in it is wrong already, and then a point, an exponent or a suffix may change
its kind. -/

namespace GoPrompt

/-- The literals that are written so far and in which nothing is wrong. -/
inductive Unspoiled : LiteralKind → List Char → Prop
  | quotation {kind : LiteralKind} {text : List Char} (begun : BegunQuotation kind text) : Unspoiled kind text
  | number {kind : LiteralKind} {text : List Char} (starts : StartsNumber text) (fit : SeparatorsFit text) :
      Unspoiled kind text

/-- A literal between quotes that a longer text makes whole is cut off in front of that. -/
theorem Quoted.Continues.whole {kind : LiteralKind} {size length : Nat} {longer shorter : LiteralScan}
    {found : TokenKind} (continues : Continues kind size longer shorter)
    (broken : ∀ kind, shorter.toTokenScan.shape ≠ .whole kind) (whole : longer.toTokenScan = ⟨length, .whole found⟩) :
    ∃ cause, shorter.toTokenScan.shape = .cutOff kind cause ∧ found = .literal kind ∧ size < length := by
  obtain ⟨later, rfl, complete, rfl⟩ := LiteralScan.toTokenScan_whole whole
  rcases continues with rfl | ⟨⟨cause, cutOff⟩, completes, -⟩
  · exact absurd (congrArg TokenScan.shape whole) (broken _)
  · obtain ⟨rfl, beyond⟩ := completes later complete
    exact ⟨cause, by simp [LiteralScan.toTokenScan, cutOff], rfl, beyond⟩

section

variable {first : Char} {rest more : List Char} {length : Nat} {kind : LiteralKind} {found : TokenKind}

/-- A token that a longer text makes whole is a number, or a literal between quotes that is cut off. -/
private theorem scanToken_of_broken (broken : ∀ kind, (scanToken first rest).shape ≠ .whole kind)
    (longer : scanToken first (rest ++ more) = ⟨length, .whole found⟩) :
    (startsNumber first rest = true ∧ scanToken first rest = (Number.scan (first :: rest)).toTokenScan ∧
      (Number.scan (first :: rest ++ more)).toTokenScan = ⟨length, .whole found⟩) ∨
      ∃ kind cause, kind.IsQuoted ∧ (scanToken first rest).shape = .cutOff kind cause ∧ found = .literal kind ∧
        rest.length + 1 < length := by
  have nonempty : first :: rest ≠ [] := List.cons_ne_nil _ _
  have starts : startsNumber first (rest ++ more) = startsNumber first rest := by
    refine (startsNumber_append first rest more).resolve_right ?_
    rintro ⟨rfl, rfl, -⟩
    exact broken (.operator .period) (by decide)
  have isNumber := tokenSort_starts first (startsNumber first rest)
  rw [scanToken_eq] at broken
  rw [scanToken_eq, starts] at longer
  rw [scanToken_eq]
  generalize tokenSort first (startsNumber first rest) = sort at broken longer isNumber ⊢
  cases sort with
  | name | semicolon => exact absurd rfl (broken _)
  | literal sort =>
    cases sort with
    | number => exact .inl ⟨isNumber, rfl, longer⟩
    | interpreted =>
      rw [TokenSort.scan, LiteralSort.scan, Quoted.scanString_eq] at broken longer ⊢
      obtain ⟨cause, isCut⟩ := (Quoted.Reader.string.scan_append nonempty more).whole broken longer
      exact .inr ⟨.string, cause, .inl rfl, isCut⟩
    | raw =>
      obtain ⟨cause, isCut⟩ := (Quoted.scanRawString_append nonempty more).whole broken longer
      exact .inr ⟨.string, cause, .inl rfl, isCut⟩
    | rune =>
      obtain ⟨cause, isCut⟩ := (Quoted.Reader.rune.scan_append nonempty more).whole broken longer
      exact .inr ⟨.rune, cause, .inr rfl, isCut⟩
  | operator =>
    simp only [TokenSort.scan] at broken longer
    split at broken
    next => exact absurd rfl (broken _)
    next none =>
      split at longer
      next operator isFound => exact absurd none (operator?_ne_none (first_mem_spelling isFound) rest)
      next => cases longer

private theorem scanToken_number (notName : ¬ isNameStart first = true) (starts : startsNumber first rest = true) :
    scanToken first rest = (Number.scan (first :: rest)).toTokenScan := by
  simp only [scanToken, notName, starts, Bool.false_eq_true, ↓reduceIte]

private theorem head_ne_separator (starts : startsNumber first rest = true) : (first :: rest).head? ≠ some '_' := by
  rintro ⟨⟩
  simp [startsNumber] at starts

private theorem begun_of_quoted (isQuoted : kind.IsQuoted)
    (longer : scanToken first (rest ++ more) = ⟨length, .whole (.literal kind)⟩) (beyond : rest.length + 1 < length) :
    BegunQuotation kind (first :: rest) := by
  have literal := scanToken_quoted isQuoted longer
  have parts : (first :: (rest ++ more)).take length = first :: rest ++ more.take (length - (rest.length + 1)) := by
    rw [← List.cons_append, List.take_append, List.take_of_length_le (Nat.le_of_lt beyond), List.length_cons]
  have within : length ≤ rest.length + more.length + 1 := by
    have within := scanToken_length_le first (rest ++ more)
    rwa [longer, List.length_append] at within
  have unfinished : more.take (length - (rest.length + 1)) ≠ [] := by
    rw [ne_eq, List.take_eq_nil_iff, ← List.length_eq_zero_iff]
    omega
  rw [parts] at literal
  exact literal.begun (List.cons_ne_nil _ _) unfinished

private theorem unspoiled_of_whole (broken : ∀ kind, (scanToken first rest).shape ≠ .whole kind)
    (longer : scanToken first (rest ++ more) = ⟨length, .whole found⟩) :
    ∃ kind cause later, (scanToken first rest).shape = .cutOff kind cause ∧
    found = .literal later ∧ kind.MayBecome later ∧
      Unspoiled kind (first :: rest) := by
  rcases scanToken_of_broken broken longer with ⟨starts, scanned, whole⟩ | ⟨kind, cause, isQuoted, cutOff, rfl, beyond⟩
  · obtain ⟨later, rfl, -, -⟩ := LiteralScan.toTokenScan_whole whole
    rcases Number.scan_of_longer (List.cons_ne_nil _ _) (head_ne_separator starts) (scan_complete_iff.mp whole) with
      ⟨kind, complete⟩ | ⟨fit, kind, cause, cutOff, becomes⟩
    · rw [scanned] at broken
      exact absurd (by simp [LiteralScan.toTokenScan, complete]) (broken (.literal kind))
    · exact ⟨kind, cause, later, by simp [scanned, LiteralScan.toTokenScan, cutOff], rfl, becomes,
        .number ⟨_, _, rfl, starts⟩ fit⟩
  · have becomes : kind.MayBecome kind := by rcases isQuoted with rfl | rfl <;> rfl
    exact ⟨kind, cause, kind, cutOff, rfl, becomes, .quotation (begun_of_quoted isQuoted longer beyond)⟩

/-- A literal that is cut off, and in which nothing is wrong, becomes whole with a little more text. -/
theorem Unspoiled.finished {cause : CutoffCause} (unspoiled : Unspoiled kind (first :: rest))
    (cutOff : (scanToken first rest).shape = .cutOff kind cause) :
    ∃ more length found, byteSize more ≤ 9 ∧ scanToken first (rest ++ more) = ⟨length, .whole found⟩ := by
  cases unspoiled with
  | quotation begun =>
    obtain ⟨more, small, literal⟩ := begun.finished
    obtain ⟨first', rest', splits, scanned⟩ := Quoted.scan_complete literal []
    rw [List.append_nil] at splits
    obtain ⟨rfl, rfl⟩ := List.cons.inj splits
    exact ⟨more, _, _, small, scanned⟩
  | number starts fit =>
    obtain ⟨first', rest', same, starts⟩ := starts
    obtain ⟨rfl, rfl⟩ := List.cons.inj same
    have notName : ¬ isNameStart first = true := by
      intro isName
      simp [scanToken, isName] at cutOff
    rw [scanToken_number notName starts] at cutOff
    obtain ⟨draft, begun, chars⟩ := Number.draft_of_cutOff (LiteralScan.outcome_of_cutOff cutOff)
    obtain ⟨tail, isTail, later, read⟩ :=
      begun.finished (chars ▸ fit) (chars ▸ List.cons_ne_nil _ _) (chars ▸ head_ne_separator starts)
    rw [chars] at read
    have startsLonger : startsNumber first (rest ++ '0' :: tail) = true := by
      refine ((startsNumber_append first rest _).resolve_right ?_).trans starts
      rintro ⟨rfl, rfl, -⟩
      cases starts
    refine ⟨'0' :: tail, _, _, ?_, (scanToken_number notName startsLonger).trans (scan_complete_iff.mpr read)⟩
    simp only [List.mem_cons, List.not_mem_nil, or_false] at isTail
    rcases isTail with rfl | rfl | rfl <;> decide

end

namespace Lexer

section

variable {lexer : Lexer} {source offset : Nat} {text more rest : List Char} {first : Char} {step : LexStep}
  {token found : Token}

theorem ComesTo.nonempty (comes : lexer.ComesTo offset first rest) : lexer.rest ≠ [] := by
  obtain ⟨last, passes, stands⟩ := comes
  obtain ⟨stop, -, here, -⟩ := stands.ahead
  obtain ⟨taken, splits, -⟩ := passes.takes
  intro empty
  rw [(List.append_eq_nil_iff.mp (splits.symm.trans empty)).2, List.drop_nil] at here
  cases here

/-- The lexer comes to a token that is cut off or invalid in every longer text. -/
theorem ComesTo.append (comes : (ofText source text).ComesTo offset first rest)
    (broken : ∀ kind, (scanToken first rest).shape ≠ .whole kind) (more : List Char) :
    (ofText source (text ++ more)).ComesTo offset first (rest ++ more) := by
  have nonempty : text ≠ [] := by
    rintro rfl
    exact comes.nonempty rfl
  obtain ⟨anchored, notSlash⟩ := anchored_of_scan broken
  rw [ofText_append nonempty]
  exact comes.withMore anchored (fun _ => notSlash) more

private theorem Produces.unspoiled (produces : (ofText source text).Produces step) (isToken : step.token? = some token)
    (broken : ∀ token, step ≠ .token token) (longer : (ofText source (text ++ more)).Produces (.token found))
    (starts : found.span.start = token.span.start) :
    ∃ kind later cutoff, step = .truncated token cutoff ∧ token.kind = .literal kind ∧ found.kind = .literal later ∧
      kind.MayBecome later ∧ Unspoiled kind token.lexeme.toList := by
  obtain ⟨first, rest, length, comes, scanned⟩ := produces.comesTo isToken broken
  have notWhole : ∀ kind, (scanToken first rest).shape ≠ .whole kind := by
    rcases scanned with ⟨flaw, -, -, scanned⟩ | ⟨kind, cause, -, -, scanned, -, -⟩ <;> rw [scanned] <;> exact nofun
  obtain ⟨_, _, whole, rfl⟩ := (comes.append notWhole more).whole longer starts
  obtain ⟨kind, cause, later, cutOff, isLater, becomes, unspoiled⟩ := unspoiled_of_whole notWhole whole
  rcases scanned with ⟨flaw, -, -, scanned⟩ | ⟨_, _, cutoff, isStep, scanned, isKind, isLexeme⟩
  · rw [scanned] at cutOff
    cases cutOff
  · rw [scanned] at cutOff
    cases cutOff
    exact ⟨kind, later, cutoff, isStep, isKind, isLater, becomes, by rwa [isLexeme, String.toList_ofList]⟩

/-- A literal that is cut off, and in which nothing is wrong, is whole in a text that is not much longer. -/
theorem Produces.finished {kind : LiteralKind} {cutoff : Cutoff}
    (produces : (ofText source text).Produces (.truncated token cutoff)) (isKind : token.kind = .literal kind)
    (unspoiled : Unspoiled kind token.lexeme.toList) (room : byteSize text + 9 ≤ maxOffset) :
    ∃ more found, (ofText source (text ++ more)).Produces (.token found) ∧ found.span.start = token.span.start := by
  obtain ⟨first, rest, length, comes, scanned⟩ := produces.comesTo rfl nofun
  rcases scanned with ⟨_, _, isStep, -⟩ | ⟨_, cause, _, -, scanned, isLiteral, isLexeme⟩
  · cases isStep
  · cases isKind.symm.trans isLiteral
    rw [isLexeme, String.toList_ofList] at unspoiled
    obtain ⟨more, length, found, small, whole⟩ := unspoiled.finished (congrArg TokenScan.shape scanned)
    have longer := comes.append (by rw [scanned]; exact nofun) more
    have fits : (ofText source (text ++ more)).offset + byteSize (ofText source (text ++ more)).rest ≤ maxOffset := by
      rw [ofText_size, byteSize_append]
      omega
    obtain ⟨found, produces, starts⟩ := longer.produces whole fits
    exact ⟨more, found, produces, starts⟩

/-- An invalid token stays one: whatever follows, no token starts in its place. -/
theorem invalid_irreparable {diagnostic : LexDiagnostic}
    (produces : (ofText source text).Produces (.invalid token diagnostic))
    (longer : (ofText source (text ++ more)).Produces (.token found)) : found.span.start ≠ token.span.start := by
  intro starts
  obtain ⟨_, _, _, isTruncated, -⟩ := produces.unspoiled rfl nofun longer starts
  cases isTruncated

/-- More digits do not mend a number with a misplaced separator. -/
theorem invalid_irreparable_separator :
    ∃ token diagnostic found, (ofText 0 "x 1__0".toList).Produces (.invalid token diagnostic) ∧
    (ofText 0 ("x 1__0".toList ++ "5 + 1".toList)).Produces (.token found) ∧ found.span.start ≠ token.span.start := by
  have produces : (ofText 0 "x 1__0".toList).Produces (.invalid ⟨.illegal, "1__0", Span.ofLength 0 2 4⟩ _) :=
    .later (.here (by rfl))
  have longer : (ofText 0 ("x 1__0".toList ++ "5 + 1".toList)).Produces
      (.token ⟨.identifier, "x", Span.ofLength 0 0 1⟩) :=
    .here (by rfl)
  exact ⟨_, _, _, produces, longer, invalid_irreparable produces longer⟩

/-- A literal that is cut off may become whole if nothing in it is wrong, and only then. -/
theorem truncated_finishes_iff {cutoff : Cutoff} (produces : (ofText source text).Produces (.truncated token cutoff))
    (room : byteSize text + 9 ≤ maxOffset) :
    (∃ more found, (ofText source (text ++ more)).Produces (.token found) ∧ found.span.start = token.span.start) ↔
      ∃ kind, token.kind = .literal kind ∧ Unspoiled kind token.lexeme.toList := by
  constructor
  · rintro ⟨more, found, longer, starts⟩
    obtain ⟨kind, _, _, -, isKind, -, -, unspoiled⟩ := produces.unspoiled rfl nofun longer starts
    exact ⟨kind, isKind, unspoiled⟩
  · rintro ⟨kind, isKind, unspoiled⟩
    exact produces.finished isKind unspoiled room

/-- A string that is cut off inside an escape. -/
theorem truncated_finishes_escape :
    ∃ token cutoff, (ofText 0 "x := \"a\\x4".toList).Produces (.truncated token cutoff) ∧
    byteSize "x := \"a\\x4".toList + 9 ≤ maxOffset ∧ ∃ more found,
      (ofText 0 ("x := \"a\\x4".toList ++ more)).Produces (.token found) ∧ found.span.start = token.span.start := by
  have produces : (ofText 0 "x := \"a\\x4".toList).Produces
      (.truncated ⟨.literal .string, "\"a\\x4", Span.ofLength 0 5 5⟩ _) := .later (.later (.here (by rfl)))
  have room : byteSize "x := \"a\\x4".toList + 9 ≤ maxOffset := by decide
  have isDigits : ∀ c ∈ ['4'], Radix.hexadecimal.HasDigit c := by simp [Radix.HasDigit]
  have units : QuotedUnits Quoted.doubleQuote 1 (['a'] ++ []) := .cons (.plain (by decide) (by decide) (by decide)) .nil
  have unspoiled : Unspoiled .string "\"a\\x4".toList :=
    .quotation (.interpreted units (.inr (.mk .byte isDigits (by decide) (by decide))))
  exact ⟨_, _, produces, room, (truncated_finishes_iff produces room).mpr ⟨.string, rfl, unspoiled⟩⟩

/-- A rune literal with a second character is cut off at the end of the text, although nothing makes it whole. -/
theorem truncated_rune_neverFinishes : ∃ token cutoff, (ofText 0 "'ab".toList).Produces (.truncated token cutoff) ∧
    ∀ more found, (ofText 0 ("'ab".toList ++ more)).Produces (.token found) → found.span.start ≠ token.span.start := by
  have produces : (ofText 0 "'ab".toList).Produces (.truncated ⟨.literal .rune, "'ab", Span.ofLength 0 0 3⟩ _) :=
    .here (by rfl)
  refine ⟨_, _, produces, fun more found longer starts => ?_⟩
  obtain ⟨kind, _, _, -, isKind, -, -, unspoiled⟩ := produces.unspoiled rfl nofun longer starts
  cases isKind
  generalize isText : "'ab".toList = text at unspoiled
  cases unspoiled with
  | number starts =>
    obtain ⟨first, rest, rfl, starts⟩ := starts
    cases isText
    cases starts
  | quotation begun =>
    cases begun with
    | rune isLast =>
      obtain ⟨-, rfl⟩ := List.cons.inj isText
      rcases isLast with empty | isUnit | isEscape
      · cases empty
      · cases isUnit with
        | escape isEscape => cases isEscape
      · cases isEscape

/-- A literal that is cut off becomes one of the same kind, or a number with a point, an exponent or a suffix. -/
theorem truncated_mayBecome {cutoff : Cutoff} (produces : (ofText source text).Produces (.truncated token cutoff))
    (longer : (ofText source (text ++ more)).Produces (.token found)) (starts : found.span.start = token.span.start) :
    ∃ kind later, token.kind = .literal kind ∧ found.kind = .literal later ∧ kind.MayBecome later := by
  obtain ⟨kind, later, _, -, isKind, isLater, becomes, -⟩ := produces.unspoiled rfl nofun longer starts
  exact ⟨kind, later, isKind, isLater, becomes⟩

/-- A floating-point number that lacks an exponent. -/
theorem truncated_mayBecome_imaginary :
    ∃ token cutoff found, (ofText 0 "0x1.".toList).Produces (.truncated token cutoff) ∧
    (ofText 0 ("0x1.".toList ++ "p0i".toList)).Produces (.token found) ∧ found.span.start = token.span.start ∧
      ∃ kind later, token.kind = .literal kind ∧ found.kind = .literal later ∧ kind.MayBecome later := by
  have produces : (ofText 0 "0x1.".toList).Produces (.truncated ⟨.literal .float, "0x1.", Span.ofLength 0 0 4⟩ _) :=
    .here (by rfl)
  have longer : (ofText 0 ("0x1.".toList ++ "p0i".toList)).Produces
      (.token ⟨.literal .imaginary, "0x1.p0i", Span.ofLength 0 0 7⟩) := .here (by rfl)
  exact ⟨_, _, _, produces, longer, rfl, truncated_mayBecome produces longer rfl⟩

/-- A number with a leading zero and a digit that is too large counts as an integer while it is cut off. -/
theorem truncated_int_becomesFloat : ∃ token cutoff found, (ofText 0 "08".toList).Produces (.truncated token cutoff) ∧
    (ofText 0 ("08".toList ++ ".5".toList)).Produces (.token found) ∧ found.span.start = token.span.start ∧
      found.kind ≠ token.kind := by
  have produces : (ofText 0 "08".toList).Produces (.truncated ⟨.literal .int, "08", Span.ofLength 0 0 2⟩ _) :=
    .here (by rfl)
  have longer : (ofText 0 ("08".toList ++ ".5".toList)).Produces
      (.token ⟨.literal .float, "08.5", Span.ofLength 0 0 4⟩) :=
    .here (by rfl)
  exact ⟨_, _, _, produces, longer, rfl, by decide⟩

end

end Lexer

end GoPrompt
