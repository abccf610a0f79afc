import GoPrompt.Proofs.Lexical.Escapes
import GoPrompt.Proofs.Lexical.NumericTokens

/-! The string and rune literals that the lexer reads are those of the language, and it reads each of them as one token,
whatever stands behind it. -/

namespace GoPrompt

namespace Quoted

section

variable {quote : Char} {rest more text : List Char} {kind : LiteralKind}

private theorem interpreted_sound (closed : (interpreted quote (quote :: rest)).ending = .closed)
    (flawless : (interpreted quote (quote :: rest)).flaw = none) :
    ∃ inner, QuotedUnits quote (interpreted quote (quote :: rest)).units inner ∧
      (quote :: rest).take (interpreted quote (quote :: rest)).length = quote :: (inner ++ [quote]) := by
  obtain ⟨count, inner, behind, rfl, isUnits, isLength, isCount⟩ := body_sound _ closed flawless
  refine ⟨inner, ?_, ?_⟩
  · rw [interpreted, isCount, Nat.zero_add]
    exact isUnits
  · have parts : quote :: (inner ++ quote :: behind) = quote :: (inner ++ [quote]) ++ behind := by simp
    have size : 1 + inner.length + 1 = (quote :: (inner ++ [quote])).length := by simp; omega
    rw [interpreted, isLength, size, parts, List.take_left]

private theorem interpreted_complete {count : Nat} {inner : List Char} (isQuote : IsQuote quote)
    (isUnits : QuotedUnits quote count inner) (more : List Char) :
    interpreted quote (quote :: (inner ++ [quote]) ++ more) =
      ⟨(quote :: (inner ++ [quote])).length, count, none, .closed⟩ := by
  have read := @body_complete quote 1 0 count none inner isQuote isUnits more
  simp only [interpreted, List.cons_append, List.append_assoc, List.nil_append,
    List.drop_succ_cons, List.drop_zero, read, Nat.zero_add, List.length_cons, List.length_append, List.length_nil,
    Body.mk.injEq, and_true]
  omega

private theorem Reader.scan_sound {reader : Reader}
    (complete : (reader.scan (reader.quote :: rest)).outcome = .complete kind) :
    kind = reader.kind ∧ reader.wrong? (interpreted reader.quote (reader.quote :: rest)) = none ∧
      ∃ inner, QuotedUnits reader.quote (interpreted reader.quote (reader.quote :: rest)).units inner ∧
        (reader.quote :: rest).take (reader.scan (reader.quote :: rest)).length =
        reader.quote :: (inner ++ [reader.quote]) := by
  have judges := reader.judges (interpreted reader.quote (reader.quote :: rest))
  rw [show reader.outcome _ = _ from complete] at judges
  cases judges with
  | complete closed flawless right => exact ⟨rfl, right, interpreted_sound closed flawless⟩

private theorem scanString_sound (complete : (scanString (doubleQuote :: rest)).outcome = .complete kind) :
    QuotedLiteral kind ((doubleQuote :: rest).take (scanString (doubleQuote :: rest)).length) := by
  rw [scanString_eq] at complete ⊢
  obtain ⟨rfl, -, inner, isUnits, taken⟩ := @Reader.scan_sound _ _ Reader.string complete
  exact taken ▸ .interpreted isUnits

private theorem takeWhile_backquote (text : List Char) : text.takeWhile (· != backquote) = text ∧ backquote ∉ text ∨
    ∃ inner behind, text = inner ++ backquote :: behind ∧
    text.takeWhile (· != backquote) = inner ∧ backquote ∉ inner := by
  induction text with
  | nil => exact .inl ⟨rfl, List.not_mem_nil⟩
  | cons c rest ih =>
    by_cases isClosing : c = backquote
    · exact .inr ⟨[], rest, by rw [isClosing]; rfl, by simp [isClosing], List.not_mem_nil⟩
    · rw [List.takeWhile_cons_of_pos (p := (· != backquote)) (bne_iff_ne.mpr isClosing)]
      refine ih.imp (fun ⟨whole, plain⟩ => ⟨by rw [whole], ?_⟩) fun ⟨inner, behind, splits, taken, plain⟩ =>
        ⟨c :: inner, behind, by rw [splits]; rfl, by rw [taken], ?_⟩
      all_goals exact fun mem => (List.mem_cons.mp mem).elim (fun same => isClosing same.symm) plain

private theorem scanRawString_sound (complete : (scanRawString (backquote :: rest)).outcome = .complete kind) :
    QuotedLiteral kind ((backquote :: rest).take (scanRawString (backquote :: rest)).length) := by
  obtain rfl := scanRawString_only _ kind complete
  simp only [scanRawString_eq, List.drop_succ_cons, List.drop_zero] at complete ⊢
  rcases takeWhile_backquote rest with ⟨whole, -⟩ | ⟨inner, behind, rfl, taken, plain⟩
  · rw [whole, if_neg (by rw [List.length_cons]; omega)] at complete
    cases complete
  · have parts : backquote :: (inner ++ backquote :: behind) = backquote :: (inner ++ [backquote]) ++ behind := by simp
    have size : 1 + inner.length + 1 = (backquote :: (inner ++ [backquote])).length := by simp; omega
    rw [taken, if_pos (by simp only [List.length_cons, List.length_append]; omega), size, parts, List.take_left]
    exact .raw plain

private theorem scanRune_sound (complete : (scanRune (singleQuote :: rest)).outcome = .complete kind) :
    QuotedLiteral kind ((singleQuote :: rest).take (scanRune (singleQuote :: rest)).length) := by
  rw [scanRune_eq] at complete ⊢
  obtain ⟨rfl, right, inner, isUnits, taken⟩ := @Reader.scan_sound _ _ Reader.rune complete
  have single : (interpreted singleQuote (singleQuote :: rest)).units = 1 := by
    have right : unitFlaw? (interpreted singleQuote (singleQuote :: rest)) = none := right
    unfold unitFlaw? at right
    split at right
    next => cases right
    next =>
      split at right
      next => cases right
      next => omega
  have isUnits : QuotedUnits singleQuote (interpreted singleQuote (singleQuote :: rest)).units inner := isUnits
  rw [single] at isUnits
  exact taken ▸ .rune isUnits.single

/-- A literal is read as one, whatever stands behind it. -/
theorem scan_complete (literal : QuotedLiteral kind text) (more : List Char) :
    ∃ first rest, text ++ more = first :: rest ∧
    scanToken first rest = ⟨text.length, .whole (.literal kind)⟩ := by
  cases literal with
  | @interpreted count inner isUnits =>
    refine ⟨doubleQuote, (inner ++ [doubleQuote]) ++ more, rfl, ?_⟩
    have read := interpreted_complete (.inl rfl) isUnits more
    rw [List.cons_append] at read
    simp only [scanToken, scanString, read]
    rfl
  | @raw inner plain =>
    refine ⟨backquote, (inner ++ [backquote]) ++ more, rfl, ?_⟩
    have isInner : (inner ++ [backquote] ++ more).takeWhile (· != backquote) = inner := by
      rw [List.append_assoc, List.takeWhile_append_of_pos fun c mem => bne_iff_ne.mpr (ne_of_mem_of_not_mem mem plain)]
      simp
    have read : scanRawString (backquote :: (inner ++ [backquote] ++ more)) =
        ⟨1 + inner.length + 1, .complete .string⟩ := by
      rw [scanRawString_eq]
      simp only [List.drop_succ_cons, List.drop_zero, isInner]
      refine if_pos ?_
      simp only [List.length_cons, List.length_append, List.length_nil]
      omega
    simp only [scanToken, read]
    simp only [LiteralScan.toTokenScan, List.length_cons, List.length_append, List.length_nil]
    rw [Nat.add_comm 1]
    rfl
  | @rune unit isUnit =>
    refine ⟨singleQuote, (unit ++ [singleQuote]) ++ more, rfl, ?_⟩
    have read := interpreted_complete (.inr rfl) (.cons isUnit .nil) more
    rw [List.cons_append, List.append_nil] at read
    simp only [scanToken, scanRune, read]
    rfl

end

end Quoted

def LiteralKind.IsQuoted (kind : LiteralKind) : Prop := kind = .string ∨ kind = .rune

private theorem Number.Pieces.kind_isNumeric (pieces : Number.Pieces) : pieces.kind.IsNumeric := by
  unfold Pieces.kind Front.kind
  split
  · exact .inr (.inr rfl)
  · split
    · exact .inr (.inl rfl)
    · exact .inl rfl

theorem scanToken_quoted {first : Char} {rest : List Char} {kind : LiteralKind} {length : Nat}
    (isQuoted : kind.IsQuoted) (scanned : scanToken first rest = ⟨length, .whole (.literal kind)⟩) :
    QuotedLiteral kind ((first :: rest).take length) := by
  have starts := tokenSort_starts first (startsNumber first rest)
  rw [scanToken_eq] at scanned
  obtain ⟨sort, isLiteral⟩ := TokenSort.literal_of_whole scanned
  rw [isLiteral] at scanned starts
  obtain ⟨_, ⟨⟩, complete, rfl⟩ := LiteralScan.toTokenScan_whole scanned
  cases sort with
  | number =>
    obtain ⟨pieces, -, -, -, rfl, -⟩ := Number.read_sound (scan_complete_iff.mp scanned)
    rcases isQuoted with isString | isRune
    · rcases pieces.kind_isNumeric with isKind | isKind | isKind <;> cases isString.symm.trans isKind
    · rcases pieces.kind_isNumeric with isKind | isKind | isKind <;> cases isRune.symm.trans isKind
  | interpreted =>
    obtain rfl : first = Quoted.doubleQuote := starts
    exact Quoted.scanString_sound complete
  | raw =>
    obtain rfl : first = Quoted.backquote := starts
    exact Quoted.scanRawString_sound complete
  | rune =>
    obtain rfl : first = Quoted.singleQuote := starts
    exact Quoted.scanRune_sound complete

namespace Lexer

variable {lexer after : Lexer} {token : Token} {kind : LiteralKind} {text more : List Char} {stop : Nat} {first : Char}

end Lexer

end GoPrompt
