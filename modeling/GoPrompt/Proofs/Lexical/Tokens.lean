import GoPrompt.Proofs.Lexical.Sorts
import GoPrompt.Proofs.Lexical.Strings

/-! What becomes of the token at the end of a text when the text goes on behind it. With a blank behind
it, a token stays as it is unless the end of the text cut it off; and a token that a longer text has
within the shorter one is there, too. -/

namespace GoPrompt

/-- What may stand between two tokens. -/
def isBlank (c : Char) : Bool := isHorizontalBlank c || c == '\n'

/-- Whether a text is empty or starts with a blank. -/
def StartsBlank (text : List Char) : Prop := text.head?.all isBlank = true

theorem StartsBlank.any_eq_false {text : List Char} (blank : StartsBlank text) {p : Char → Bool}
    (apart : ∀ c, isBlank c = true → p c = false) : text.head?.any p = false := by
  cases text with
  | nil => rfl
  | cons c rest => exact apart c (by simpa [StartsBlank] using blank)

theorem isBlank_iff {c : Char} : isBlank c = true ↔ c = ' ' ∨ c = '\t' ∨ c = '\r' ∨ c = '\n' := by
  simp [isBlank, isHorizontalBlank, or_assoc]

/-- How the token at the start of a text changes when the text, which has `size` characters, goes on with
`more`. -/
def TokenScan.Continues (size : Nat) (more : List Char) (longer shorter : TokenScan) : Prop :=
  longer = shorter ∨
    (size < longer.length ∧ ¬ StartsBlank more) ∨
    ∃ kind cause, shorter.shape = .cutOff kind cause ∧
      (∀ found, longer.shape = .whole found → found = .literal kind ∧ size < longer.length) ∧
      (∀ found cause, longer.shape = .cutOff found cause → found = kind)

private theorem Number.not_startsBlank {more : List Char} (starts : more.head?.any Number.isOfNumber = true) :
    ¬ StartsBlank more := by
  intro blank
  rw [blank.any_eq_false] at starts
  · cases starts
  · intro c isBlank
    rcases isBlank_iff.mp isBlank with rfl | rfl | rfl | rfl <;> decide

theorem LiteralScan.continues {kind : LiteralKind} {size : Nat} {longer shorter : LiteralScan} (more : List Char)
    (continues : Quoted.Continues kind size longer shorter) :
    TokenScan.Continues size more longer.toTokenScan shorter.toTokenScan := by
  rcases continues with same | ⟨⟨cause, cutOff⟩, completes, cuts⟩
  · exact .inl (by rw [same])
  · refine .inr (.inr ⟨kind, cause, by simp [toTokenScan, cutOff], fun found whole => ?_, fun found cause cut => ?_⟩)
    · cases outcome : longer.outcome <;> simp only [toTokenScan, outcome] at whole
      next read =>
        cases whole
        obtain ⟨rfl, beyond⟩ := completes read outcome
        exact ⟨rfl, beyond⟩
      all_goals cases whole
    · cases outcome : longer.outcome <;> simp only [toTokenScan, outcome] at cut
      all_goals cases cut
      exact cuts found cause outcome

theorem Number.scan_append {text : List Char} (nonempty : text ≠ []) (more : List Char) :
    TokenScan.Continues text.length more (Number.scan (text ++ more)).toTokenScan (Number.scan text).toTokenScan := by
  rcases read_append nonempty more with same | ⟨beyond, -, starts⟩
  · cases read : Number.read text with
    | ok value =>
      left
      simp only [scan, same, read]
    | error fault =>
      have within : fault.length ≤ text.length := by
        have := covered_read_le text
        rwa [read] at this
      by_cases reparable : (fault.reparable && (text.drop fault.length).isEmpty) = true
      · right; right
        refine ⟨fault.kind, .number fault.cause, ?_, fun found whole => ?_, fun found cause cut => ?_⟩
        · simp only [scan, read, reparable, ↓reduceIte, LiteralScan.toTokenScan]
        all_goals
          simp only [scan, same, read] at *
          split at * <;> simp_all [LiteralScan.toTokenScan]
      · left
        have unfinished : (fault.reparable && ((text ++ more).drop fault.length).isEmpty) = false := by
          rw [List.drop_append_of_le_length within]
          refine Bool.eq_false_iff.mpr fun still => reparable ?_
          obtain ⟨repairs, ended⟩ := Bool.and_eq_true_iff.mp still
          have := (List.append_eq_nil_iff.mp (List.isEmpty_iff.mp ended)).1
          rw [repairs, this]
          rfl
        simp only [scan, same, read, reparable, unfinished]
  · refine .inr (.inl ⟨Nat.lt_of_lt_of_le beyond ?_, not_startsBlank starts⟩)
    unfold scan
    cases Number.read (text ++ more) with
    | ok value => exact Nat.le_refl _
    | error fault =>
      dsimp only
      split <;> exact Nat.le_refl _

private theorem Number.one_lt_scan_length {c : Char} {rest : List Char} (digit : c.isDigit = true) :
    1 < (Number.scan ('.' :: c :: rest)).length := by
  have read : 1 < covered Prod.snd (Number.read ('.' :: c :: rest)) := by
    refine Nat.lt_of_lt_of_le ?_ (covered_mantissa_le_read _)
    have behind : mantissa ('.' :: c :: rest) = mantissaBehind .decimal [] 0 ('.' :: c :: rest) := by
      rw [mantissa_eq]
      rfl
    rw [behind]
    simp only [mantissaBehind, reduceCtorEq, or_self, ↓reduceIte, run, List.takeWhile_cons, continues_digit digit,
      List.length_cons]
    split <;> simp only [covered] <;> omega
  unfold scan
  cases ran : Number.read ('.' :: c :: rest) with
  | ok value => simpa only [ran, covered] using read
  | error fault =>
    simp only [ran, covered] at read
    dsimp only
    split <;> exact read

theorem not_isBlank_of_mem_spelling {operator : Operator} {c : Char} (mem : c ∈ operator.spelling) :
    isBlank c = false := by
  have all : operator.spelling.all (fun c => !isBlank c) = true := by cases operator <;> decide
  simpa using List.all_eq_true.mp all c mem

/-- The operator at the start of a text, or a longer one that reaches beyond the text. -/
theorem operator?_append (text more : List Char) : operator? (text ++ more) = operator? text ∨
    ∃ operator, operator? (text ++ more) = some operator ∧
    text.length < operator.spelling.length ∧ ¬ StartsBlank more := by
  have either : ∀ operators : List Operator,
      operators.find? (fun operator => operator.spelling.isPrefixOf (text ++ more)) =
        operators.find? (fun operator => operator.spelling.isPrefixOf text) ∨
      ∃ operator, operators.find? (fun operator => operator.spelling.isPrefixOf (text ++ more)) = some operator ∧
        operator.spelling.isPrefixOf text = false := by
    intro operators
    induction operators with
    | nil => exact .inl rfl
    | cons operator rest ih =>
      rw [List.find?_cons, List.find?_cons]
      cases there : operator.spelling.isPrefixOf text with
      | true =>
        have longer : operator.spelling.isPrefixOf (text ++ more) = true :=
          List.isPrefixOf_iff_prefix.mpr ((List.isPrefixOf_iff_prefix.mp there).trans (List.prefix_append _ _))
        exact .inl (by rw [longer])
      | false =>
        cases longer : operator.spelling.isPrefixOf (text ++ more) with
        | true => exact .inr ⟨operator, rfl, there⟩
        | false => exact ih
  refine (either Operator.longestFirst).imp_right fun ⟨operator, found, absent⟩ => ⟨operator, found, ?_⟩
  have isThere : operator.spelling.isPrefixOf (text ++ more) = true := by simpa using List.find?_some found
  have longer := List.isPrefixOf_iff_prefix.mp isThere
  have beyond : text.length < operator.spelling.length := by
    refine Nat.lt_of_not_le fun within => ?_
    have := List.prefix_of_prefix_length_le longer (List.prefix_append text more) within
    rw [List.isPrefixOf_iff_prefix.mpr this] at absent
    cases absent
  refine ⟨beyond, fun blank => ?_⟩
  cases more with
  | nil =>
    rw [List.append_nil] at longer
    exact absurd longer.length_le (Nat.not_le.mpr beyond)
  | cons c rest =>
    obtain ⟨behind, whole⟩ := longer
    have at_end := congrArg (·[text.length]?) whole
    simp only [List.getElem?_append_left beyond, List.getElem?_append_right (Nat.le_refl _), Nat.sub_self,
      List.getElem?_cons_zero] at at_end
    have apart := not_isBlank_of_mem_spelling (List.mem_of_getElem? at_end)
    rw [show isBlank c = true by simpa [StartsBlank] using blank] at apart
    cases apart

private theorem not_continuesName_of_isBlank (c : Char) (blank : isBlank c = true) : continuesName c = false := by
  rcases isBlank_iff.mp blank with rfl | rfl | rfl | rfl <;> decide

theorem not_isDigit_of_isBlank (c : Char) (blank : isBlank c = true) : c.isDigit = false := by
  rcases isBlank_iff.mp blank with rfl | rfl | rfl | rfl <;> decide

/-- Whether a number starts here is settled by two characters, of which the second may be missing. -/
theorem startsNumber_append (first : Char) (rest more : List Char) :
    startsNumber first (rest ++ more) = startsNumber first rest ∨
      (first = '.' ∧ rest = [] ∧ more.head?.any Char.isDigit = true) := by
  cases rest with
  | cons c tail => exact .inl rfl
  | nil =>
    by_cases point : first = '.'
    · cases digit : more.head?.any Char.isDigit with
      | true => exact .inr ⟨point, rfl, rfl⟩
      | false =>
        left
        simp [startsNumber, digit]
    · left
      simp [startsNumber, point]

theorem LiteralSort.scan_append (sort : LiteralSort) {text : List Char} (nonempty : text ≠ []) (more : List Char) :
    TokenScan.Continues text.length more (sort.scan (text ++ more)).toTokenScan (sort.scan text).toTokenScan := by
  cases sort with
  | number => exact Number.scan_append nonempty more
  | interpreted =>
    rw [scan, Quoted.scanString_eq]
    exact LiteralScan.continues more (Quoted.Reader.string.scan_append nonempty more)
  | raw => exact LiteralScan.continues more (Quoted.scanRawString_append nonempty more)
  | rune => exact LiteralScan.continues more (Quoted.Reader.rune.scan_append nonempty more)

private theorem scanToken_append (first : Char) (rest more : List Char) :
    TokenScan.Continues (rest.length + 1) more (scanToken first (rest ++ more)) (scanToken first rest) := by
  rcases startsNumber_append first rest more with same | ⟨rfl, rfl, digit⟩
  · rw [scanToken_eq, scanToken_eq, same]
    cases tokenSort first (startsNumber first rest) with
    | name =>
      rcases takeWhile_append_or continuesName rest more with same | ⟨beyond, starts⟩
      · exact .inl (by simp only [TokenSort.scan, same])
      · refine .inr (.inl ⟨by simpa [TokenSort.scan] using beyond, fun blank => ?_⟩)
        rw [blank.any_eq_false not_continuesName_of_isBlank] at starts
        cases starts
    | literal sort => exact sort.scan_append (List.cons_ne_nil first rest) more
    | semicolon => exact .inl rfl
    | operator =>
      simp only [TokenSort.scan]
      rcases operator?_append (first :: rest) more with same | ⟨operator, found, beyond, apart⟩
      · rw [List.cons_append] at same
        rw [same]
        exact .inl rfl
      · rw [List.cons_append] at found
        rw [found]
        exact .inr (.inl ⟨beyond, apart⟩)
  · refine .inr (.inl ⟨?_, fun blank => ?_⟩)
    · cases more with
      | nil => cases digit
      | cons c tail =>
        have isDigit : c.isDigit = true := by simpa using digit
        have starts : startsNumber '.' ([] ++ c :: tail) = true := by simp [startsNumber, isDigit]
        have notName : isNameStart '.' = false := by decide
        simp only [scanToken, notName, Bool.false_eq_true, ↓reduceIte, starts]
        exact Number.one_lt_scan_length isDigit
    · rw [blank.any_eq_false not_isDigit_of_isBlank] at digit
      cases digit

/-- With a blank behind it, a token stays as it is unless the end of the text cut it off. -/
theorem scanToken_append_of_blank {first : Char} {rest more : List Char} (blank : StartsBlank more) :
    scanToken first (rest ++ more) = scanToken first rest ∨
      ∃ kind cause, (scanToken first rest).shape = .cutOff kind cause ∧
        (∀ found, (scanToken first (rest ++ more)).shape = .whole found → found = .literal kind) ∧
        (∀ found cause, (scanToken first (rest ++ more)).shape = .cutOff found cause → found = kind) := by
  rcases scanToken_append first rest more with same | ⟨_, apart⟩ | ⟨kind, cause, cutOff, wholes, cuts⟩
  · exact .inl same
  · exact absurd blank apart
  · exact .inr ⟨kind, cause, cutOff, fun found whole => (wholes found whole).1, cuts⟩

/-- A whole token of a longer text that lies within the shorter one is there, too. -/
theorem scanToken_of_append {first : Char} {rest more : List Char} {length : Nat} {kind : TokenKind}
    (there : scanToken first (rest ++ more) = ⟨length, .whole kind⟩) (within : length ≤ rest.length + 1) :
    scanToken first rest = ⟨length, .whole kind⟩ := by
  rcases scanToken_append first rest more with same | ⟨beyond, _⟩ | ⟨_, _, _, wholes, _⟩
  · exact same.symm.trans there
  · rw [there] at beyond
    exact absurd beyond (Nat.not_lt.mpr within)
  · have beyond := (wholes kind (by rw [there])).2
    rw [there] at beyond
    exact absurd beyond (Nat.not_lt.mpr within)

theorem Number.scan_length_eq (text : List Char) : (Number.scan text).length = covered Prod.snd (Number.read text) := by
  unfold scan
  cases Number.read text with
  | ok value => rfl
  | error fault =>
    dsimp only
    split <;> rfl

private theorem spelling_length_le_of_found {text : List Char} {operator : Operator}
    (found : operator? text = some operator) :
    operator.spelling.length ≤ text.length := by
  have isThere : operator.spelling.isPrefixOf text = true := by simpa using List.find?_some found
  exact (List.isPrefixOf_iff_prefix.mp isThere).length_le

private theorem LiteralSort.scan_length_le (sort : LiteralSort) {text : List Char} (nonempty : text ≠ []) :
    (sort.scan text).length ≤ text.length := by
  cases sort with
  | number =>
    rw [scan, Number.scan_length_eq]
    exact Number.covered_read_le text
  | interpreted | rune => exact Quoted.interpreted_length_le _ nonempty
  | raw =>
    obtain ⟨first, rest, rfl⟩ := List.exists_cons_of_ne_nil nonempty
    have inside := (List.takeWhile_sublist (l := rest) (· != Quoted.backquote)).length_le
    rw [scan, Quoted.scanRawString_eq]
    simp only [List.drop_one, List.tail_cons, List.length_cons]
    split
    next short => exact Nat.succ_le_of_lt short
    next =>
      simp only
      omega

theorem scanToken_length_le (first : Char) (rest : List Char) : (scanToken first rest).length ≤ rest.length + 1 := by
  rw [scanToken_eq]
  cases tokenSort first (startsNumber first rest) with
  | name => simpa [TokenSort.scan] using (List.takeWhile_sublist continuesName).length_le
  | literal sort => exact sort.scan_length_le (List.cons_ne_nil first rest)
  | semicolon => exact Nat.le_add_left 1 _
  | operator =>
    simp only [TokenSort.scan]
    split
    next operator found => exact spelling_length_le_of_found found
    next => exact Nat.le_add_left 1 _

/-- Whether a literal that is cut off reaches the end of a text with `size` characters. -/
def LiteralScan.Covers (size : Nat) (scan : LiteralScan) : Prop :=
  ∀ kind cause, scan.outcome = .cutOff kind cause → size ≤ scan.length

theorem Number.scan_covers (text : List Char) : (Number.scan text).Covers text.length := by
  intro kind cause cutOff
  unfold scan at cutOff ⊢
  cases read : Number.read text with
  | ok value => simp [read] at cutOff
  | error fault =>
    simp only [read] at cutOff ⊢
    split at cutOff
    next ends =>
      simp only [ends, ↓reduceIte]
      exact List.drop_eq_nil_iff.mp (List.isEmpty_iff.mp (Bool.and_eq_true_iff.mp ends).2)
    next => cases cutOff

theorem Quoted.Reader.scan_covers (reader : Reader) (text : List Char) : (reader.scan text).Covers text.length := by
  intro kind cause cutOff
  have judges := reader.judges (interpreted reader.quote text)
  rw [show reader.outcome _ = _ from cutOff] at judges
  exact le_interpreted_of_cut _ text judges.isCut.1

theorem Quoted.scanRawString_covers (text : List Char) : (Quoted.scanRawString text).Covers text.length := by
  intro kind cause cutOff
  rw [scanRawString_eq] at cutOff ⊢
  dsimp only at cutOff ⊢
  split at cutOff
  next => cases cutOff
  next short =>
    rw [if_neg short]
    exact Nat.le_of_not_lt short

theorem LiteralScan.Covers.toTokenScan {size : Nat} {scan : LiteralScan} (covers : scan.Covers size)
    {kind : LiteralKind} {cause : CutoffCause} (cutOff : scan.toTokenScan.shape = .cutOff kind cause) :
    size ≤ scan.toTokenScan.length := by
  refine covers kind cause ?_
  unfold LiteralScan.toTokenScan at cutOff
  cases outcome : scan.outcome <;> simp_all

theorem LiteralSort.scan_covers (sort : LiteralSort) (text : List Char) : (sort.scan text).Covers text.length := by
  cases sort with
  | number => exact Number.scan_covers text
  | interpreted =>
    rw [scan, Quoted.scanString_eq]
    exact Quoted.Reader.string.scan_covers text
  | raw => exact Quoted.scanRawString_covers text
  | rune => exact Quoted.Reader.rune.scan_covers text

theorem TokenSort.literal_of_cutOff {sort : TokenSort} {first : Char} {rest : List Char} {kind : LiteralKind}
    {cause : CutoffCause} (cutOff : (sort.scan first rest).shape = .cutOff kind cause) :
    ∃ how, sort = .literal how := by
  cases sort with
  | name | semicolon => cases cutOff
  | literal how => exact ⟨how, rfl⟩
  | operator =>
    simp only [scan] at cutOff
    split at cutOff <;> cases cutOff

theorem le_scanToken_length_of_cutOff {first : Char} {rest : List Char} {kind : LiteralKind} {cause : CutoffCause}
    (cutOff : (scanToken first rest).shape = .cutOff kind cause) : rest.length + 1 ≤ (scanToken first rest).length := by
  rw [scanToken_eq] at cutOff ⊢
  obtain ⟨sort, isLiteral⟩ := TokenSort.literal_of_cutOff cutOff
  rw [isLiteral] at cutOff ⊢
  exact (sort.scan_covers (first :: rest)).toTokenScan cutOff

/-- Whether a kind is that of a token with a text of its own. -/
def TokenKind.isWritten : TokenKind → Bool
  | .illegal | .semicolon .newline | .semicolon .endOfInput => false
  | _ => true

private theorem LiteralScan.isWritten_of_whole {scan : LiteralScan} {kind : TokenKind}
    (whole : scan.toTokenScan.shape = .whole kind) :
    kind.isWritten = true := by
  unfold LiteralScan.toTokenScan at whole
  cases outcome : scan.outcome <;> simp only [outcome] at whole <;> cases whole
  rfl

theorem scanToken_isWritten {first : Char} {rest : List Char} {kind : TokenKind}
    (whole : (scanToken first rest).shape = .whole kind) : kind.isWritten = true := by
  rw [scanToken_eq] at whole
  generalize tokenSort first (startsNumber first rest) = sort at whole
  cases sort with
  | name =>
    cases whole
    unfold nameKind
    cases Keyword.ofLexeme? _ <;> rfl
  | literal sort => exact LiteralScan.isWritten_of_whole whole
  | semicolon =>
    cases whole
    rfl
  | operator =>
    simp only [TokenSort.scan] at whole
    split at whole <;> cases whole
    rfl

end GoPrompt
