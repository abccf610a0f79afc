import GoPrompt.Proofs.Lexical.Collected
import GoPrompt.Proofs.Lexical.Order

/-! The places at which the steps of a text start. The lexer comes to a place in the same way when the text goes on
behind it, as long as a character that stands in no operator is ahead: only a text that consists of such characters can
become part of a longer operator. -/

namespace GoPrompt

/-- Whether the text holds a character that stands in no operator. -/
def Anchored (text : List Char) : Prop := ∃ c ∈ text, ∀ operator : Operator, c ∉ operator.spelling

theorem Anchored.mono {first second : List Char} (anchored : Anchored first) (within : first ⊆ second) :
    Anchored second := by
  obtain ⟨c, mem, apart⟩ := anchored
  exact ⟨c, within mem, apart⟩

theorem Anchored.ne_nil {text : List Char} (anchored : Anchored text) : text ≠ [] := by
  rintro rfl
  obtain ⟨c, mem, -⟩ := anchored
  cases mem

private theorem operator?_anchored {text : List Char} (anchored : Anchored text) (more : List Char) :
    operator? (text ++ more) = operator? text := by
  refine (operator?_append text more).resolve_right fun ⟨operator, found, beyond, _⟩ => ?_
  have isThere : operator.spelling.isPrefixOf (text ++ more) = true := by simpa using List.find?_some found
  have begins : text <+: operator.spelling := List.prefix_of_prefix_length_le (List.prefix_append text more)
    (List.isPrefixOf_iff_prefix.mp isThere) (Nat.le_of_lt beyond)
  obtain ⟨c, mem, apart⟩ := anchored
  exact apart operator (begins.subset mem)

theorem operator?_ne_none {operator : Operator} {c : Char} (mem : c ∈ operator.spelling) (rest : List Char) :
    operator? (c :: rest) ≠ none := by
  have single : operator.spelling.all (fun c => Operator.longestFirst.any fun other => other.spelling == [c]) =
      true := by
    cases operator <;> decide
  obtain ⟨other, listed, spells⟩ := List.any_eq_true.mp (List.all_eq_true.mp single c mem)
  intro none
  have absent := List.find?_eq_none.mp none other listed
  rw [eq_of_beq spells] at absent
  exact absent (List.isPrefixOf_iff_prefix.mpr ⟨rest, rfl⟩)

theorem first_mem_spelling {operator : Operator} {first : Char} {rest : List Char}
    (isFound : operator? (first :: rest) = some operator) : first ∈ operator.spelling := by
  have begins : operator.spelling <+: first :: rest :=
    List.isPrefixOf_iff_prefix.mp (by simpa using List.find?_some isFound)
  have nonempty : operator.spelling ≠ [] := by cases operator <;> decide
  obtain ⟨c, spelling, spells⟩ := List.exists_cons_of_ne_nil nonempty
  rw [spells, List.cons_prefix_cons] at begins
  rw [spells, begins.1]
  exact List.mem_cons_self

private theorem not_mem_spelling_of_digit {c : Char} (isDigit : c.isDigit = true) (operator : Operator) :
    c ∉ operator.spelling := by
  have apart : operator.spelling.all (fun c => !c.isDigit) = true := by cases operator <;> decide
  intro mem
  have notDigit := List.all_eq_true.mp apart c mem
  rw [isDigit] at notDigit
  cases notDigit

/-- A token that is cut off or invalid has an anchor, and starts with no slash. -/
theorem anchored_of_scan {first : Char} {rest : List Char} (broken : ∀ kind, (scanToken first rest).shape ≠ .whole kind) :
    Anchored (first :: rest) ∧ first ≠ '/' := by
  have here : (∀ operator : Operator, first ∉ operator.spelling) → Anchored (first :: rest) ∧
      first ≠ '/' := fun apart =>
    ⟨⟨first, List.mem_cons_self, apart⟩, fun same => apart .quo (by rw [same]; decide)⟩
  have starts := tokenSort_starts first (startsNumber first rest)
  rw [scanToken_eq] at broken
  generalize tokenSort first (startsNumber first rest) = sort at broken starts
  cases sort with
  | name | semicolon => exact absurd rfl (broken _)
  | operator =>
    simp only [TokenSort.scan] at broken
    split at broken
    next => exact absurd rfl (broken _)
    next none => exact here fun operator mem => operator?_ne_none mem rest none
  | literal sort =>
    have quotes : ∀ operator : Operator, Quoted.doubleQuote ∉ operator.spelling ∧ Quoted.backquote ∉ operator.spelling ∧
        Quoted.singleQuote ∉ operator.spelling := by
      intro operator
      cases operator <;> decide
    cases sort with
    | number =>
      simp only [TokenSort.Starts, startsNumber, Bool.or_eq_true, Bool.and_eq_true, beq_iff_eq] at starts
      rcases starts with isDigit | ⟨rfl, follows⟩
      · exact here (not_mem_spelling_of_digit isDigit)
      · obtain ⟨c, isHead, isDigit⟩ := (Option.any_eq_true _ _).mp follows
        have mem : c ∈ '.' :: rest := List.mem_cons_of_mem _ (List.mem_of_mem_head? isHead)
        exact ⟨⟨c, mem, not_mem_spelling_of_digit isDigit⟩, by decide⟩
    | interpreted => exact here fun operator => starts ▸ (quotes operator).1
    | raw => exact here fun operator => starts ▸ (quotes operator).2.1
    | rune => exact here fun operator => starts ▸ (quotes operator).2.2

private theorem Number.scan_within {text : List Char} (within : (Number.scan text).length < text.length)
    (more : List Char) :
    Number.scan (text ++ more) = Number.scan text := by
  have nonempty : text ≠ [] := by
    rintro rfl
    cases within
  rw [scan_length_eq] at within
  have same := (read_append nonempty more).resolve_right fun ⟨_, covers, _⟩ => Nat.not_lt.mpr covers within
  cases read : Number.read text with
  | ok value => simp only [scan, same, read]
  | error fault =>
    have short : fault.length < text.length := by rwa [read] at within
    have left : ∀ {text : List Char}, fault.length < text.length → (text.drop fault.length).isEmpty = false := by
      intro text short
      rw [← Bool.not_eq_true, List.isEmpty_iff, List.drop_eq_nil_iff]
      exact Nat.not_le.mpr short
    simp only [scan, same, read, left short,
      left (show fault.length < (text ++ more).length by rw [List.length_append]; omega)]

private theorem Quoted.Continues.eq_of_within {kind : LiteralKind} {size : Nat} {longer shorter : LiteralScan}
    (continues : Continues kind size longer shorter) (covers : shorter.Covers size) (within : shorter.length < size) :
    longer = shorter :=
  continues.resolve_right fun ⟨⟨cause, cutOff⟩, _⟩ => Nat.not_lt.mpr (covers kind cause cutOff) within

private theorem LiteralSort.scan_within (sort : LiteralSort) {text : List Char}
    (within : (sort.scan text).length < text.length) (more : List Char) :
    sort.scan (text ++ more) = sort.scan text := by
  have nonempty : text ≠ [] := by
    rintro rfl
    cases within
  cases sort with
  | number => exact Number.scan_within within more
  | interpreted =>
    rw [scan, Quoted.scanString_eq] at within ⊢
    exact (Quoted.Reader.string.scan_append nonempty more).eq_of_within (Quoted.Reader.string.scan_covers text) within
  | raw => exact (Quoted.scanRawString_append nonempty more).eq_of_within (Quoted.scanRawString_covers text) within
  | rune => exact (Quoted.Reader.rune.scan_append nonempty more).eq_of_within (Quoted.Reader.rune.scan_covers text) within

private theorem scanToken_anchored {first : Char} {rest : List Char} (within : (scanToken first rest).length < rest.length + 1)
    (anchored : Anchored (first :: rest)) (more : List Char) : scanToken first (rest ++ more) = scanToken first rest := by
  have starts : startsNumber first (rest ++ more) = startsNumber first rest := by
    refine (startsNumber_append first rest more).resolve_right fun ⟨_, empty, _⟩ => ?_
    have positive := one_le_scanToken_length first rest
    rw [empty, List.length_nil] at within
    rw [empty] at positive
    omega
  rw [scanToken_eq] at within
  rw [scanToken_eq, scanToken_eq, starts]
  generalize tokenSort first (startsNumber first rest) = sort at within ⊢
  cases sort with
  | name =>
    have same : (rest ++ more).takeWhile continuesName = rest.takeWhile continuesName := by
      rw [List.takeWhile_append, if_neg]
      intro whole
      simp only [TokenSort.scan, List.length_cons, whole] at within
      exact Nat.lt_irrefl _ within
    simp only [TokenSort.scan, same]
  | literal sort => exact congrArg LiteralScan.toTokenScan (sort.scan_within within more)
  | semicolon => rfl
  | operator => simp only [TokenSort.scan, ← List.cons_append, operator?_anchored anchored]

namespace Lexer

section

variable {lexer after : Lexer} {result : Except LexFault LexStep} (more : List Char)

private theorem accept_rest (lexer : Lexer) (scan : TokenScan) :
    (lexer.accept scan).2.rest = lexer.rest.drop scan.length := by
  obtain ⟨armed, accepted⟩ := lexer.accept_skips scan
  rw [accepted]
  rfl

private theorem accept_withMore {scan : TokenScan} (within : scan.length < lexer.rest.length)
    (flawWithin : ∀ flaw, scan.shape = .invalid flaw → flaw.Within scan.length) :
    (lexer.withMore more).accept scan = ((lexer.accept scan).1, (lexer.accept scan).2.withMore more) := by
  have inside := Nat.le_of_lt within
  have left : ∀ {lexer : Lexer}, scan.length < lexer.rest.length → (lexer.skip scan.length).rest.isEmpty = false := by
    intro lexer within
    rw [← Bool.not_eq_true, List.isEmpty_iff]
    exact fun empty => Nat.not_le.mpr within (List.drop_eq_nil_iff.mp empty)
  unfold accept
  dsimp only
  rw [withMore_skip more inside]
  split
  next => rw [withMore_token more _ inside]; rfl
  next =>
    have leftLonger : ((lexer.skip scan.length).withMore more).rest.isEmpty = false := by
      rw [← withMore_skip more inside]
      exact left (by rw [withMore, List.length_append]; omega)
    simp only [left within, leftLonger, Bool.false_eq_true, ↓reduceIte]
    rfl
  next flaw isFlaw =>
    rw [withMore_token more _ inside, withMore_flawDiagnostic more ((flawWithin flaw isFlaw).mono inside)]

private theorem withMore_malformed (nonempty : lexer.rest ≠ []) (cause : LexCause) :
    (lexer.withMore more).malformed cause = lexer.malformed cause := by
  simp only [malformed, span, withMore, List.take_append_of_le_length (List.length_pos_iff.mpr nonempty)]

private theorem withMore_stepAt_token {first : Char} {rest : List Char} (ahead : lexer.rest = first :: rest)
    (anchored : Anchored (lexer.stepAt (.token first)).2.rest) : (rest = [] → first ≠ '/') ∧
      (lexer.withMore more).stepAt (.token first) =
        ((lexer.stepAt (.token first)).1, (lexer.stepAt (.token first)).2.withMore more) := by
  have nonempty : lexer.rest ≠ [] := ahead ▸ List.cons_ne_nil _ _
  by_cases isNul : first = '\x00'
  · refine ⟨fun _ => by rw [isNul]; decide, ?_⟩
    simp only [isNul, stepAt, ↓reduceIte, withMore_malformed more nonempty]
  by_cases isMark : first = byteOrderMark
  · refine ⟨fun _ => by rw [isMark]; decide, ?_⟩
    simp only [isMark, stepAt, ↓reduceIte, withMore_malformed more nonempty, show byteOrderMark ≠ '\x00' by decide]
  have ahead' : (lexer.withMore more).rest = first :: (rest ++ more) := by rw [withMore, ahead]; rfl
  simp only [stepAt, isNul, isMark, ↓reduceIte, ahead, ahead', List.drop_one, List.tail_cons] at anchored ⊢
  rw [accept_rest, ahead] at anchored
  have within : (scanToken first rest).length < rest.length + 1 := by
    simpa [List.drop_eq_nil_iff] using anchored.ne_nil
  refine ⟨fun empty => ?_, ?_⟩
  · have positive := one_le_scanToken_length first rest
    rw [empty] at within positive
    exact absurd within (Nat.not_lt.mpr positive)
  · rw [scanToken_anchored within (anchored.mono (List.drop_subset _ _)) more]
    exact accept_withMore more (by rwa [ahead]) fun flaw => scanToken_flaw_within

/-- A step in front of an anchor does not depend on what follows. -/
private theorem withMore_advance (anchored : Anchored lexer.advance.2.rest) :
    (lexer.withMore more).advance = (lexer.advance.1, lexer.advance.2.withMore more) := by
  rcases skipped : gap lexer.armed 0 0 lexer.rest with ⟨stop, landmark⟩
  have moved : landmark.Stays (stop + 1 = 0 + lexer.rest.length) more →
      (lexer.withMore more).advance = ((lexer.withMore more).skip stop).stepAt landmark := by
    intro stays
    have skipped' : gap (lexer.withMore more).armed 0 0 (lexer.withMore more).rest = (stop, landmark) :=
      gap_append skipped stays
    simp only [advance, skipped']
  rw [show lexer.advance = (lexer.skip stop).stepAt landmark by simp only [advance, skipped]] at anchored ⊢
  have left := List.length_pos_iff.mpr anchored.ne_nil
  cases landmark with
  | token first =>
    obtain ⟨rest, here⟩ := gap_begins skipped
    obtain ⟨stopWithin, size⟩ := token_within here
    obtain ⟨notSlash, same⟩ :=
      withMore_stepAt_token more (show (lexer.skip stop).rest = first :: rest from here) anchored
    rw [moved ?_, withMore_skip more stopWithin, same]
    intro atEnd isSlash
    refine absurd isSlash (notSlash (List.length_eq_zero_iff.mp ?_))
    rw [skip, List.length_drop] at size
    omega
  | lineEnd length =>
    have within : stop + length < lexer.rest.length := by
      simp only [stepAt, arm, skip, List.length_drop] at left
      omega
    have inside : length ≤ (lexer.skip stop).rest.length := by
      rw [skip, List.length_drop]
      omega
    rw [moved trivial, withMore_skip more (by omega)]
    simp only [stepAt, withMore_token more _ inside, withMore_skip more inside]
    rfl
  | nulInComment length =>
    have within : stop + (length + 1) < lexer.rest.length := by
      simp only [stepAt, skip, List.length_drop] at left
      omega
    have inside : length + 1 ≤ (lexer.skip stop).rest.length := by
      rw [skip, List.length_drop]
      omega
    have nonempty : ((lexer.skip stop).skip length).rest ≠ [] := by
      refine List.length_pos_iff.mp ?_
      rw [skip, List.length_drop]
      omega
    rw [moved trivial, withMore_skip more (by omega)]
    simp only [stepAt, withMore_skip more inside, withMore_skip more (Nat.le_of_succ_le inside),
      withMore_malformed more nonempty]
  | openComment length => exact absurd ((Reads.openComment skipped).ends rfl).1 anchored.ne_nil
  | endOfInput =>
    have ended := (gap_holds _ _ _ _ skipped).2
    simp only [Landmark.Holds, Nat.zero_add, Nat.sub_zero] at ended
    refine absurd ?_ anchored.ne_nil
    simp only [stepAt]
    split <;> exact ended

end

theorem next_of_fits {lexer : Lexer} (fits : lexer.advance.2.offset ≤ maxOffset) : lexer.next = lexer.advance := by
  simp only [next, if_pos fits]

theorem next_of_stalled {lexer : Lexer} (stalled : ¬ lexer.advance.2.offset ≤ maxOffset) :
    lexer.next = (.error (.stalled (LexCause.offsetRange.diagnostic [] (lexer.span 0))), lexer) := by
  simp only [next, if_neg stalled]

private theorem next_takes (lexer : Lexer) :
    ∃ taken, lexer.rest = taken ++ lexer.next.2.rest ∧ lexer.next.2.offset = lexer.offset + byteSize taken := by
  obtain ⟨length, armed, answered⟩ := lexer.next_skips
  rw [answered]
  exact ⟨lexer.rest.take length, (List.take_append_drop _ _).symm, rfl⟩

/-- The lexer comes from one state to the other, perhaps past errors. -/
inductive Passes : Lexer → Lexer → Prop
  | here (lexer : Lexer) : Passes lexer lexer
  | next {lexer last : Lexer} (later : Passes lexer.next.2 last) : Passes lexer last

/-- The lexer answers with the step, at once or later on. -/
inductive Produces : Lexer → LexStep → Prop
  | here {lexer : Lexer} {step : LexStep} (answered : lexer.next.1 = .ok step) : Produces lexer step
  | later {lexer : Lexer} {step : LexStep} (produces : lexer.next.2.Produces step) : Produces lexer step

section

variable {lexer last : Lexer} {step : LexStep} {token : Token} {more : List Char}

theorem Passes.takes (passes : lexer.Passes last) :
    ∃ taken, lexer.rest = taken ++ last.rest ∧ last.offset = lexer.offset + byteSize taken := by
  induction passes with
  | here => exact ⟨[], rfl, rfl⟩
  | @next lexer last _ ih =>
    obtain ⟨first, splits, moved⟩ := lexer.next_takes
    obtain ⟨later, splits', moved'⟩ := ih
    exact ⟨first ++
      later, by rw [splits, splits', List.append_assoc], by rw [moved', moved, byteSize_append, Nat.add_assoc]⟩

theorem Passes.withMore (passes : lexer.Passes last) (anchored : Anchored last.rest) (more : List Char) :
    (lexer.withMore more).Passes (last.withMore more) := by
  induction passes with
  | here => exact .here _
  | @next lexer last later ih =>
    by_cases fits : lexer.advance.2.offset ≤ maxOffset
    · obtain ⟨taken, splits, -⟩ := later.takes
      have ahead : Anchored lexer.advance.2.rest := by
        rw [next_of_fits fits] at splits
        exact anchored.mono (splits ▸ List.subset_append_right _ _)
      have advanced := withMore_advance more ahead
      have fits' : (lexer.withMore more).advance.2.offset ≤ maxOffset := by rwa [advanced]
      have ih := ih anchored
      rw [next_of_fits fits] at ih
      refine .next ?_
      rwa [next_of_fits fits', advanced]
    · -- The lexer stays where it is, so there is nothing to follow.
      have ih := ih anchored
      rwa [next_of_stalled fits] at ih

private theorem produces_iff : lexer.Produces step ↔ ∃ last, lexer.Passes last ∧ last.next.1 = .ok step := by
  constructor
  · intro produces
    induction produces with
    | here answered => exact ⟨_, .here _, answered⟩
    | later _ ih =>
      obtain ⟨last, passes, answered⟩ := ih
      exact ⟨last, .next passes, answered⟩
  · rintro ⟨last, passes, answered⟩
    induction passes with
    | here => exact .here answered
    | next _ ih => exact .later (ih answered)

private theorem reads_of_answer (answered : lexer.next.1 = .ok step) : lexer.Reads step lexer.next.2 :=
  .of_next (Prod.ext answered rfl)

private theorem Produces.offset_le (produces : lexer.Produces step) (isToken : step.token? = some token) :
    lexer.offset ≤ token.span.start := by
  obtain ⟨last, passes, answered⟩ := produces_iff.mp produces
  obtain ⟨taken, -, moved⟩ := passes.takes
  have begins := ((reads_of_answer answered).span isToken).1
  omega

private theorem Passes.produces_of_le (passes : lexer.Passes last) (produces : lexer.Produces (.token token))
    (nonempty : last.rest ≠ []) (behind : last.offset ≤ token.span.start) : last.Produces (.token token) := by
  induction passes with
  | here => exact produces
  | @next lexer last later ih =>
    cases produces with
    | later produces => exact ih produces nonempty behind
    | here answered =>
      have reads := reads_of_answer answered
      obtain ⟨taken, splits, moved⟩ := later.takes
      have stops := (reads.span rfl).2
      by_cases inserted : token.IsInserted
      · have ended := (reads.inserted_ends inserted).1
        exact absurd (List.append_eq_nil_iff.mp (splits.symm.trans ended)).2 nonempty
      · have positive := reads.nonempty rfl inserted
        omega

end

/-- The lexer has this text ahead, which starts with a token at this offset. -/
structure StandsAt (lexer : Lexer) (offset : Nat) (first : Char) (rest : List Char) : Prop where
  ahead : ∃ stop, gap lexer.armed 0 0 lexer.rest = (stop, .token first) ∧ lexer.rest.drop stop = first :: rest ∧
    offset = (lexer.skip stop).offset
  notNul : first ≠ '\x00'
  notMark : first ≠ byteOrderMark

/-- The lexer comes to a token at this offset, with this text ahead. -/
def ComesTo (lexer : Lexer) (offset : Nat) (first : Char) (rest : List Char) : Prop :=
  ∃ last, lexer.Passes last ∧ last.StandsAt offset first rest

section

variable {lexer after : Lexer} {step : LexStep} {token : Token} {offset length : Nat} {first : Char} {rest : List Char}
  {kind : TokenKind}

theorem StandsAt.begins (stands : lexer.StandsAt offset first rest) : lexer.BeginsAllowed := by
  intro stop found skipped
  obtain ⟨stop', skipped', -⟩ := stands.ahead
  cases skipped.symm.trans skipped'
  exact ⟨stands.notNul, stands.notMark⟩

theorem StandsAt.next (stands : lexer.StandsAt offset first rest) :
    lexer.next.2 = lexer ∨ offset < lexer.next.2.offset := by
  by_cases fits : lexer.advance.2.offset ≤ maxOffset
  · right
    obtain ⟨stop, skipped, here, rfl⟩ := stands.ahead
    have ahead : (lexer.skip stop).rest = first :: rest := here
    have advanced : lexer.advance = (lexer.skip stop).accept (scanToken first rest) := by
      simp only [advance, skipped, stepAt, stands.notNul, stands.notMark, ↓reduceIte, ahead,
        List.drop_one, List.tail_cons]
    have place := (lexer.skip stop).accept_place (scanToken first rest)
    have parts := byteSize_append ((lexer.skip stop).rest.take (scanToken first rest).length)
      ((lexer.skip stop).rest.drop (scanToken first rest).length)
    rw [List.take_append_drop] at parts
    rw [accept_rest] at place
    have positive : 0 < byteSize ((lexer.skip stop).rest.take (scanToken first rest).length) := by
      refine byteSize_pos ?_
      rw [ahead, ne_eq, List.take_eq_nil_iff]
      have := one_le_scanToken_length first rest
      simp only [reduceCtorEq, or_false]
      omega
    rw [next_of_fits fits, advanced]
    omega
  · left
    rw [next_of_stalled fits]

theorem StandsAt.answers (stands : lexer.StandsAt offset first rest) (produces : lexer.Produces (.token token))
    (starts : token.span.start = offset) : lexer.next.1 = .ok (.token token) := by
  generalize isStep : LexStep.token token = step at produces
  induction produces with
  | here answered => exact isStep ▸ answered
  | @later lexer step produces ih =>
    rcases stands.next with same | beyond
    · rw [same] at ih
      exact ih stands isStep
    · have begins : lexer.next.2.offset ≤ token.span.start := produces.offset_le (by rw [← isStep]; rfl)
      omega

theorem StandsAt.whole (stands : lexer.StandsAt offset first rest) (answered : lexer.next.1 = .ok (.token token)) :
    ∃ length kind, scanToken first rest = ⟨length, .whole kind⟩ ∧ token.kind = kind := by
  obtain ⟨stop, skipped, here, -⟩ := stands.ahead
  have reads := reads_of_answer answered
  generalize isStep : LexStep.token token = step at reads
  generalize lexer.next.2 = after at reads
  cases reads with
  | @whole stop' first' rest' length kind skipped' here' scanned =>
    cases skipped.symm.trans skipped'
    cases here.symm.trans here'
    cases isStep
    exact ⟨length, kind, scanned, rfl⟩
  | lineEnd skipped' | inserted skipped' => cases skipped.symm.trans skipped'
  | cutOff | invalid | openComment | ended => cases isStep

theorem StandsAt.withMore (stands : lexer.StandsAt offset first rest) (notSlash : rest = [] → first ≠ '/')
    (more : List Char) :
    (lexer.withMore more).StandsAt offset first (rest ++ more) := by
  obtain ⟨stop, skipped, here, rfl⟩ := stands.ahead
  obtain ⟨within, size⟩ := token_within here
  refine ⟨⟨stop, gap_append skipped ?_, withMore_here more here, by rw [withMore_skip more within]; rfl⟩,
    stands.notNul, stands.notMark⟩
  intro atEnd isSlash
  refine absurd isSlash (notSlash (List.length_eq_zero_iff.mp ?_))
  rw [skip, List.length_drop] at size
  omega

theorem ComesTo.withMore (comes : lexer.ComesTo offset first rest) (anchored : Anchored (first :: rest))
    (notSlash : rest = [] → first ≠ '/') (more : List Char) :
    (lexer.withMore more).ComesTo offset first (rest ++ more) := by
  obtain ⟨last, passes, stands⟩ := comes
  obtain ⟨stop, -, here, -⟩ := stands.ahead
  exact ⟨_, passes.withMore (anchored.mono (here ▸ List.drop_subset _ _)) more, stands.withMore notSlash more⟩

theorem ComesTo.whole (comes : lexer.ComesTo offset first rest) (produces : lexer.Produces (.token token))
    (starts : token.span.start = offset) :
    ∃ length kind, scanToken first rest = ⟨length, .whole kind⟩ ∧ token.kind = kind := by
  obtain ⟨last, passes, stands⟩ := comes
  obtain ⟨stop, -, here, isOffset⟩ := stands.ahead
  have nonempty : last.rest ≠ [] := by
    intro empty
    rw [empty, List.drop_nil] at here
    cases here
  have behind : last.offset ≤ token.span.start := by
    rw [starts, isOffset]
    exact Nat.le_add_right _ _
  exact stands.whole (stands.answers (passes.produces_of_le produces nonempty behind) starts)

theorem ComesTo.produces (comes : lexer.ComesTo offset first rest)
    (scanned : scanToken first rest = ⟨length, .whole kind⟩) (fits : lexer.offset + byteSize lexer.rest ≤ maxOffset) :
    ∃ token, lexer.Produces (.token token) ∧ token.span.start = offset := by
  obtain ⟨last, passes, stands⟩ := comes
  obtain ⟨stop, skipped, here, rfl⟩ := stands.ahead
  have reads := Reads.whole skipped here scanned
  have within : (((last.skip stop).skip length).arm kind.terminatesLine).offset ≤ maxOffset := by
    obtain ⟨taken, splits, moved⟩ := passes.takes
    have place := (last.skip stop).skip_place length
    have place' := last.skip_place stop
    rw [splits, byteSize_append] at fits
    simp only [arm]
    omega
  have answered := reads.next_of_allowed stands.begins within
  exact ⟨_, produces_iff.mpr ⟨last, passes, by rw [answered]⟩, rfl⟩

/-- A step that reads a token that is cut off or invalid comes to the place of the token. -/
theorem Produces.comesTo (produces : lexer.Produces step) (isToken : step.token? = some token)
    (broken : ∀ token, step ≠ .token token) : ∃ first rest length, lexer.ComesTo token.span.start first rest ∧
      ((∃ flaw diagnostic, step = .invalid token diagnostic ∧ scanToken first rest = ⟨length, .invalid flaw⟩) ∨
        ∃ kind cause cutoff, step = .truncated token cutoff ∧ scanToken first rest = ⟨length, .cutOff kind cause⟩ ∧
          token.kind = .literal kind ∧ token.lexeme = String.ofList (first :: rest)) := by
  obtain ⟨last, passes, answered⟩ := produces_iff.mp produces
  have allowed : last.BeginsAllowed := beginsAllowed_of_next (Prod.ext answered rfl)
  have reads := reads_of_answer answered
  generalize last.next.2 = after at reads
  cases reads with
  | @invalid stop first rest length flaw skipped here scanned =>
    cases isToken
    exact ⟨first, rest, length, ⟨last, passes, ⟨⟨stop, skipped, here, rfl⟩, (allowed skipped).1, (allowed skipped).2⟩⟩,
      .inl ⟨flaw, _, rfl, scanned⟩⟩
  | @cutOff stop first rest length kind cause skipped here scanned =>
    cases isToken
    refine ⟨first, rest, length, ⟨last, passes, ⟨⟨stop, skipped, here, rfl⟩, (allowed skipped).1, (allowed skipped).2⟩⟩,
      .inr ⟨kind, cause, _, rfl, scanned, rfl, ?_⟩⟩
    have covers := le_scanToken_length_of_cutOff (show (scanToken first rest).shape =
      .cutOff kind cause by rw [scanned])
    rw [scanned] at covers
    show String.ofList ((last.rest.drop stop).take length) = _
    rw [here, List.take_of_length_le covers]
  | whole | lineEnd | inserted => exact absurd rfl (broken _)
  | openComment | ended => cases isToken

end

end Lexer

end GoPrompt
