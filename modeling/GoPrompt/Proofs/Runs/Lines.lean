import GoPrompt.Proofs.Lexical.Lines
import GoPrompt.Proofs.Runs.Boundary
import GoPrompt.Proofs.Runs.Common
import GoPrompt.Proofs.Runs.Covered
import GoPrompt.Proofs.Runs.Nesting

/-! Statements on several lines. A text that is joined to others by newlines keeps its tokens, so a statement of it is
read or rejected there as it is in the text alone, and skipping stops where it stops there, or behind the text. -/

namespace GoPrompt

open Parse

/-- The kinds of the tokens of texts that are joined by newlines, from those of each of them. -/
def lineKinds : List (List TokenKind) → List TokenKind
  | [] => []
  | [kinds] => kinds
  | kinds :: later => kinds.map TokenKind.onLine ++ lineKinds later

theorem TokenKind.recurs_onLine (kind : TokenKind) : kind.Recurs kind.onLine := by
  by_cases inserted : kind = .semicolon .endOfInput
  · rw [inserted]
    exact .inr ⟨rfl, rfl⟩
  · exact .inl (onLine_eq inserted).symm

theorem TokenKind.isPlain_onLine {kind : TokenKind} (plain : kind.isPlain = true) : kind.onLine.isPlain = true := by
  unfold onLine
  split
  next => rfl
  next => exact plain

theorem Nested.onLine {kinds : List TokenKind} (nested : Nested kinds) : Nested (kinds.map TokenKind.onLine) := by
  induction nested with
  | nil => exact .nil
  | plain isPlain _ ih => exact .plain (TokenKind.isPlain_onLine isPlain) ih
  | pair closes _ _ ih ih' =>
    rw [List.cons_append, List.map_cons, List.map_append, List.map_cons, ← List.cons_append]
    exact .pair closes ih ih'

section skipping

open Grammar

variable {kinds inner behind : List TokenKind} {kind last : TokenKind} {depth count : Nat}

theorem skipped_pos (lands : skipped depth kinds = some count) : 0 < count ∧ count ≤ kinds.length := by
  induction kinds generalizing depth count with
  | nil => cases lands
  | cons kind later ih =>
    unfold skipped at lands
    split at lands
    next => cases lands
    next =>
      cases lands
      exact ⟨Nat.one_pos, Nat.succ_le_succ (Nat.zero_le _)⟩
    next =>
      obtain ⟨fewer, less, rfl⟩ := Option.map_eq_some_iff.mp lands
      exact ⟨Nat.succ_pos _, Nat.succ_le_succ (ih less).2⟩

private theorem skip_ended (ended : skip depth kind = .done .endOfInput) : kind = .semicolon .endOfInput := by
  unfold skip at ended
  split at ended
  next => rfl
  next => split at ended <;> cases ended
  next => cases ended

private theorem skip_plain (plain : kind.isPlain = true) (depth : Nat) :
    skip (depth + 1) kind = .done .endOfInput ∨ skip (depth + 1) kind = .again (depth + 1) := by
  cases kind with
  | semicolon origin => cases origin <;> simp [skip]
  | operator operator =>
    simp only [TokenKind.isPlain, Bool.and_eq_true, Bool.not_eq_true'] at plain
    simp [skip, depthAfter, plain]
  | identifier | keyword | literal | illegal => exact .inr rfl

private theorem Nested.skipped_none (nested : Nested kinds) (deep : skipped (depth + 1) behind = none) :
    skipped (depth + 1) (kinds ++ behind) = none := by
  induction nested generalizing depth behind with
  | nil => exact deep
  | plain isPlain _ ih =>
    rw [List.cons_append, skipped]
    rcases skip_plain isPlain depth with stops | goesOn
    · rw [stops]
    · rw [goesOn]
      exact Option.map_eq_none_iff.mpr (ih deep)
  | @pair opener closer inner later closes _ _ ih ih' =>
    obtain ⟨opens, notOpens, closing⟩ := Operator.isOpener_of_closer? closes
    have into : skip (depth + 1) (.operator opener) = .again (depth + 1 + 1) := by simp [skip, depthAfter, opens]
    have outOf : skip (depth + 1 + 1) (.operator closer) = .again (depth + 1) := by
      simp [skip, depthAfter, notOpens, closing]
    have closed : skipped (depth + 1 + 1) (.operator closer :: (later ++ behind)) = none := by
      rw [skipped, outOf]
      exact Option.map_eq_none_iff.mpr (ih' deep)
    rw [List.append_assoc, List.cons_append, List.cons_append, skipped, into]
    exact Option.map_eq_none_iff.mpr (ih closed)

theorem skipped_lines {texts : List (List TokenKind)} (nested : ∀ kinds ∈ texts, Nested kinds) (depth : Nat) :
    skipped (depth + 1) (lineKinds texts) = none := by
  match texts with
  | [] => rfl
  | [kinds] =>
    have alone := Nested.skipped_none (nested kinds List.mem_cons_self) (show skipped (depth + 1) [] = none from rfl)
    rwa [List.append_nil] at alone
  | kinds :: next :: later =>
    exact (nested kinds List.mem_cons_self).onLine.skipped_none
      (skipped_lines (fun others mem => nested others (List.mem_cons_of_mem _ mem)) depth)

/-- Where the skipping stops in a text that goes on behind its line: where it stops in the text alone, or behind the
semicolon at its end, or within brackets that are open there. -/
theorem skipped_onLine (ends : isSemicolon last = true) (inside : ∀ kind ∈ inner, kind ≠ .semicolon .endOfInput)
    (depth : Nat) (behind : List TokenKind) :
    (∃ count, skipped depth (inner ++ [last]) = some count ∧
      skipped depth ((inner ++ [last]).map TokenKind.onLine ++ behind) = some count) ∨
      skipped depth (inner ++ [last]) = none ∧
        (skipped depth ((inner ++ [last]).map TokenKind.onLine ++ behind) = some (inner.length + 1) ∨
          ∃ deeper, skipped depth ((inner ++ [last]).map TokenKind.onLine ++ behind) =
            (skipped (deeper + 1) behind).map (· + (inner.length + 1))) := by
  induction inner generalizing depth with
  | nil =>
    cases last with
    | semicolon origin =>
      cases depth with
      | zero =>
        cases origin with
        | endOfInput => exact .inr ⟨rfl, .inl rfl⟩
        | newline | explicit => exact .inl ⟨1, rfl, rfl⟩
      | succ deeper => cases origin <;> exact .inr ⟨rfl, .inr ⟨deeper, rfl⟩⟩
    | identifier | keyword | literal | operator | illegal => cases ends
  | cons kind later ih =>
    have written := inside kind List.mem_cons_self
    simp only [List.cons_append, List.map_cons, TokenKind.onLine_eq written, skipped]
    cases turn : skip depth kind with
    | done stop =>
      cases stop with
      | separator => exact .inl ⟨1, rfl, rfl⟩
      | endOfInput => exact absurd (skip_ended turn) written
    | again deeper =>
      dsimp only
      rcases ih (fun other mem => inside other (List.mem_cons_of_mem _ mem)) deeper with
        ⟨count, alone, joined⟩ | ⟨alone, joined | ⟨further, joined⟩⟩
      · exact .inl ⟨count + 1, by rw [alone]; rfl, by rw [joined]; rfl⟩
      · exact .inr ⟨by rw [alone]; rfl, .inl (by rw [joined]; rfl)⟩
      · refine .inr ⟨by rw [alone]; rfl, .inr ⟨further, ?_⟩⟩
        rw [joined, Option.map_map]
        rfl

/-- Outside brackets the skipping stops behind the next separator. -/
theorem skipped_plain {kinds : List TokenKind} {place : Nat} {origin : SemicolonKind}
    (plain : ∀ kind ∈ kinds, kind.isPlain = true) (separates : kinds[place]? = some (.semicolon origin))
    (apart : ∀ earlier, earlier ≤ place → kinds[earlier]? ≠ some (.semicolon .endOfInput)) :
    ∃ count, skipped 0 kinds = some count ∧ count ≤ place + 1 := by
  induction kinds generalizing place with
  | nil => cases separates
  | cons kind later ih =>
    have written := apart 0 (Nat.zero_le place)
    have goesOn : skip 0 kind = .again 0 → ∃ count, skipped 0 (kind :: later) = some count ∧ count ≤ place + 1 := by
      intro again
      cases place with
      | zero =>
        cases separates
        cases origin with
        | endOfInput => exact absurd rfl written
        | newline | explicit => cases again
      | succ place =>
        obtain ⟨count, lands, within⟩ := @ih place (fun other mem => plain other (List.mem_cons_of_mem _ mem)) separates
          fun earlier before => apart (earlier + 1) (Nat.succ_le_succ before)
        refine ⟨count + 1, ?_, Nat.succ_le_succ within⟩
        rw [skipped, again]
        dsimp only
        rw [lands]
        rfl
    have isPlain := plain kind List.mem_cons_self
    cases kind with
    | semicolon origin =>
      cases origin with
      | endOfInput => exact absurd rfl written
      | newline | explicit => exact ⟨1, rfl, Nat.succ_le_succ (Nat.zero_le place)⟩
    | operator operator =>
      simp only [TokenKind.isPlain, Bool.and_eq_true, Bool.not_eq_true'] at isPlain
      exact goesOn (by simp [skip, depthAfter, isPlain])
    | identifier | keyword | literal | illegal => exact goesOn rfl

end skipping

private theorem Lexer.ofText_unmarked {text : List Char} (unmarked : text.head? ≠ some byteOrderMark) :
    Lexer.ofText 0 text = ⟨0, text, 0, false⟩ := by
  cases text with
  | nil => rfl
  | cons c rest => exact if_neg fun mark => unmarked (congrArg some mark)

theorem Encoded.line {text next : List Char} (encoded : Encoded text) (encoded' : Encoded next)
    (unmarked : next.head? ≠ some byteOrderMark) : Encoded (text ++ '\n' :: next) := by
  obtain ⟨noNul, noMark⟩ := encoded_iff.mp encoded
  obtain ⟨noNul', noMark'⟩ := encoded_iff.mp encoded'
  have apart : byteOrderMark ∉ next := by
    cases next with
    | nil => exact List.not_mem_nil
    | cons c rest =>
      rintro (_ | _)
      · exact unmarked rfl
      · exact noMark' ‹_›
  refine encoded_iff.mpr ⟨by simp [noNul, noNul'], ?_⟩
  cases text with
  | nil => exact apart
  | cons c rest =>
    intro mem
    rcases List.mem_append.mp mem with before | _ | behind
    · exact noMark before
    · exact apart ‹_›

section

variable {text next : List Char} {steps later : List LexStep} (scans : Scans text steps) (scans' : Scans next later)
  (unmarked : next.head? ≠ some byteOrderMark) (fits : byteSize (text ++ '\n' :: next) ≤ maxOffset)
include scans scans' unmarked fits

/-- The steps over a text in front of a line from those of the lexer that has the line ahead of it. -/
theorem Scans.line {steps' : List LexStep}
    (lexes : ((Lexer.ofText 0 text).withMore ('\n' :: (Lexer.ofText 0 next).rest)).Lexes steps') :
    Scans (text ++ '\n' :: next) steps' := by
  rw [Lexer.ofText_unmarked unmarked, ← Lexer.ofText_behind (by decide) 0 text next] at lexes
  exact ⟨scans.encoded.line scans'.encoded unmarked, fits, lexes⟩

theorem Scans.nextLine (whole : ∀ step ∈ steps, step.cutoff? = none) : ∃ steps', Scans (text ++ '\n' :: next) steps' ∧
    LexStep.kinds steps' = (LexStep.kinds steps).map TokenKind.onLine ++ LexStep.kinds later := by
  have fresh := congrArg Lexer.armed (Lexer.ofText_unmarked unmarked)
  obtain ⟨steps', lexes, kinds⟩ := scans.lexes.nextLine whole fresh scans'.lexes
  exact ⟨steps', scans.line scans' unmarked fits lexes, kinds⟩

theorem Scans.spoiltLine {front : List LexStep} {before token : Token} {cutoff : Cutoff}
    (isSteps : steps = front ++ [.token before, .truncated token cutoff]) (arms : before.kind.terminatesLine = true)
    (single : cutoff.construct ≠ .rawString) : ∃ steps', Scans (text ++ '\n' :: next) steps' ∧ BehindLine steps steps' ∧
      LexStep.kinds steps' =
        LexStep.kinds front ++ before.kind :: .illegal :: .semicolon .newline :: LexStep.kinds later := by
  have fresh := congrArg Lexer.armed (Lexer.ofText_unmarked unmarked)
  subst isSteps
  obtain ⟨steps', lexes, behind, kinds⟩ := scans.lexes.spoiltLine arms single fresh scans'.lexes
  exact ⟨steps', scans.line scans' unmarked fits lexes, behind, kinds⟩

end

/-- A text that ends with a semicolon, whether or not it is written, and with nothing cut off. -/
structure EndsLine (steps : List LexStep) (inner : List TokenKind) (last : TokenKind) : Prop where
  kinds : LexStep.kinds steps = inner ++ [last]
  ends : isSemicolon last = true
  written : ∀ kind ∈ inner, kind ≠ .semicolon .endOfInput
  uncut : ∀ step ∈ steps, step.cutoff? = none

theorem EndsLine.length {steps : List LexStep} {inner : List TokenKind} {last : TokenKind}
    (ends : EndsLine steps inner last) :
    (LexStep.kinds steps).length = inner.length + 1 := by rw [ends.kinds, List.length_append, List.length_singleton]

private theorem EndsLine.not_cutsOff {steps : List LexStep} {inner : List TokenKind} {last : TokenKind}
    (ends : EndsLine steps inner last) (number : Nat) : ¬ CutsOff steps number := by
  rintro ⟨token, cutoff, isCut⟩
  cases ends.uncut _ (List.mem_of_getElem? isCut)

theorem Lexer.Lexes.endsLine {lexer : Lexer} {steps : List LexStep} {token : Token} (lexes : lexer.Lexes steps)
    (isLast : steps.getLast? = some (.token token)) (ends : isSemicolon token.kind = true) :
    ∃ inner, EndsLine steps inner token.kind := by
  obtain ⟨front, rfl⟩ := List.getLast?_eq_some_iff.mp isLast
  have inside := lexes.inside (List.cons_ne_nil _ _)
  refine ⟨LexStep.kinds front, ?_, ends, fun kind mem => ?_, fun step mem => ?_⟩
  · rw [LexStep.kinds, LexStep.tokens, List.filterMap_append, List.map_append]
    rfl
  · obtain ⟨found, isFound, rfl⟩ := List.mem_map.mp mem
    obtain ⟨step, isStep, isToken⟩ := List.mem_filterMap.mp isFound
    obtain ⟨other, isToken', written, -⟩ := inside step isStep
    cases isToken.symm.trans isToken'
    exact written
  · rcases List.mem_append.mp mem with before | here
    · obtain ⟨_, -, -, whole⟩ := inside step before
      exact whole
    · rw [List.mem_singleton.mp here]
      rfl

theorem topLevelStatement_short {text : List Char} {steps : List LexStep} {limit number levels : Nat}
    {state after : ParseState} {statement : Statement} {inner : List TokenKind} {last : TokenKind}
    (scans : Scans text steps) (ends : EndsLine steps inner last) (room : (LexStep.tokens steps).length ≤ limit)
    (isText : state.stream.text = text) (atDepth : AtDepth 0 state) (stands : state.stream.Stands steps limit number)
    (ran : Grammar.topLevelStatement levels state = .ok statement after) :
    ∃ place, number ≤ place ∧ place ≤ inner.length ∧
    after.stream.Settled (LexStep.clearedTo number steps) limit place := by
  have reads := topLevelStatement_ends levels stands
  have atDepth' := (kept_atDepth 0).topLevelStatement levels atDepth
  rw [ran] at reads atDepth'
  obtain ⟨onward, place, further, settled⟩ := reads
  refine ⟨place, further, Nat.le_of_not_lt fun behind => ?_, settled⟩
  -- Otherwise the last token that the statement has consumed would be that semicolon.
  obtain ⟨_, collected⟩ := scans.collected
  obtain ⟨number', recalls⟩ := atDepth'.reached.recalls (onward.text.trans isText ▸ Lexer.Collects.of_steps collected)
    (settled.budget.symm ▸ room)
  obtain rfl : number' = place := recalls.consumed.symm.trans settled.consumed
  have isConsumed := recalls.recalls
  have all : (LexStep.kinds steps).length ≤ number' := ends.length ▸ behind
  rw [List.take_of_length_le all, ends.kinds, List.getLast?_concat] at isConsumed
  have written := (Grammar.topLevelStatement_finishes levels state statement after ⟨nofun,
    nofun⟩ ran).not_semicolon isConsumed
  exact Bool.noConfusion (written.symm.trans ends.ends)

section

variable {first second : List LexStep} {limit limit' offset shared begun place levels : Nat}
  {before after reached : ParseState}

private theorem tokenAt_clearedTo_lt {steps : List LexStep} {start number : Nat} (less : number < start) :
    tokenAt (LexStep.clearedTo start steps) number = (tokenAt steps number).map fun token =>
    { token with kind := .identifier } := by
  rw [tokenAt, tokenAt, LexStep.clearedTo, List.getElem?_mapIdx]
  cases steps[number]? with
  | none => rfl
  | some step =>
    simp only [Option.map_some, if_pos less, Option.bind_some]
    cases step <;> rfl

theorem Recur.cleared (recur : Recur first second offset shared) (start : Nat) :
    Recur (LexStep.clearedTo start first) (LexStep.clearedTo (start + offset) second) offset shared := by
  intro number less
  obtain ⟨one, other, there, there', same⟩ := recur number less
  by_cases before : number < start
  · refine ⟨{ one with kind := .identifier }, { other with kind := .identifier }, ?_, ?_, .inl rfl⟩
    · rw [tokenAt_clearedTo_lt before, there]
      rfl
    · rw [tokenAt_clearedTo_lt (Nat.add_lt_add_right before offset), there']
      rfl
  · have within : start ≤ number := Nat.le_of_not_lt before
    exact ⟨one, other, (tokenAt_clearedTo within).trans there,
      (tokenAt_clearedTo (Nat.add_le_add_right within offset)).trans there', same⟩

theorem Recur.mono {fewer : Nat} (recur : Recur first second offset shared) (within : fewer ≤ shared) :
    Recur first second offset fewer :=
  fun number less => recur number (Nat.lt_of_lt_of_le less within)

/-- A statement that is read is read within another text as well, and ends there at the same of its tokens. -/
theorem topLevelStatement_again {statement : Statement} {inner : List TokenKind} {last : TokenKind}
    (ends : EndsLine first inner last) (recur : Recur first second offset (LexStep.kinds first).length)
    (room : (LexStep.kinds first).length + offset ≤ limit') (stands : before.stream.Stands first limit begun)
    (shallow : before.depth = 0) (stands' : after.stream.Stands second limit' (begun + offset))
    (shallow' : after.depth = 0) (ran : Grammar.topLevelStatement levels before = .ok statement reached)
    (ended : reached.stream.Settled (LexStep.clearedTo begun first) limit place) (further : begun ≤ place)
    (inside : place ≤ inner.length) :
    ∃ statement' reached', Grammar.topLevelStatement levels after = .ok statement' reached' ∧
      reached'.stream.Stands second limit' (place + offset) := by
  have length := ends.length
  have recur' := (recur.cleared begun).mono (show place + 1 ≤ _ by omega)
  obtain ⟨token, -, there, -⟩ := recur' place (Nat.lt_succ_self place)
  obtain ⟨statement', reached', ran', settled⟩ := topLevelStatement_recurs
    (fun cuts _ => absurd (cutsOff_of_clearedTo cuts) (ends.not_cutsOff _)) recur'
      (fun number less _ => by omega) further stands
    shallow stands' shallow' there ran ended
  exact ⟨statement', reached', ran', settled.stands (Nat.add_le_add_right further offset)⟩

private theorem Lexer.Lexes.legal_of_cutsOff {lexer : Lexer} {steps : List LexStep} {start number : Nat} {token : Token}
    (lexes : lexer.Lexes steps) (cuts : CutsOff (LexStep.clearedTo start steps) number)
    (there : tokenAt (LexStep.clearedTo start steps) number = some token) : token.kind ≠ .illegal := by
  rcases Nat.lt_or_ge number start with before | within
  · rw [kind_of_tokenAt_clearedTo before there]
    nofun
  · obtain ⟨kind, literal⟩ :=
      lexes.cutsOff_literal (cutsOff_of_clearedTo cuts) ((tokenAt_clearedTo within).symm.trans there)
    rw [literal]
    nofun

section

variable {lexer lexer' : Lexer} {front : List TokenKind} (lexes : lexer.Lexes first) (lexes' : lexer'.Lexes second)
  (joins : LexStep.kinds second = front ++ LexStep.kinds first)
include lexes lexes' joins

private theorem kind_clearedTo (start number : Nat) : (tokenAt (LexStep.clearedTo start first) number).map (·.kind) =
    (tokenAt (LexStep.clearedTo (start + front.length) second) (number + front.length)).map (·.kind) := by
  have there := lexes.getElem?_kinds number
  have there' := lexes'.getElem?_kinds (number + front.length)
  rw [joins, List.getElem?_append_right (Nat.le_add_left _ _), Nat.add_sub_cancel, there] at there'
  by_cases before : number < start
  · rw [tokenAt_clearedTo_lt before, tokenAt_clearedTo_lt (Nat.add_lt_add_right before front.length),
      Option.map_map, Option.map_map]
    have some := congrArg (Option.map fun _ => TokenKind.identifier) there'
    rwa [Option.map_map, Option.map_map] at some
  · have within : start ≤ number := Nat.le_of_not_lt before
    rw [tokenAt_clearedTo within, tokenAt_clearedTo (Nat.add_le_add_right within front.length)]
    exact there'

private theorem beside_of_kinds (room : (LexStep.kinds second).length ≤ limit) (start : Nat) :
    Beside (LexStep.clearedTo start first) (LexStep.clearedTo (start + front.length) second) limit front.length := by
  have same := kind_clearedTo lexes lexes' joins start
  refine ⟨fun number _ => .of_kind (same number), fun number isSome => ?_⟩
  have isKind : ((LexStep.kinds first)[number]?).isSome = true := by
    rw [lexes.getElem?_kinds, Option.isSome_map]
    by_cases before : number < start
    · rwa [tokenAt_clearedTo_lt before, Option.isSome_map] at isSome
    · rwa [tokenAt_clearedTo (Nat.le_of_not_lt before)] at isSome
  obtain ⟨kind, isThere⟩ := Option.isSome_iff_exists.mp isKind
  have inside := (List.getElem?_eq_some_iff.mp isThere).1
  rw [joins, List.length_append] at room
  omega

/-- A statement that the other text ends with fails to be read there, if it fails to be read in the text itself. -/
theorem topLevelStatement_fails {failure : Failure} (room : (LexStep.kinds second).length ≤ limit)
    (stands : before.stream.Stands first limit begun) (shallow : before.depth = 0)
    (stands' : after.stream.Stands second limit (begun + front.length)) (shallow' : after.depth = 0)
    (failed : Grammar.topLevelStatement levels before = .error failure reached) (statement : Statement)
    (reached' : ParseState) :
    Grammar.topLevelStatement levels after ≠ .ok statement reached' := by
  intro ran
  have started : (Coupling.boundary (LexStep.clearedTo begun first)
    (LexStep.clearedTo (begun + front.length) second) limit
      front.length).settled begun before after := ⟨stands, stands'⟩
  have lawful := Coupling.boundary_lawful (beside_of_kinds lexes lexes' joins room begun) fun cuts => by
    rw [LexStep.clearedTo, List.length_mapIdx]
    exact lexes.cutsOff_last (cutsOff_of_clearedTo cuts)
  have outcome := Grammar.topLevelStatement_outcome lawful levels started shallow shallow'
  rw [failed, ran] at outcome
  rcases outcome with ⟨⟨number, token, cuts, there, illegal, -⟩, -⟩ | matched
  · have same := kind_clearedTo lexes lexes' joins begun number
    rw [there] at same
    obtain ⟨found, isThere, isKind⟩ := Option.map_eq_some_iff.mp same
    exact lexes.legal_of_cutsOff cuts isThere (isKind.trans illegal)
  · exact matched

end

end

/-- A complete text ends with a semicolon. -/
theorem ReadsWhole.terminated {limits : Limits} {text : List Char} {statement : Statement} {tokens taken : List Token}
    {first : Token} {begun ended noted : ParseState}
    (reads : ReadsWhole limits text statement tokens taken first begun ended noted) :
    ∃ last, tokens = taken ++ [last] ∧ isSemicolon last.kind = true := by
  obtain ⟨_, collected⟩ := reads.steps
  have lexes := (Lexer.Collects.of_steps collected).lexes
  have length := reads.length
  cases isBehind : tokens[taken.length]? with
  | some token =>
    have inside := (List.getElem?_eq_some_iff.mp isBehind).1
    rw [isBehind] at length
    refine ⟨token, ?_, ?_⟩
    · have parts : tokens.take (taken.length + 1) = taken ++ [token] := by
        rw [List.take_add_one, ← reads.isTaken, isBehind, Option.toList_some]
      have few : tokens.length ≤ taken.length + 1 := by
        have := Bool.toNat_le ((some token).map (·.kind) |>.any isSemicolon)
        omega
      rwa [List.take_of_length_le few] at parts
    · cases isSemi : isSemicolon token.kind with
      | true => rfl
      | false =>
        rw [Option.map_some, Option.any_some, isSemi] at length
        have : tokens.length = taken.length := length
        omega
  | none =>
    rw [isBehind] at length
    have all : tokens = taken := by
      have few : tokens.length ≤ taken.length := Nat.le_of_eq length
      rw [reads.isTaken, List.take_of_length_le few]
    obtain ⟨last, ends, -⟩ := reads.exists_last
    obtain ⟨kind, isKind, terminates | ⟨-, next, ahead, -⟩⟩ :=
      Grammar.topLevelStatement_finishes limits.maxNesting begun statement ended ⟨nofun, nofun⟩ reads.read
    · -- The last token may end a line, so a semicolon would have been inserted behind it.
      rw [reads.visits.lastConsumed, ends] at isKind
      obtain rfl : last.kind = kind := Option.some.inj isKind
      obtain ⟨front, splits⟩ := List.getLast?_eq_some_iff.mp ends
      rw [all, splits, List.map_append] at lexes
      exact Bool.noConfusion (terminates.symm.trans lexes.unterminated)
    · have looked := reads.lookedBehind
      rw [isBehind, show Parse.peek 0 ended = _ from onStream_ok (TokenStream.peek_front ahead)] at looked
      cases looked

/-- A text that is one complete statement. Its run stops in front of the semicolon at the end. -/
structure ReadsEntry (limits : Limits) (steps : List LexStep) (statement : Statement) (inner : List TokenKind)
    (last : TokenKind)
    (begun ended : ParseState) : Prop extends EndsLine steps inner last where
  lexes : ∃ lexer : Lexer, lexer.Lexes steps
  nested : Nested (LexStep.kinds steps)
  start : begun.stream.Stands steps limits.maxTokens 0
  shallow : begun.depth = 0
  read : Grammar.topLevelStatement limits.maxNesting begun = .ok statement ended
  stops : ended.stream.Settled (LexStep.clearedTo 0 steps) limits.maxTokens inner.length

theorem Scans.readsEntry {limits : Limits} {text : List Char} {steps : List LexStep} {statement : Statement}
    {after : ParseState} (scans : Scans text steps)
    (ran : Grammar.wholeText limits.maxNesting (.ofText limits text) = .ok statement after)
    (whole : after.stream.tail = none) :
    ∃ inner last begun ended, ReadsEntry limits steps statement inner last begun ended := by
  obtain ⟨tokens, taken, first, begun, ended, noted, reads, -, -⟩ := Parser.wholeText_reads ran whole
  obtain ⟨behind, collected⟩ := reads.steps
  have isSteps : steps = tokens.map LexStep.token :=
    scans.lexes.unique (Lexer.Collects.of_steps collected).lexes (Lexer.ofText_sound scans.encoded scans.fits)
  obtain ⟨last, splits, ends⟩ := reads.terminated
  have isLast : steps.getLast? = some (.token last) := by
    rw [isSteps, splits, List.map_append, List.map_singleton, List.getLast?_concat]
  obtain ⟨inner, endsLine⟩ := scans.lexes.endsLine isLast ends
  have size : inner.length = taken.length := by
    have length := endsLine.length
    rw [isSteps, LexStep.kinds, TokenStream.tokens_map, splits, List.length_map, List.length_append,
      List.length_singleton] at length
    omega
  have start : begun.stream.Settled steps limits.maxTokens 0 := by
    rcases peek_settled (scans.settled limits) with ⟨-, -, _, _, _, -, -, failed⟩ | ⟨_, found, seen⟩
    · cases failed.symm.trans reads.looked
    · obtain ⟨-, rfl⟩ := EStateM.Result.ok.inj (found.symm.trans reads.looked)
      exact seen.settled
  have atDepth : AtDepth 0 begun := by
    have looked := AtDepth.peek (⟨.ofText _ _, rfl⟩ : AtDepth 0 (.ofText limits text)) 0
    rwa [reads.looked] at looked
  have readEnds := topLevelStatement_ends limits.maxNesting start.anew
  rw [reads.read] at readEnds
  obtain ⟨-, place, -, settled⟩ := readEnds
  have counted := reads.visits.counted
    (⟨rfl, rfl, Nat.zero_le _⟩ : (TokenStream.ofText text limits.maxTokens).Counted limits.maxTokens 0)
  have same : place = inner.length := by rw [size, ← settled.consumed, counted.consumed, Nat.zero_add]
  obtain ⟨steps', scanned, nested⟩ := Parser.wholeText_nested ran whole
  obtain rfl : steps' = steps := by
    rw [collected, isSteps.symm] at scanned
    exact (Except.ok.inj scanned).symm
  exact ⟨inner, last.kind, begun, ended, endsLine, ⟨_, scans.lexes⟩, nested, start.anew, atDepth.same,
    reads.read, same ▸ settled⟩

theorem Recur.of_kinds {first second : List LexStep} {lexer lexer' : Lexer} {before behind : List TokenKind}
    {change : TokenKind → TokenKind} (lexes : lexer.Lexes first) (lexes' : lexer'.Lexes second)
    (recurs : ∀ kind : TokenKind, kind.Recurs (change kind))
    (kinds : LexStep.kinds second = before ++ ((LexStep.kinds first).map change ++ behind)) :
    Recur first second before.length (LexStep.kinds first).length := by
  intro number less
  have isOne := List.getElem?_eq_getElem less
  have isOther : (LexStep.kinds second)[number + before.length]? = some (change (LexStep.kinds first)[number]) := by
    rw [kinds, List.getElem?_append_right (Nat.le_add_left _ _), Nat.add_sub_cancel,
      List.getElem?_append_left (by rwa [List.length_map]), List.getElem?_map, isOne]
    rfl
  rw [lexes.getElem?_kinds] at isOne
  rw [lexes'.getElem?_kinds] at isOther
  obtain ⟨one, there, isKind⟩ := Option.map_eq_some_iff.mp isOne
  obtain ⟨other, there', isKind'⟩ := Option.map_eq_some_iff.mp isOther
  exact ⟨one, other, there, there', isKind ▸ isKind' ▸ recurs _⟩

/-- The kinds of the tokens of a complete text. -/
def IsReadable (limits : Limits) (kinds : List TokenKind) : Prop :=
  ∃ steps statement inner last begun ended, ReadsEntry limits steps statement inner last begun ended ∧
    LexStep.kinds steps = kinds

theorem unmarked_intercalate {texts : List (List Char)} (unmarked : ∀ text ∈ texts, text.head? ≠ some byteOrderMark) :
    (['\n'].intercalate texts).head? ≠ some byteOrderMark := by
  match texts with
  | [] => simp [List.intercalate]
  | [text] => simpa [List.intercalate] using unmarked text List.mem_cons_self
  | text :: _ :: _ =>
    have starts := unmarked text List.mem_cons_self
    cases text with
    | nil => simp [List.intercalate, byteOrderMark]
    | cons c rest => simpa [List.intercalate] using starts

/-- Complete texts that are joined by newlines. -/
theorem Scans.lines {limits : Limits} {texts : List (List Char)} (nonempty : texts ≠ [])
    (unmarked : ∀ text ∈ texts, text.head? ≠ some byteOrderMark)
    (entries : ∀ text ∈ texts, ∃ steps statement inner last begun ended, Scans text steps ∧
      ReadsEntry limits steps statement inner last begun ended)
    (fits : byteSize (['\n'].intercalate texts) ≤ maxOffset) :
    ∃ steps entries, Scans (['\n'].intercalate texts) steps ∧ LexStep.kinds steps = lineKinds entries ∧ entries ≠ [] ∧
      ∀ kinds ∈ entries, IsReadable limits kinds := by
  match texts with
  | [text] =>
    obtain ⟨steps, statement, inner, last, begun, ended, scans, reads⟩ := entries text List.mem_cons_self
    have alone : ['\n'].intercalate [text] = text := by simp [List.intercalate]
    rw [alone]
    exact ⟨steps, [LexStep.kinds steps], scans, rfl, List.cons_ne_nil _ _, fun kinds mem =>
      ⟨steps, statement, inner, last, begun, ended, reads, (List.mem_singleton.mp mem).symm⟩⟩
  | text :: next :: later =>
    obtain ⟨steps, statement, inner, last, begun, ended, scans, reads⟩ := entries text List.mem_cons_self
    have joined : ['\n'].intercalate (text :: next :: later) = text ++ '\n' :: ['\n'].intercalate (next :: later) := by
      simp [List.intercalate]
    rw [joined] at fits ⊢
    have fits' : byteSize (['\n'].intercalate (next :: later)) ≤ maxOffset := by
      rw [byteSize_append, byteSize_cons] at fits
      omega
    obtain ⟨steps', entries', scans', kinds, nonempty', each⟩ := Scans.lines (List.cons_ne_nil next later)
      (fun text mem => unmarked text (List.mem_cons_of_mem _ mem))
        (fun text mem => entries text (List.mem_cons_of_mem _ mem)) fits'
    have fresh := unmarked_intercalate fun text mem => unmarked text (List.mem_cons_of_mem _ mem)
    obtain ⟨steps'', scans'', kinds'⟩ := scans.nextLine scans' fresh fits reads.uncut
    refine ⟨steps'', LexStep.kinds steps :: entries', scans'', ?_, List.cons_ne_nil _ _, ?_⟩
    · rw [kinds', kinds]
      cases entries' with
      | nil => exact absurd rfl nonempty'
      | cons => rfl
    · intro kinds mem
      rcases List.mem_cons.mp mem with rfl | mem
      · exact ⟨steps, statement, inner, last, begun, ended, reads, rfl⟩
      · exact each kinds mem

end GoPrompt
