import GoPrompt.Proofs.Classification.BlankLines
import GoPrompt.Proofs.Classification.Boundary
import GoPrompt.Proofs.Classification.Explanations
import GoPrompt.Proofs.Lexical.Collected
import GoPrompt.Proofs.Runs.Lines

/-! The recovery over several lines. Behind a rejected text it starts again with the next line, unless a bracket is open
there, and reads the lines as they are read alone; so it reports nothing of lines that are complete. -/

namespace GoPrompt

open Parse

namespace Parser

variable {parser : Parser} {state : ParseState} {text : List Char} {steps : List LexStep} {number count : Nat}

/-- The recovery finds nothing to report. -/
def Quiet (parser : Parser) : Prop := parser.recoverLoop.2.collector.diagnostics = parser.collector.diagnostics

private theorem Quiet.of_done (done : parser.isDone = true) : parser.Quiet := by
  unfold Quiet
  rw [recoverLoop_done done]

private theorem Quiet.of_ended (turned : parser.recoverOnce = (.ok false, parser.withState state)) : parser.Quiet := by
  unfold Quiet recoverLoop
  rw [turned]
  split <;> rfl

private theorem Quiet.of_read (turned : parser.recoverOnce = (.ok true, parser.withState state))
    (later : (parser.withState state).Quiet) :
    parser.Quiet := by
  unfold Quiet recoverLoop
  rw [turned]
  dsimp only
  split
  next => rfl
  next =>
    split
    next => exact later
    next => rfl

theorem recover_clean : (∃ found, parser.recover.1 = .ok found) ↔ parser.resetDepth.recoverLoop.1 = .ok () := by
  unfold recover
  rcases parser.resetDepth.recoverLoop with ⟨result, after⟩
  cases result with
  | ok => exact ⟨fun _ => rfl, fun _ => ⟨_, rfl⟩⟩
  | error =>
    constructor
    · rintro ⟨_, never⟩
      cases never
    · rintro ⟨⟩

/-- A parser in the recovery, in front of the token with the given number. -/
structure Resumes (text : List Char) (steps : List LexStep) (number : Nat) (parser : Parser) : Prop where
  text : parser.text = text
  atDepth : AtDepth 0 parser.state
  stands : parser.state.stream.Stands steps parser.limits.maxTokens number

theorem Resumes.read {statement : Statement} {place : Nat} {after : ParseState}
    (resumes : parser.Resumes text steps number)
    (ran : Grammar.topLevelStatement parser.limits.maxNesting parser.state = .ok statement after)
    (stands : after.stream.Stands steps parser.limits.maxTokens place) :
    (parser.withState after).Resumes text steps place := by
  have reads := topLevelStatement_ends parser.limits.maxNesting resumes.stands
  have balanced := (kept_atDepth 0).topLevelStatement parser.limits.maxNesting resumes.atDepth
  rw [ran] at reads balanced
  exact ⟨reads.1.text.trans resumes.text, balanced, stands⟩

section

variable (scans : Scans text steps) (resumes : parser.Resumes text steps number)
  (room : (LexStep.tokens steps).length ≤ parser.limits.maxTokens)
include scans resumes room

private theorem recoverOnce_ended (never : Grammar.skipped 0 ((LexStep.kinds steps).drop number) = none) :
    ∃ state, parser.recoverOnce = (.ok false, parser.withState state) := by
  have lands := synchronize_lands scans.lexes room resumes.stands
  rw [never] at lands
  obtain ⟨after, ran⟩ := lands
  exact ⟨after, by rw [recoverOnce, ran]⟩

/-- Behind the separator the recovery reads a statement, or ends where there is none. -/
theorem recoverOnce_lands (lands : Grammar.skipped 0 ((LexStep.kinds steps).drop number) = some count) :
    match tokenAt steps (number + count) with
    | none => ∃ state, parser.recoverOnce = (.ok false, parser.withState state)
    | some _ => ∃ state, parser.recoverOnce =
        parser.resumed (Grammar.topLevelStatement parser.limits.maxNesting state) ∧
        (parser.withState state).Resumes text steps (number + count) := by
  have synchronized := synchronize_lands scans.lexes room resumes.stands
  have moved := synchronize_onward parser.state
  have balanced := resumes.atDepth.synchronize
  rw [lands] at synchronized
  obtain ⟨middle, ran, stands⟩ := synchronized
  rw [ran] at moved balanced
  have looked := onwards_peek 0 middle
  have atDepth := AtDepth.peek balanced 0
  rcases peek_settled stands with ⟨full, -, token, error, after, there, spent, failed⟩ | ⟨after, found, seen⟩
  · rw [tokenAt_clearedTo (Nat.le_refl _)] at there
    have isThere := scans.lexes.getElem?_tokens (number + count)
    rw [show steps[number + count]?.bind LexStep.token? = some token from there] at isThere
    have inside := (List.getElem?_eq_some_iff.mp isThere).1
    omega
  · rw [found] at looked atDepth
    rw [tokenAt_clearedTo (Nat.le_refl _)] at found seen
    cases there : tokenAt steps (number + count) with
    | none =>
      rw [there] at found
      exact ⟨after, by rw [recoverOnce, ran]; dsimp only; rw [found]⟩
    | some token =>
      rw [there] at found
      refine ⟨after, ?_, (moved.trans looked).text.trans resumes.text, atDepth, seen.settled⟩
      rw [recoverOnce, ran]
      dsimp only
      rw [found]
      rfl

end

/-- The recovery reads the complete line behind its separator and stands in front of the semicolon at the end of the
line. With more lines behind it, the semicolon is of another kind than at the end of the line alone; `change` says
of which. -/
private theorem recoverOnce_line {entry before behind : List TokenKind} {change : TokenKind → TokenKind}
    (scans : Scans text steps) (resumes : parser.Resumes text steps number)
    (room : (LexStep.tokens steps).length ≤ parser.limits.maxTokens) (readable : IsReadable parser.limits entry)
    (recurs : ∀ kind : TokenKind, kind.Recurs (change kind))
    (splits : LexStep.kinds steps = before ++ (entry.map change ++ behind))
    (lands : Grammar.skipped 0 ((LexStep.kinds steps).drop number) = some count)
    (place : number + count = before.length) :
    ∃ (reached : ParseState) (last : Nat) (origin : SemicolonKind), parser.recoverOnce =
    (.ok true, parser.withState reached) ∧
      (parser.withState reached).Resumes text steps last ∧ last + 1 = before.length + entry.length ∧
      (LexStep.kinds steps).drop last = .semicolon origin :: behind := by
  obtain ⟨first, statement, inner, last, begun, ended, reads, rfl⟩ := readable
  obtain ⟨lexer, lexes⟩ := reads.lexes
  have recur := Recur.of_kinds lexes scans.lexes recurs splits
  have size := reads.length
  have turned := recoverOnce_lands scans resumes room lands
  obtain ⟨-, token, -, isFirst, -⟩ := recur 0 (by omega)
  rw [Nat.zero_add, ← place] at isFirst
  rw [isFirst] at turned
  obtain ⟨state, turned, resumes'⟩ := turned
  have stands' : state.stream.Stands steps parser.limits.maxTokens (0 + before.length) := by
    rw [Nat.zero_add, ← place]
    exact resumes'.stands
  have total : (LexStep.kinds first).length + before.length ≤ parser.limits.maxTokens := by
    have all := congrArg List.length splits
    rw [LexStep.kinds, List.length_map, List.length_append, List.length_append, List.length_map] at all
    omega
  obtain ⟨statement', reached, ran, stands⟩ :=
    topLevelStatement_again reads.toEndsLine recur total reads.start reads.shallow
    stands' resumes'.atDepth.same reads.read reads.stops (Nat.zero_le _) (Nat.le_refl _)
  rw [ran] at turned
  have isNext : (LexStep.kinds steps).drop (inner.length + before.length) = change last :: behind := by
    have front : LexStep.kinds steps = (before ++ inner.map change) ++ (change last :: behind) := by
      rw [splits, reads.kinds]
      simp
    rw [front]
    exact List.drop_left' (by rw [List.length_append, List.length_map, Nat.add_comm])
  obtain ⟨origin, isLast⟩ : ∃ origin, change last = .semicolon origin := by
    have isSemi : isSemicolon (change last) = true := (recurs last).elim (fun same => same ▸ reads.ends) And.right
    cases isLast : change last with
    | semicolon origin => exact ⟨origin, rfl⟩
    | identifier | keyword | literal | operator | illegal =>
      rw [isLast] at isSemi
      cases isSemi
  exact ⟨reached, _, origin, turned, resumes'.read ran stands, by omega, isLast ▸ isNext⟩

/-- In front of lines that are complete the recovery finds nothing to report. -/
private theorem quiet_lines {parser : Parser} {number count : Nat} {entries : List (List TokenKind)}
    {before : List TokenKind} (scans : Scans text steps) (resumes : parser.Resumes text steps number)
    (room : (LexStep.tokens steps).length ≤ parser.limits.maxTokens)
    (kinds : LexStep.kinds steps = before ++ lineKinds entries)
    (each : ∀ kinds ∈ entries, IsReadable parser.limits kinds)
    (lands : Grammar.skipped 0 ((LexStep.kinds steps).drop number) = some count)
    (place : number + count = before.length) :
    parser.Quiet := by
  induction entries generalizing parser number count before with
  | nil =>
    have turned := recoverOnce_lands scans resumes room lands
    have missing : tokenAt steps (number + count) = none := by
      have ended : (LexStep.kinds steps)[number + count]? = none := by
        rw [kinds, lineKinds, List.append_nil, place]
        exact List.getElem?_eq_none (Nat.le_refl _)
      rwa [scans.lexes.getElem?_kinds, Option.map_eq_none_iff] at ended
    rw [missing] at turned
    obtain ⟨state, turned⟩ := turned
    exact .of_ended turned
  | cons entry later ih =>
    obtain ⟨change, behind, recurs, splits, isLater⟩ : ∃ (change : TokenKind → TokenKind) (behind : List TokenKind),
        (∀ kind : TokenKind, kind.Recurs (change kind)) ∧ LexStep.kinds steps = before ++ (entry.map change ++ behind) ∧
          behind = lineKinds later := by
      cases later with
      | nil => exact ⟨id, [], fun _ => .inl rfl, by rw [kinds, List.map_id, List.append_nil]; rfl, rfl⟩
      | cons => exact ⟨TokenKind.onLine, _, TokenKind.recurs_onLine, kinds, rfl⟩
    obtain ⟨reached, last, origin, turned, resumed, isPlace, isNext⟩ :=
      recoverOnce_line scans resumes room (each entry List.mem_cons_self) recurs splits lands place
    refine .of_read turned ?_
    cases origin with
    | endOfInput =>
      obtain ⟨_, turned⟩ := recoverOnce_ended scans resumed room (by rw [isNext]; rfl)
      exact .of_ended turned
    | newline | explicit =>
      refine @ih (parser.withState reached) last 1 (before ++ entry.map change) resumed room ?_
        (fun kinds mem => each kinds (List.mem_cons_of_mem _ mem)) (by rw [isNext]; rfl) ?_
      · rw [splits, isLater, List.append_assoc]
      · rw [List.length_append, List.length_map, isPlace]

theorem recoverOnce_extended (ready : parser.isDone = false) : parser.recoverOnce.2.Extends parser.recoverLoop.2 := by
  unfold recoverLoop
  rw [ready, if_neg Bool.false_ne_true]
  rcases parser.recoverOnce with ⟨result, after⟩
  match result with
  | .error error => exact .refl after
  | .ok false => exact .refl after
  | .ok true =>
    dsimp only
    split
    next => exact after.recoverLoop_extends
    next => exact .refl after

private theorem Quiet.not_reported (quiet : parser.Quiet) (ready : parser.isDone = false) {error : ParseError} :
    parser.recoverOnce.2.collector ≠ ((parser.withState state).report error).collector := by
  intro reported
  obtain ⟨more, extended⟩ := recoverOnce_extended ready
  have room : parser.collector.isSaturated = false := (Bool.or_eq_false_iff.mp ready).2
  have longer : ((parser.withState state).report error).collector.diagnostics =
      parser.collector.diagnostics ++ [(parser.withState state).diagnosis error] := by
    rw [report_eq]
    show (parser.collector.report _).diagnostics = _
    rw [Collector.report, room]
    rfl
  rw [quiet, reported, longer, List.append_assoc] at extended
  have same := congrArg List.length extended
  simp only [List.length_append, List.length_singleton] at same
  omega

theorem recoverLoop_again {after : Parser} (ready : parser.isDone = false)
    (turned : parser.recoverOnce = (.ok true, after)) (clean : parser.recoverLoop.1 = .ok ()) :
    after.state.remaining < parser.state.remaining ∧ parser.recoverLoop = after.recoverLoop := by
  unfold recoverLoop at clean
  rw [ready, if_neg Bool.false_ne_true, turned] at clean
  dsimp only at clean
  split at clean
  next progress =>
    refine ⟨progress, ?_⟩
    conv => lhs; unfold recoverLoop
    rw [ready, if_neg Bool.false_ne_true, turned]
    exact if_pos progress
  next => cases clean

theorem Quiet.read {result : EStateM.Result Failure ParseState Statement} (quiet : parser.Quiet)
    (ready : parser.isDone = false) (clean : parser.recoverLoop.1 = .ok ())
    (turned : parser.recoverOnce = parser.resumed result) :
    ∃ statement after, result = .ok statement after := by
  cases result with
  | ok statement after => exact ⟨statement, after, rfl⟩
  | error failure after =>
    exfalso
    cases failure with
    | needMoreInput error =>
      have reported : parser.recoverOnce.2.collector = ((parser.withState after).report error).collector := by
        rw [turned]; rfl
      exact quiet.not_reported ready reported
    | rejected error =>
      by_cases fault : error.isFault = true
      · rw [resumed, if_pos fault] at turned
        rw [recoverLoop_fault ready turned] at clean
        cases clean
      · have reported : parser.recoverOnce.2.collector = ((parser.withState after).report error).collector := by
          rw [turned, resumed, if_neg fault]
          rfl
        exact quiet.not_reported ready reported

end Parser

/-- A text that ends with a semicolon, and the same text with tokens of the kinds `behind` on the lines behind it. -/
structure Continues (limits : Limits) (first joined : List Char) (steps steps' : List LexStep) (inner : List TokenKind)
    (last : TokenKind)
    (behind : List TokenKind) : Prop extends EndsLine steps inner last where
  scans : Scans first steps
  scans' : Scans joined steps'
  joins : LexStep.kinds steps' = (LexStep.kinds steps).map TokenKind.onLine ++ behind
  room : (LexStep.tokens steps').length ≤ limits.maxTokens

namespace Continues

variable {limits : Limits} {first joined : List Char} {steps steps' : List LexStep} {inner : List TokenKind}
  {last : TokenKind} {behind : List TokenKind} {number : Nat}
  (continues : Continues limits first joined steps steps' inner last behind)
include continues

theorem recur : Recur steps steps' 0 (LexStep.kinds steps).length :=
  Recur.of_kinds continues.scans.lexes continues.scans'.lexes TokenKind.recurs_onLine (show _ =
    [] ++ _ from continues.joins)

theorem total : (LexStep.kinds steps).length ≤ limits.maxTokens := by
  have room := continues.room
  have all := congrArg List.length continues.joins
  rw [LexStep.kinds, List.length_map, List.length_append, List.length_map] at all
  omega

theorem ahead (inside : number ≤ inner.length) : (LexStep.kinds steps).drop number = inner.drop number ++ [last] := by
  rw [continues.kinds, List.drop_append_of_le_length inside]

theorem ahead' (inside : number ≤ inner.length) :
    (LexStep.kinds steps').drop number = (inner.drop number ++ [last]).map TokenKind.onLine ++ behind := by
  have length := continues.length
  rw [continues.joins, List.drop_append_of_le_length (by rw [List.length_map]; omega),
    ← List.map_drop, continues.ahead inside]

theorem agree {token : Token} (there : tokenAt steps number = some token) (written : ¬ token.IsInserted) :
    number ≤ inner.length ∧ Agree steps steps' (number + 1) := by
  have length := continues.length
  have isKind : ∀ {place : Nat} {found : Token}, tokenAt steps place = some found →
      (inner ++ [last])[place]? = some found.kind := by
    intro place found isThere
    rw [← continues.kinds, continues.scans.lexes.getElem?_kinds,
      show steps[place]?.bind LexStep.token? = some found from isThere]
    rfl
  have inside : number ≤ inner.length := by
    have less := (List.getElem?_eq_some_iff.mp (isKind there)).1
    rw [List.length_append, List.length_singleton] at less
    omega
  refine ⟨inside, fun place less => ?_⟩
  obtain ⟨one, other, isOne, isOther, same | ⟨inserted, -⟩⟩ := continues.recur place (by omega)
  · exact ⟨one, other, isOne, isOther, same⟩
  · exfalso
    rcases Nat.lt_or_eq_of_le (Nat.le_of_lt_succ less) with before | rfl
    · have isInner := isKind isOne
      rw [List.getElem?_append_left (by omega)] at isInner
      exact continues.written _ (List.mem_of_getElem? isInner) inserted
    · cases there.symm.trans isOne
      exact written inserted

end Continues

/-- A text that ends with a semicolon, and the same text with complete lines behind it. -/
structure Precedes (limits : Limits) (first joined : List Char) (steps steps' : List LexStep) (inner : List TokenKind)
    (last : TokenKind)
    (entries : List (List TokenKind)) : Prop
    extends Continues limits first joined steps steps' inner last (lineKinds entries) where
  each : ∀ kinds ∈ entries, IsReadable limits kinds

theorem Precedes.nested {limits : Limits} {first joined : List Char} {steps steps' : List LexStep}
    {inner : List TokenKind} {last : TokenKind} {entries : List (List TokenKind)}
    (precedes : Precedes limits first joined steps steps' inner last entries) :
    ∀ kinds ∈ entries, Nested kinds := by
  intro entry mem
  obtain ⟨_, _, _, _, _, _, reads, rfl⟩ := precedes.each entry mem
  exact reads.nested

namespace Parser

/-- Parsers that go on with the same token of the text, and of the text with the lines behind it. -/
structure Abreast (first joined : List Char) (steps steps' : List LexStep) (number : Nat)
    (one other : Parser) : Prop where
  limits : one.limits = other.limits
  done : one.isDone = other.isDone
  alone : one.Resumes first steps number
  joined : other.Resumes joined steps' number

section

variable {first joined : List Char} {steps steps' : List LexStep} {inner : List TokenKind} {last : TokenKind}
  {entries : List (List TokenKind)} {one other : Parser} {number count : Nat} {token : Token}
  (precedes : Precedes other.limits first joined steps steps' inner last entries)
include precedes

/-- In front of a statement that is read in the text alone, both parsers read it. -/
theorem Abreast.read (abreast : Abreast first joined steps steps' number one other) (ready : one.isDone = false)
    (clean : one.recoverLoop.1 = .ok ()) (quiet : one.Quiet)
    (alone : Grammar.skipped 0 ((LexStep.kinds steps).drop number) = some count)
    (lands : Grammar.skipped 0 ((LexStep.kinds steps').drop number) = some count)
    (there : tokenAt steps (number + count) = some token) :
    ∃ place after reached, place ≤ inner.length ∧ one.recoverOnce = (.ok true, one.withState after) ∧
      other.recoverOnce = (.ok true, other.withState reached) ∧
      Abreast first joined steps steps' place (one.withState after) (other.withState reached) := by
  have total := precedes.total
  have room' : (LexStep.tokens steps).length ≤ one.limits.maxTokens := by
    rw [abreast.limits]
    exact Nat.le_trans (Nat.le_of_eq (List.length_map _).symm) total
  have less : number + count < (LexStep.kinds steps).length := by
    have found := precedes.scans.lexes.getElem?_kinds (number + count)
    rw [show steps[number + count]?.bind LexStep.token? = some token from there] at found
    exact (List.getElem?_eq_some_iff.mp found).1
  obtain ⟨-, other', -, there', -⟩ := precedes.recur (number + count) less
  have turned := recoverOnce_lands precedes.scans abreast.alone room' alone
  have turned' := recoverOnce_lands precedes.scans' abreast.joined precedes.room lands
  rw [there] at turned
  rw [show tokenAt steps' (number + count) = some other' from there'] at turned'
  obtain ⟨state, turned, begun⟩ := turned
  obtain ⟨state', turned', begun'⟩ := turned'
  obtain ⟨statement, after, ran⟩ := quiet.read ready clean turned
  obtain ⟨place, further, short, settled⟩ :=
    topLevelStatement_short precedes.scans precedes.toEndsLine room' begun.text begun.atDepth begun.stands ran
  obtain ⟨statement', reached, ran', stands⟩ :=
    topLevelStatement_again precedes.toEndsLine precedes.recur total begun.stands
    begun.atDepth.same begun'.stands begun'.atDepth.same ran settled further short
  have read' : Grammar.topLevelStatement other.limits.maxNesting state' = .ok statement' reached :=
    abreast.limits ▸ ran'
  refine ⟨place, after, reached, short, ?_, ?_, abreast.limits, abreast.done, begun.read ran (settled.stands further),
    begun'.read read' stands⟩
  · rw [turned, ran]
    rfl
  · rw [turned', read']
    rfl

end

/-- A recovery that reports nothing of a text reports nothing either when complete lines come behind it. -/
theorem Abreast.quiet {first joined : List Char} {steps steps' : List LexStep} {inner : List TokenKind}
    {last : TokenKind} {entries : List (List TokenKind)} {one other : Parser} {number : Nat}
    (abreast : Abreast first joined steps steps' number one other)
    (precedes : Precedes other.limits first joined steps steps' inner last entries) (inside : number ≤ inner.length)
    (clean : one.recoverLoop.1 = .ok ()) (quiet : one.Quiet) : other.Quiet := by
  have room := precedes.room
  have length := precedes.length
  rcases skipped_onLine precedes.ends (fun kind mem => precedes.written kind (List.mem_of_mem_drop mem))
      0 (lineKinds entries) with
    ⟨count, alone, lands⟩ | ⟨-, lands | ⟨deeper, lands⟩⟩
  · rw [← precedes.ahead inside] at alone
    rw [← precedes.ahead' inside] at lands
    cases there : tokenAt steps (number + count) with
    | none =>
      -- The separator is the semicolon at the end of the text.
      have within := (skipped_pos alone).2
      have all : (LexStep.kinds steps).length ≤ number + count := by
        have missing := precedes.scans.lexes.getElem?_kinds (number + count)
        rw [show steps[number + count]?.bind LexStep.token? = none from there] at missing
        exact List.getElem?_eq_none_iff.mp missing
      rw [List.length_drop] at within
      exact quiet_lines precedes.scans' abreast.joined room precedes.joins precedes.each lands
        (by rw [List.length_map]; omega)
    | some token =>
      cases ready : one.isDone with
      | true => exact .of_done (abreast.done ▸ ready)
      | false =>
        obtain ⟨place, after, reached, short, turned, turned', abreast'⟩ :=
          abreast.read precedes ready clean quiet alone lands there
        obtain ⟨progress, same⟩ := recoverLoop_again ready turned clean
        have quiet' : (one.withState after).Quiet := by
          unfold Quiet
          rw [← same]
          exact quiet
        exact .of_read turned' (abreast'.quiet precedes short (same ▸ clean) quiet')
  · rw [← precedes.ahead' inside] at lands
    refine quiet_lines precedes.scans' abreast.joined room precedes.joins precedes.each lands ?_
    rw [List.length_map, length, List.length_drop]
    omega
  · -- A bracket is open where the text ends, and the lines behind it close only brackets of their own.
    rw [skipped_lines precedes.nested, ← precedes.ahead' inside] at lands
    obtain ⟨_, turned⟩ := recoverOnce_ended precedes.scans' abreast.joined room lands
    exact .of_ended turned
termination_by one.state.remaining

end Parser

section

variable {limits : Limits} {text : List Char} {steps : List LexStep} {number : Nat} {token : Token}

/-- The recovery behind a text ends without a fault: it stays within its budgets, and the lexer reads what it
asks for. -/
def RecoversCleanly (limits : Limits) (text : List Char) : Prop :=
  ∀ report parser, (classifyingParser limits text).parse = (.ok report, parser) → ∃ found, parser.recover.1 = .ok found

instance (limits : Limits) (text : List Char) : Decidable (RecoversCleanly limits text) :=
  match parsed : (classifyingParser limits text).parse with
  | (.error _, _) => .isTrue fun _ _ other => by cases parsed.symm.trans other
  | (.ok _, parser) =>
    match ended : parser.recover.1 with
    | .ok found => .isTrue fun _ _ other => by
      cases parsed.symm.trans other
      exact ⟨found, ended⟩
    | .error _ => .isFalse fun clean => by
      obtain ⟨_, other⟩ := clean _ _ parsed
      cases ended.symm.trans other

/-- Behind a rejected token there is one diagnostic, and the recovery goes on with that token. -/
theorem Rejects.parsed (rejects : Rejects limits.forClassification text steps number token) :
    ∃ report parser error primary, (classifyingParser limits text).parse = (.ok report, parser) ∧
      report.verdict = .syntaxError error ∧ parser.collector.diagnostics = [primary] ∧ parser.Keeps ∧
      parser.limits = limits.forClassification ∧ parser.resetDepth.Resumes text steps number ∧
      ∀ classification, classifySource limits text = .ok classification →
        classification.diagnostics = parser.resetDepth.recoverLoop.2.collector.diagnostics := by
  obtain ⟨-, error, after, blames, ran, seen⟩ := rejects
  let start := classifyingParser limits text
  have keeps : (start.withState after).Keeps := ⟨rfl, rfl, Nat.zero_le _⟩
  have free : (start.withState after).collector.diagnostics.length < (start.withState after).limits.maxDiagnostics :=
    Nat.lt_of_lt_of_le Nat.zero_lt_one (Nat.le_max_right _ _)
  have parsed := Parser.parse_rejected { limit := some limits.forClassification.maxDiagnostics } ran
  rw [if_neg (Bool.eq_false_iff.mp blames.not_isFault)] at parsed
  have onward := wholeText_onward limits.forClassification.maxNesting
    (show (ParseState.ofText limits.forClassification text).depth = 0 from rfl)
  have kept := (kept_atDepth 0).wholeText limits.forClassification.maxNesting
    (⟨.ofText _ _, rfl⟩ : AtDepth 0 (.ofText limits.forClassification text))
  rw [ran] at onward kept
  refine ⟨_, (start.withState after).report error, error, (start.withState after).diagnosis error, parsed, rfl, ?_,
    (keeps.report free error).keeps, (keeps.report free error).limits,
    ⟨onward.text, ⟨kept.reached.atDepth 0, rfl⟩, seen.settled.anew⟩, ?_⟩
  · rw [Parser.report_eq, keeps.emit_eq free]
    rfl
  · intro classification answered
    obtain ⟨report, parser, parsed', -, listed⟩ := classifySource_parsed answered
    cases parsed.symm.trans parsed'
    exact listed

end

section

variable {limits : Limits} {first joined : List Char} {steps steps' : List LexStep} {inner : List TokenKind}
  {last : TokenKind} {entries : List (List TokenKind)}

/-- Complete lines behind a rejected text leave it with the diagnostic that it has. -/
theorem Precedes.classified (precedes : Precedes limits.forClassification first joined steps steps' inner last entries)
    {classification : Classification} (answered : classifySource limits first = .ok classification)
    (wrong : classification.answer = .syntaxError) (only : classification.diagnostics.length = 1)
    (clean : RecoversCleanly limits first) :
    ∃ later, classifySource limits joined = .ok later ∧ later.answer = .syntaxError ∧ later.diagnostics.length = 1 := by
  obtain ⟨number, token, rejects⟩ := precedes.scans.rejects answered wrong
  obtain ⟨inside, agree⟩ := precedes.agree rejects.isNext rejects.1
  obtain ⟨_, rejects'⟩ := rejects.transfer precedes.scans precedes.scans' agree
  obtain ⟨later, -, -, answered', wrong', -⟩ := rejects'.answer
  refine ⟨later, answered', wrong', ?_⟩
  obtain ⟨report, one, -, primary, parsed, -, listed, keeps, isLimits, alone, isAll⟩ := rejects.parsed
  obtain ⟨-, other, -, primary', -, -, listed', keeps', isLimits', alone', isAll'⟩ := rejects'.parsed
  have quiet : one.resetDepth.Quiet := by
    obtain ⟨more, extended⟩ := one.resetDepth.recoverLoop_extends
    have size := congrArg List.length extended
    rw [← isAll classification answered, only, show one.resetDepth.collector.diagnostics = [primary] from listed,
      List.length_append, List.length_singleton] at size
    obtain rfl := List.length_eq_zero_iff.mp (show more.length = 0 by omega)
    rw [Parser.Quiet, extended, List.append_nil]
  have ended : one.resetDepth.recoverLoop.1 = .ok () := Parser.recover_clean.mp (clean report one parsed)
  have done : one.resetDepth.isDone = other.resetDepth.isDone := by
    show one.isDone = other.isDone
    rw [keeps.isDone, keeps'.isDone, listed, listed', isLimits, isLimits']
    rfl
  have abreast : Parser.Abreast first joined steps steps' number one.resetDepth other.resetDepth :=
    ⟨isLimits.trans isLimits'.symm, done, alone, alone'⟩
  have precedes' : Precedes other.resetDepth.limits first joined steps steps' inner last entries := by
    rw [show other.resetDepth.limits = limits.forClassification from isLimits']
    exact precedes
  rw [isAll' later answered', abreast.quiet precedes' inside ended quiet]
  exact congrArg List.length listed'

/-- A recovery that skips to the end of the text has nothing more to report. -/
private theorem Scans.recovers_at_end {number : Nat} {token : Token} {classification : Classification} (scans : Scans first steps)
    (room : (LexStep.tokens steps).length ≤ limits.maxTokens) (rejects : Rejects limits.forClassification first steps number token)
    (answered : classifySource limits first = .ok classification)
    (apart : ∀ count, Grammar.skipped 0 ((LexStep.kinds steps).drop number) = some count →
      number + count = (LexStep.kinds steps).length) :
    classification.diagnostics.length = 1 ∧ RecoversCleanly limits first := by
  obtain ⟨report, parser, -, primary, parsed, -, listed, -, isLimits, resumes, isAll⟩ := rejects.parsed
  have room' : (LexStep.tokens steps).length ≤ parser.resetDepth.limits.maxTokens := by
    rw [show parser.resetDepth.limits = limits.forClassification from isLimits]
    exact room
  obtain ⟨state, turned⟩ : ∃ state, parser.resetDepth.recoverOnce = (.ok false, parser.resetDepth.withState state) := by
    cases lands : Grammar.skipped 0 ((LexStep.kinds steps).drop number) with
    | none => exact Parser.recoverOnce_ended scans resumes room' lands
    | some count =>
      have turned := Parser.recoverOnce_lands scans resumes room' lands
      have missing := scans.lexes.getElem?_kinds (number + count)
      rw [apart count lands, List.getElem?_eq_none (Nat.le_refl _)] at missing
      rw [apart count lands, show tokenAt steps _ = none from Option.map_eq_none_iff.mp missing.symm] at turned
      exact turned
  refine ⟨?_, fun report' parser' parsed' => ?_⟩
  · rw [isAll classification answered, Parser.Quiet.of_ended turned]
    exact congrArg List.length listed
  · cases parsed.symm.trans parsed'
    refine Parser.recover_clean.mpr ?_
    unfold Parser.recoverLoop
    rw [turned]
    split <;> rfl

end

private theorem readsEntry_of_complete {limits : Limits} {text : String} {classification : Classification}
    (answered : classify limits text = .ok classification) (complete : classification.answer = .complete) :
    ∃ steps statement inner last begun ended, Scans text.toList steps ∧
      ReadsEntry limits.forClassification steps statement inner last begun ended := by
  have fits := fits_of_complete answered complete
  obtain ⟨statement, after, ran, whole⟩ := reduced_of_complete answered complete
  rcases classify_cases limits text fits with ⟨encoded, -⟩ | ⟨_, _, _, _, failed, _⟩
  · obtain ⟨steps, scans⟩ := encoded.scans fits
    obtain ⟨inner, last, begun, ended, reads⟩ := scans.readsEntry ran whole
    exact ⟨steps, statement, inner, last, begun, ended, scans, reads⟩
  · cases failed.symm.trans answered

section

variable {limits : Limits} {first : String} {others : List String} {classification : Classification}
  {steps steps' : List LexStep} {token : Token}

/-- The lines behind a text, if each of them is complete. -/
private theorem scans_others (first : String) (nonempty : others ≠ [])
    (complete : ∀ text ∈ others, text.toList.head? ≠ some byteOrderMark ∧
      ∃ classification, classify limits text = .ok classification ∧ classification.answer = .complete)
    (fits : byteSize ("\n".intercalate (first :: others)).toList ≤ maxOffset) : ∃ next later entries,
      ("\n".intercalate (first :: others)).toList = first.toList ++ '\n' :: next ∧ next.head? ≠ some byteOrderMark ∧
      Scans next later ∧ LexStep.kinds later = lineKinds entries ∧
      ∀ kinds ∈ entries, IsReadable limits.forClassification kinds := by
  have joined : ("\n".intercalate (first :: others)).toList =
      first.toList ++ '\n' :: ['\n'].intercalate (others.map String.toList) := by
    rw [String.toList_intercalate]
    cases others with
    | nil => exact absurd rfl nonempty
    | cons => simp [List.intercalate]
  rw [joined] at fits
  have fits' : byteSize (['\n'].intercalate (others.map String.toList)) ≤ maxOffset := by
    rw [byteSize_append, byteSize_cons] at fits
    omega
  have unmarked : ∀ text ∈ others.map String.toList, text.head? ≠ some byteOrderMark := by
    intro text mem
    obtain ⟨other, isOther, rfl⟩ := List.mem_map.mp mem
    exact (complete other isOther).1
  have some : others.map String.toList ≠ [] := fun none => nonempty (List.map_eq_nil_iff.mp none)
  obtain ⟨later, entries, scans, kinds, -, each⟩ := Scans.lines some unmarked
    (fun text mem => by
      obtain ⟨other, isOther, rfl⟩ := List.mem_map.mp mem
      obtain ⟨-, classification, answered, isComplete⟩ := complete other isOther
      exact readsEntry_of_complete answered isComplete) fits'
  exact ⟨_, later, entries, joined, unmarked_intercalate unmarked, scans, kinds, each⟩

/-- How a text ends if a newline behind it ends the line: with a semicolon, or with the rejected literal, which is cut
off there, is no raw string and comes behind a token that ends a line. -/
inductive LeavesLine (classification : Classification) (steps : List LexStep) : Prop
  | semicolon {token : Token} (isLast : steps.getLast? = some (.token token)) (ends : isSemicolon token.kind = true)
  | literal {front : List LexStep} {before token : Token} {cutoff : Cutoff} {diagnostic : Diagnostic}
      (isSteps : steps = front ++ [.token before, .truncated token cutoff]) (arms : before.kind.terminatesLine = true)
      (single : cutoff.construct ≠ .rawString) (isHead : classification.diagnostics.head? = some diagnostic)
      (span : diagnostic.span = token.span)

end

private theorem Scans.rejects_at {limits : Limits} {text : List Char} {steps : List LexStep}
    {classification : Classification} {number : Nat} {token : Token} {diagnostic : Diagnostic}
    (scans : Scans text steps) (answered : classifySource limits text = .ok classification)
    (wrong : classification.answer = .syntaxError) (there : tokenAt steps number = some token)
    (isHead : classification.diagnostics.head? = some diagnostic) (span : diagnostic.span = token.span) :
    Rejects limits.forClassification text steps number token := by
  obtain ⟨place, blamed, rejects⟩ := scans.rejects answered wrong
  obtain ⟨_, named, _, answered', -, isHead', span', -⟩ := rejects.answer
  cases answered.symm.trans answered'
  cases isHead.symm.trans isHead'
  obtain ⟨_, isThere, isToken⟩ := Option.bind_eq_some_iff.mp there
  obtain ⟨_, isThere', isToken'⟩ := Option.bind_eq_some_iff.mp rejects.isNext
  obtain rfl := scans.lexes.same_place isThere' isToken' isThere isToken rejects.1 (span.symm.trans span')
  obtain rfl := Option.some.inj (there.symm.trans rejects.isNext)
  exact rejects

private theorem skipped_spoilt {front : List LexStep} {before : TokenKind} {steps : List LexStep}
    {behind : List TokenKind} (size : (LexStep.kinds front).length = front.length)
    (splits : LexStep.kinds steps = LexStep.kinds front ++ before :: .illegal :: .semicolon .newline :: behind) :
    Grammar.skipped 0 ((LexStep.kinds steps).drop (front.length + 1)) = some 2 := by
  rw [splits, ← size, ← List.drop_drop, List.drop_left]
  rfl

section

variable {limits : Limits} {text next : List Char} {steps later steps' : List LexStep} {entries : List (List TokenKind)}
  {classification : Classification} (scans : Scans text steps) (behind : Scans next later)
  (unmarked : next.head? ≠ some byteOrderMark) (kinds : LexStep.kinds later = lineKinds entries)
  (each : ∀ kinds ∈ entries, IsReadable limits.forClassification kinds) (scans' : Scans (text ++ '\n' :: next) steps')
  (room : (LexStep.tokens steps').length ≤ limits.maxTokens)
include scans behind unmarked kinds each scans' room

private theorem Scans.precedes {token : Token} (isLast : steps.getLast? = some (.token token))
    (ends : isSemicolon token.kind = true) :
    ∃ inner, Precedes limits.forClassification text (text ++ '\n' :: next) steps steps' inner token.kind entries := by
  obtain ⟨inner, endsLine⟩ := scans.lexes.endsLine isLast ends
  obtain ⟨found, joined, splits⟩ := scans.nextLine behind unmarked scans'.fits endsLine.uncut
  obtain rfl := scans'.lexes.unique joined.lexes (Lexer.ofText_sound scans'.encoded scans'.fits)
  exact ⟨inner, ⟨endsLine, scans, scans', kinds ▸ splits, room⟩, each⟩

/-- If a newline spoils the rejected literal at the end of a text, it is rejected in its place, and nothing else is
reported of complete lines behind the text. -/
private theorem Scans.spoilt_lines {front : List LexStep} {before token : Token} {cutoff : Cutoff}
    {diagnostic : Diagnostic} (answered : classifySource limits text = .ok classification)
    (wrong : classification.answer = .syntaxError) (isSteps : steps = front ++ [.token before, .truncated token cutoff])
    (arms : before.kind.terminatesLine = true) (single : cutoff.construct ≠ .rawString)
    (isHead : classification.diagnostics.head? = some diagnostic) (span : diagnostic.span = token.span) :
    (LexStep.kinds steps).length ≤ limits.maxTokens ∧ ∃ later,
      classifySource limits (text ++ '\n' :: next) = .ok later ∧ later.answer = .syntaxError ∧
      later.diagnostics.length = 1 := by
  obtain ⟨found, joined, line, splits⟩ := scans.spoiltLine behind unmarked scans'.fits isSteps arms single
  obtain rfl := scans'.lexes.unique joined.lexes (Lexer.ofText_sound scans'.encoded scans'.fits)
  have size : (LexStep.kinds front).length = front.length := by
    rw [LexStep.kinds, List.length_map, LexStep.tokens, List.filterMap_length_eq_length]
    intro step mem
    obtain ⟨found, isToken, -⟩ := (isSteps ▸ scans.lexes).inside (List.cons_ne_nil _ _) step mem
    exact Option.isSome_iff_exists.mpr ⟨found, isToken⟩
  have total : (LexStep.kinds steps).length ≤ limits.maxTokens := by
    have all := congrArg List.length splits
    rw [LexStep.kinds, List.length_map] at all
    rw [isSteps, LexStep.kinds, LexStep.tokens, List.filterMap_append, List.map_append, List.length_append]
    show (LexStep.kinds front).length + 2 ≤ _
    simp only [List.length_append, List.length_cons] at all
    omega
  refine ⟨total, ?_⟩
  have isLast : tokenAt steps (front.length + 1) = some token := by
    rw [tokenAt, isSteps, List.getElem?_append_right (Nat.le_add_right _ _), Nat.add_sub_cancel_left]
    rfl
  have rejects := scans.rejects_at answered wrong isLast isHead span
  obtain ⟨later, answeredLater, withstands⟩ | ⟨wanting, -⟩ := scans.boundary scans' line answered
  · rw [Classification.Withstands, wrong] at withstands
    obtain ⟨found, goesOn⟩ :=
      scans.goesOn (nonempty_of_rejects scans rejects) startsBlank_newline scans'.encoded scans'.fits
    obtain rfl := scans'.lexes.unique goesOn.scans'.lexes (Lexer.ofText_sound scans'.encoded scans'.fits)
    rcases goesOn.rejects rejects with ⟨fault, failed⟩ | ⟨other, rejects', -⟩
    · cases failed.symm.trans answeredLater
    · obtain ⟨-, parser, -, primary, -, -, listed, -, isLimits, resumes, isAll⟩ := rejects'.parsed
      have splits' : LexStep.kinds steps' =
          (LexStep.kinds front ++ [before.kind, .illegal, .semicolon .newline]) ++ lineKinds entries := by
        rw [splits, kinds, List.append_assoc]
        rfl
      have quiet : parser.resetDepth.Quiet :=
        Parser.quiet_lines scans' resumes (isLimits ▸ room) splits' (isLimits ▸ each)
        (skipped_spoilt size splits) (by simp [size])
      refine ⟨later, answeredLater, withstands, ?_⟩
      rw [isAll later answeredLater, quiet]
      exact congrArg List.length listed
  · cases wrong.symm.trans wanting

theorem LeavesLine.lines (leaves : LeavesLine classification steps)
    (answered : classifySource limits text = .ok classification) (wrong : classification.answer = .syntaxError) :
    (LexStep.kinds steps).length ≤ limits.maxTokens ∧
      (classification.diagnostics.length = 1 → RecoversCleanly limits text → ∃ later,
        classifySource limits (text ++ '\n' :: next) = .ok later ∧ later.answer = .syntaxError ∧
          later.diagnostics.length = 1) := by
  cases leaves with
  | semicolon isLast ends =>
    obtain ⟨inner, precedes⟩ := scans.precedes behind unmarked kinds each scans' room isLast ends
    exact ⟨precedes.total, precedes.classified answered wrong⟩
  | literal isSteps arms single isHead span =>
    obtain ⟨total, reported⟩ :=
      scans.spoilt_lines behind unmarked kinds each scans' room answered wrong isSteps arms single isHead span
    exact ⟨total, fun _ _ => reported⟩

end

section

variable {limits : Limits} {first : String} {others : List String} {classification : Classification}
  {steps steps' : List LexStep} {token : Token}

/-- Recovery invents no errors. Where it reports nothing more of a rejected text whose line ends where the text does, it
reports nothing either when complete texts come on the lines behind it; and it reports nothing of a text that has no
separator between the rejected token and its last one, with brackets counted from the rejected token on. -/
theorem recovery_invents_nothing (limits : Limits) (first : String) (others : List String) (classification : Classification)
    (answered : classify limits first = .ok classification) (wrong : classification.answer = .syntaxError) (steps steps' : List LexStep)
    (scanned : (Lexer.ofText 0 first.toList).steps.1 = .ok steps) (leaves : LeavesLine classification steps)
    (complete : ∀ text ∈ others, text.toList.head? ≠ some byteOrderMark ∧
      ∃ classification, classify limits text = .ok classification ∧ classification.answer = .complete)
    (fits : byteSize ("\n".intercalate (first :: others)).toList ≤ maxOffset)
    (scanned' : (Lexer.ofText 0 ("\n".intercalate (first :: others)).toList).steps.1 = .ok steps')
    (room : (LexStep.tokens steps').length ≤ limits.maxTokens) :
    (classification.diagnostics.length = 1 →
      RecoversCleanly limits first.toList →
      ∃ later, classify limits ("\n".intercalate (first :: others)) = .ok later ∧ later.answer = .syntaxError ∧
        later.diagnostics.length = 1) ∧
    ∀ number rejected diagnostic, tokenAt steps number = some rejected → classification.diagnostics.head? = some diagnostic →
      diagnostic.span = rejected.span →
      (∀ count, Grammar.skipped 0 ((LexStep.kinds steps).drop number) = some count → number + count = (LexStep.kinds steps).length) →
      classification.diagnostics.length = 1 ∧ RecoversCleanly limits first.toList := by
  have fits' : byteSize first.toList ≤ maxOffset := by
    refine Nat.le_trans ?_ fits
    cases others with
    | nil => simp
    | cons => simp [String.toList_intercalate, List.intercalate, byteSize_append]
  obtain ⟨encoded, same⟩ : Encoded first.toList ∧ classify limits first = classifySource limits first.toList := by
    rcases classify_cases limits first fits' with found | ⟨_, _, _, _, failed, _⟩
    · exact found
    · cases failed.symm.trans answered
  obtain ⟨found, scans⟩ := encoded.scans fits'
  obtain rfl : steps = found := Except.ok.inj (scanned.symm.trans scans.steps_eq)
  rw [same] at answered
  obtain ⟨total, joined⟩ : (LexStep.tokens steps).length ≤ limits.maxTokens ∧ (classification.diagnostics.length = 1 →
      RecoversCleanly limits first.toList → ∃ later, classify limits ("\n".intercalate (first :: others)) = .ok later ∧
        later.answer = .syntaxError ∧ later.diagnostics.length = 1) := by
    cases others with
    | nil =>
      have alone : "\n".intercalate [first] = first := by simp
      rw [alone] at scanned' ⊢
      obtain rfl : steps = steps' := Except.ok.inj (scanned.symm.trans scanned')
      exact ⟨room, fun only _ => ⟨classification, same.trans answered, wrong, only⟩⟩
    | cons second others =>
      obtain ⟨next, later, entries, joined, unmarked, behind, kinds, each⟩ := scans_others first (by simp) complete fits
      have encoded' := encoded.line behind.encoded unmarked
      rcases classify_cases limits _ fits with ⟨-, same'⟩ | ⟨_, _, _, offence, _⟩
      · rw [joined] at fits scanned' same'
        obtain ⟨found, scans'⟩ := encoded'.scans fits
        obtain rfl : steps' = found := Except.ok.inj (scanned'.symm.trans scans'.steps_eq)
        obtain ⟨total, reported⟩ := leaves.lines scans behind unmarked kinds each scans' room answered wrong
        rw [same']
        exact ⟨Nat.le_trans (Nat.le_of_eq (List.length_map _).symm) total, reported⟩
      · exact absurd (joined ▸ encoded') offence.not_encoded
  refine ⟨joined, fun number rejected diagnostic there isHead span apart => ?_⟩
  exact scans.recovers_at_end total (scans.rejects_at answered wrong there isHead span) answered apart

end

/-- An operand too many in the header of a conditional with two statements behind it. -/
theorem recovery_invents_nothing_header : (∃ classification, classify {} "if x y { f() }" = .ok classification ∧
    classification.answer = .syntaxError ∧ classification.diagnostics.length = 1) ∧ ∃ later,
    classify {} ("\n".intercalate ["if x y { f() }", "a := 1", "for { serve() }"]) = .ok later ∧
    later.answer = .syntaxError ∧
      later.diagnostics.length = 1 := by
  obtain ⟨classification, answered, computed⟩ := answered_of_decide
    (show (classify {} "if x y { f() }").toOption.any (fun found => found.answer == .syntaxError &&
      found.diagnostics.head?.any (·.span == Span.ofLength 0 5 1)) = true by decide +kernel)
  simp only [Bool.and_eq_true, beq_iff_eq, Option.any_eq_true] at computed
  obtain ⟨wrong, diagnostic, isHead, span⟩ := computed
  obtain ⟨steps, _, scanned, computed⟩ := Lexer.steps_of_decide
    (show (Lexer.ofText 0 "if x y { f() }".toList).steps.1.toOption.any (fun steps =>
      ((steps.getLast?.bind LexStep.token?).any (isSemicolon ·.kind) && steps.all (· matches .token _)) &&
        ((tokenAt steps 2).any (·.span == Span.ofLength 0 5 1) &&
          Grammar.skipped 0 ((LexStep.kinds steps).drop 2) == none)) =
          true by decide +kernel)
  obtain ⟨steps', _, scanned', room⟩ := Lexer.steps_of_decide
    (show (Lexer.ofText 0
      ("\n".intercalate ["if x y { f() }", "a := 1", "for { serve() }"]).toList).steps.1.toOption.any
      (fun steps => decide ((LexStep.tokens steps).length ≤ ({} : Limits).maxTokens)) = true by decide +kernel)
  have complete : ∀ text ∈ ["a := 1", "for { serve() }"], text.toList.head? ≠ some byteOrderMark ∧
      ∃ classification, classify {} text = .ok classification ∧ classification.answer = .complete := by
    intro text mem
    have computed : ∀ text ∈ ["a := 1", "for { serve() }"], text.toList.head? ≠ some byteOrderMark ∧
        (classify {} text).toOption.any (·.answer == .complete) = true := by decide +kernel
    obtain ⟨unmarked, found⟩ := computed text mem
    obtain ⟨classification, answered, complete⟩ := answered_of_decide found
    exact ⟨unmarked, classification, answered, beq_iff_eq.mp complete⟩
  simp only [Bool.and_eq_true, beq_iff_eq, Option.any_eq_true, Option.bind_eq_some_iff, List.all_eq_true] at computed
  obtain ⟨⟨⟨token, ⟨step, isLast, isToken⟩, ends⟩, all⟩, ⟨rejected, there, span'⟩, skipped⟩ := computed
  have isLast : steps.getLast? = some (.token token) := by
    have plain := all step (List.mem_of_getLast? isLast)
    cases step with
    | token => cases isToken; exact isLast
    | truncated | invalid | incomplete | endOfInput => cases plain
  have invents := recovery_invents_nothing {} "if x y { f() }" ["a := 1", "for { serve() }"] classification
    answered wrong steps steps'
    (congrArg Prod.fst scanned) (.semicolon isLast ends) complete (by decide +kernel)
      (congrArg Prod.fst scanned') (of_decide_eq_true room)
  obtain ⟨one, clean⟩ := invents.2 2 rejected diagnostic there isHead (span.trans span'.symm)
    (fun count found => by cases skipped.symm.trans found)
  exact ⟨⟨classification, answered, wrong, one⟩, invents.1 one clean⟩

example : (classify {} "x 08\na := 1").toOption.any (·.diagnostics.length == 1) = true := by decide +kernel

/-- A separator behind the rejected token may belong to what the token has broken: the loop without the name `y` is
complete, but its second separator is rejected too. -/
theorem recovery_invents_in_header :
    ∃ classification repaired other later, classify {} "for x y; ; {}" = .ok classification ∧
    classification.answer = .syntaxError ∧ classification.diagnostics.head?.map (·.span) = some (Span.ofLength 0 6 1) ∧
    classify {} "for x  ; ; {}" = .ok repaired ∧ repaired.answer = .complete ∧ classify {} "a := 1" = .ok other ∧
    other.answer = .complete ∧ classify {} ("\n".intercalate ["for x y; ; {}", "a := 1"]) = .ok later ∧
    later.diagnostics.length = 2 := by
  obtain ⟨classification, answered, computed⟩ := answered_of_decide
    (show (classify {} "for x y; ; {}").toOption.any (fun found => found.answer == .syntaxError &&
      found.diagnostics.head?.map (·.span) == some (Span.ofLength 0 6 1)) = true by decide +kernel)
  obtain ⟨repaired, answered', complete⟩ := answered_of_decide
    (show (classify {} "for x  ; ; {}").toOption.any (·.answer == .complete) = true by decide +kernel)
  obtain ⟨other, isOther, complete'⟩ := answered_of_decide
    (show (classify {} "a := 1").toOption.any (·.answer == .complete) = true by decide +kernel)
  obtain ⟨later, joined, two⟩ := answered_of_decide
    (show (classify {} ("\n".intercalate ["for x y; ; {}", "a := 1"])).toOption.any
        (·.diagnostics.length == 2) = true by
      decide +kernel)
  simp only [Bool.and_eq_true, beq_iff_eq] at computed complete complete' two
  exact ⟨classification, repaired, other, later, answered, computed.1, computed.2, answered', complete,
    isOther, complete', joined, two⟩

end GoPrompt
