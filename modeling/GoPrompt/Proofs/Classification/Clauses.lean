import GoPrompt.Proofs.Classification.Lines
import GoPrompt.Proofs.Lexical.Lossless
import GoPrompt.Proofs.Runs.Clauses
import Mathlib.Data.List.Basic

/-! The recovery in a text of two lines without brackets. A statement ends in front of the next semicolon there, and
what is rejected on the first line is skipped at most to its end; so the recovery comes to every statement of the second
line, and reports something of it if one of them is broken. -/

namespace GoPrompt

open Parse

def takeTokens : Nat → Parse Unit
  | 0 => pure ()
  | count + 1 => do
    let _ ← onStream TokenStream.next
    takeTokens count

/-- Reads the statement behind so many tokens, if one begins there. -/
def statementBehind (limit number : Nat) : Parse (Option Statement) := do
  takeTokens number
  match ← peek 0 with
  | some _ => some <$> Grammar.topLevelStatement limit
  | none => return none

/-- Whether a statement begins behind so many tokens that cannot be read: the grammar rejects a token of it, or the text
ends within it. -/
def BreaksAt (limits : Limits) (text : List Char) (number : Nat) : Prop :=
  ∃ failure after, statementBehind limits.maxNesting number (.ofText limits text) = .error failure after

instance (limits : Limits) (text : List Char) (number : Nat) : Decidable (BreaksAt limits text number) :=
  match ran : statementBehind limits.maxNesting number (.ofText limits text) with
  | .error failure after => .isTrue ⟨failure, after, ran⟩
  | .ok _ _ => .isFalse fun ⟨_, _, failed⟩ => by cases ran.symm.trans failed

private theorem takeTokens_stands {lexer : Lexer} {steps : List LexStep} {limit number count : Nat} {state : ParseState}
    (lexes : lexer.Lexes steps) (room : (LexStep.kinds steps).length ≤ limit)
    (stands : state.stream.Stands steps limit number) (within : number + count ≤ (LexStep.kinds steps).length) :
    ∃ after, takeTokens count state = .ok () after ∧ after.stream.Stands steps limit (number + count) ∧
      after.depth = state.depth := by
  induction count generalizing number state with
  | zero => exact ⟨state, rfl, stands, rfl⟩
  | succ count ih =>
    have there := lexes.getElem?_kinds number
    rw [List.getElem?_eq_getElem (show number < (LexStep.kinds steps).length by omega)] at there
    rcases stands.next with ⟨full, -⟩ | ⟨missing, -⟩ | ⟨token, stream, -, took, stands'⟩
    · omega
    · rw [show steps[number]?.bind LexStep.token? = none from missing] at there
      cases there
    · obtain ⟨after, ran, reached, depth⟩ := @ih (number + 1) { state with stream := stream } stands' (by omega)
      exact ⟨after, (bind_ok (onStream_ok took)).trans ran, Nat.add_right_comm number 1 count ▸ reached, depth⟩

/-- The broken statement has a first token. -/
theorem BreaksAt.begins {limits : Limits} {text : List Char} {steps : List LexStep} {number : Nat}
    (breaks : BreaksAt limits text number) (scans : Scans text steps)
    (room : (LexStep.kinds steps).length ≤ limits.maxTokens) (within : number ≤ (LexStep.kinds steps).length) :
    number < (LexStep.kinds steps).length ∧
      ∃ state failure after, state.stream.Stands steps limits.maxTokens number ∧ state.depth = 0 ∧
        Grammar.topLevelStatement limits.maxNesting state = .error failure after := by
  obtain ⟨failure, after, ran⟩ := breaks
  obtain ⟨state, took, stands, depth⟩ :=
    @takeTokens_stands _ steps limits.maxTokens 0 number (.ofText limits text) scans.lexes room
    (scans.settled limits).anew (by omega)
  rw [Nat.zero_add] at stands
  rw [statementBehind, bind_ok took] at ran
  have isKind := scans.lexes.getElem?_kinds number
  rcases peek_settled stands with ⟨full, -, token, _, _, there, -⟩ | ⟨looked, found, seen⟩
  · -- A token within the limit can be looked at.
    rw [tokenAt_clearedTo (Nat.le_refl number)] at there
    rw [show steps[number]?.bind LexStep.token? = some token from there] at isKind
    have inside := (List.getElem?_eq_some_iff.mp isKind).1
    omega
  · rw [tokenAt_clearedTo (Nat.le_refl number)] at found seen
    rw [bind_ok found] at ran
    cases there : tokenAt steps number with
    | none =>
      rw [there] at ran
      cases ran
    | some token =>
      rw [there] at ran
      rw [show steps[number]?.bind LexStep.token? = some token from there] at isKind
      refine ⟨(List.getElem?_eq_some_iff.mp isKind).1, looked, ?_⟩
      have failed : (Grammar.topLevelStatement limits.maxNesting >>= fun statement => pure (some statement)) looked =
        .error failure after := ran
      cases read : Grammar.topLevelStatement limits.maxNesting looked with
      | ok =>
        rw [bind_ok read] at failed
        cases failed
      | error =>
        rw [bind_error read] at failed
        exact ⟨_, _, seen.settled, (Grammar.peek_depth found).trans depth, rfl⟩

/-- Whether the diagnostic starts behind all tokens up to the one with the given number. -/
def Diagnostic.IsBehind (steps : List LexStep) (number : Nat) (diagnostic : Diagnostic) : Prop :=
  ∀ place token, place ≤ number → tokenAt steps place = some token → token.span.stop ≤ diagnostic.span.start

/-- A text without brackets that goes on behind the separator with the given number, with a statement that
cannot be read. -/
structure Barrier (limits : Limits) (text : List Char) (steps : List LexStep) (goal : Nat) : Prop where
  scans : Scans text steps
  plain : ∀ kind ∈ LexStep.kinds steps, kind.isPlain = true
  room : (LexStep.tokens steps).length ≤ limits.maxTokens
  separates : ∃ origin, (LexStep.kinds steps)[goal]? = some (.semicolon origin)
  followed : goal + 1 < (LexStep.kinds steps).length
  broken : ∀ state : ParseState, state.stream.Stands steps limits.maxTokens (goal + 1) → state.depth = 0 →
    ∀ statement after, Grammar.topLevelStatement limits.maxNesting state ≠ .ok statement after

namespace Barrier

variable {limits : Limits} {text : List Char} {steps : List LexStep} {goal number : Nat} {parser : Parser}

/-- What a turn of the recovery in front of the barrier comes to: a fault, a place that is still in front of it, or a
diagnostic that starts behind it. -/
inductive Turns (limits : Limits) (text : List Char) (steps : List LexStep) (goal : Nat) :
    Except ParseError Bool × Parser → Prop
  | fault {error : ParseError} {after : Parser} : Turns limits text steps goal (.error error, after)
  | before {place : Nat} {after : Parser} (within : place ≤ goal) (isLimits : after.limits = limits)
      (resumes : after.Resumes text steps place) (keeps : after.Keeps) : Turns limits text steps goal (.ok true, after)
  | behind {result : Except ParseError Bool} {after : Parser} {diagnostic : Diagnostic}
      (reported : diagnostic ∈ after.collector.diagnostics) (further : diagnostic.IsBehind steps goal) :
      Turns limits text steps goal (result, after)

variable (barrier : Barrier limits text steps goal)
include barrier

private theorem exists_token {place : Nat} (within : place ≤ goal + 1) : ∃ token, tokenAt steps place = some token := by
  have there := barrier.scans.lexes.getElem?_kinds place
  rw [List.getElem?_eq_getElem (Nat.lt_of_le_of_lt within barrier.followed)] at there
  obtain ⟨token, isToken, -⟩ := Option.map_eq_some_iff.mp there.symm
  exact ⟨token, isToken⟩

theorem written {place : Nat} {token : Token} (within : place ≤ goal) (there : tokenAt steps place = some token) :
    ¬ token.IsInserted := by
  intro inserted
  obtain ⟨_, isStep, isToken⟩ := tokenAt_eq_some.mp there
  obtain ⟨_, isNext⟩ := barrier.exists_token (Nat.succ_le_succ within)
  obtain ⟨_, isStep', -⟩ := tokenAt_eq_some.mp isNext
  have length := barrier.scans.lexes.inserted_last isStep isToken inserted
  have inside := (List.getElem?_eq_some_iff.mp isStep').1
  omega

theorem lands (inside : number ≤ goal) :
    ∃ count, Grammar.skipped 0 ((LexStep.kinds steps).drop number) = some count ∧ number + count ≤ goal + 1 := by
  obtain ⟨origin, separates⟩ := barrier.separates
  obtain ⟨count, lands, within⟩ := @skipped_plain ((LexStep.kinds steps).drop number) (goal - number) origin
    (fun kind mem => barrier.plain kind (List.mem_of_mem_drop mem))
    (by rw [List.getElem?_drop, show number + (goal - number) = goal by omega]; exact separates)
    (fun earlier before isEnd => by
      rw [List.getElem?_drop, barrier.scans.lexes.getElem?_kinds] at isEnd
      obtain ⟨token, there, inserted⟩ := Option.map_eq_some_iff.mp isEnd
      exact barrier.written (show number + earlier ≤ goal by omega) there inserted)
  exact ⟨count, lands, by omega⟩

theorem read {statement : Statement} {after : ParseState} (resumes : parser.Resumes text steps number)
    (isLimits : parser.limits = limits) (inside : number ≤ goal + 1)
    (ran : Grammar.topLevelStatement limits.maxNesting parser.state = .ok statement after) :
    ∃ place, place ≤ goal ∧ (parser.withState after).Resumes text steps place := by
  subst isLimits
  have before : number ≤ goal := by
    refine Nat.le_of_lt_succ (Nat.lt_of_le_of_ne inside fun reached => ?_)
    rw [reached] at resumes
    exact barrier.broken parser.state resumes.stands resumes.atDepth.same statement after ran
  obtain ⟨place, further, settled, joined⟩ :=
    topLevelStatement_inClause barrier.scans barrier.plain barrier.room resumes.text resumes.atDepth resumes.stands ran
  obtain ⟨origin, separates⟩ := barrier.separates
  refine ⟨place, ?_, resumes.read ran (settled.stands further)⟩
  exact Nat.le_of_not_lt fun behind => Bool.noConfusion (joined goal before behind _ separates)

/-- A statement that is not read is given up in front of the barrier, or something is reported behind it. -/
theorem failed {failure : Failure} {after : ParseState} (resumes : parser.Resumes text steps number)
    (isLimits : parser.limits = limits) (keeps : parser.Keeps)
    (free : parser.collector.diagnostics.length < parser.limits.maxDiagnostics)
    (ran : Grammar.topLevelStatement limits.maxNesting parser.state = .error failure after) :
    Turns limits text steps goal (parser.resumed (.error failure after)) := by
  subst isLimits
  have ends := topLevelStatement_ends parser.limits.maxNesting resumes.stands
  have balanced := (kept_atDepth 0).topLevelStatement parser.limits.maxNesting resumes.atDepth
  rw [ran] at ends balanced
  obtain ⟨onward, ends⟩ := ends
  have same : (parser.withState after).text = text := onward.text.trans resumes.text
  have reported := fun error => (keeps.withState after).mem_report free error
  have further := onward.consumed
  cases ends with
  | budget spent =>
    rw [Parser.resumed, if_pos spent.isBudget.isFault]
    exact .fault
  | @blamed place token error _ seen written blames =>
    rw [resumes.stands.consumed, seen.consumed] at further
    have isNext := seen.isNext
    rw [tokenAt_clearedTo further] at isNext
    rw [Parser.resumed, if_neg (Bool.eq_false_iff.mp blames.not_isFault)]
    rcases Nat.lt_or_ge goal place with behind | before
    · refine .behind (reported error) fun earlier other before isOther => ?_
      rw [(barrier.scans.diagnosis_token same isNext blames.1).1]
      exact barrier.scans.ordered (by omega) isOther isNext
    · have turned := (keeps.withState after).report free error
      exact .before before turned.limits ⟨same, ⟨balanced.reached.atDepth 0, rfl⟩, seen.settled.stands further⟩
        (turned.keeps.withState _)
  | @wanted place token error _ seen inserted _ asks =>
    rw [resumes.stands.consumed, seen.consumed] at further
    have isNext := seen.isNext
    rw [tokenAt_clearedTo further] at isNext
    have behind : goal < place := by
      refine Nat.lt_of_not_le fun before => ?_
      obtain ⟨other, isThere⟩ := barrier.exists_token (Nat.le_succ_of_le before)
      exact barrier.written before isThere (inserted other (isNext.symm.trans isThere))
    refine .behind (reported error) fun earlier other before isOther => ?_
    exact (barrier.scans.diagnosis_asked same isNext asks).2.2 earlier other (by omega) isOther

theorem turn (isLimits : parser.limits = limits) (resumes : parser.Resumes text steps number) (inside : number ≤ goal)
    (keeps : parser.Keeps) (ready : parser.isDone = false) : Turns limits text steps goal parser.recoverOnce := by
  obtain ⟨count, lands, within⟩ := barrier.lands inside
  obtain ⟨found, there⟩ := barrier.exists_token within
  have turned := Parser.recoverOnce_lands barrier.scans resumes (isLimits ▸ barrier.room) lands
  rw [there, isLimits] at turned
  obtain ⟨state, turned, resumes'⟩ := turned
  rw [turned]
  cases ran : Grammar.topLevelStatement limits.maxNesting state with
  | ok statement after =>
    obtain ⟨place, before, resumes''⟩ := barrier.read resumes' isLimits within ran
    exact .before before isLimits resumes'' (keeps.withState after)
  | error failure after =>
    rw [keeps.isDone] at ready
    have turns := barrier.failed resumes' isLimits (keeps.withState state)
      (Nat.lt_of_not_le (of_decide_eq_false ready)) ran
    exact turns

/-- The recovery in front of a barrier uses up the budget of diagnostics, or it reports something behind the barrier. -/
theorem reports {parser : Parser} {number : Nat} (isLimits : parser.limits = limits)
    (resumes : parser.Resumes text steps number) (inside : number ≤ goal) (keeps : parser.Keeps)
    (clean : parser.recoverLoop.1 = .ok ()) :
    limits.maxDiagnostics ≤ parser.recoverLoop.2.collector.diagnostics.length ∨
      ∃ diagnostic ∈ parser.recoverLoop.2.collector.diagnostics, diagnostic.IsBehind steps goal := by
  cases ready : parser.isDone with
  | true =>
    have full := ready
    rw [keeps.isDone, isLimits] at full
    rw [Parser.recoverLoop_done ready]
    exact .inl (of_decide_eq_true full)
  | false =>
    have turns := barrier.turn isLimits resumes inside keeps ready
    have extends' := Parser.recoverOnce_extended ready
    rcases turned : parser.recoverOnce with ⟨result, after⟩
    rw [turned] at turns extends'
    cases turns with
    | fault =>
      rw [Parser.recoverLoop_fault ready turned] at clean
      cases clean
    | before within isLimits' resumes' keeps' =>
      obtain ⟨progress, same⟩ := Parser.recoverLoop_again ready turned clean
      rw [same] at clean ⊢
      exact reports isLimits' resumes' within keeps' clean
    | @behind _ _ diagnostic reported further =>
      obtain ⟨more, extended⟩ := extends'
      exact .inr ⟨diagnostic, extended ▸ List.mem_append_left _ reported, further⟩
termination_by parser.state.remaining

end Barrier

/-- In a text of two lines, what starts up to the end of the first one is on it, and the rest is on the second one. -/
theorem Diagnostic.IsLocated.line {first second : List Char} {diagnostic : Diagnostic}
    (located : diagnostic.IsLocated (first ++ '\n' :: second)) (alone : '\n' ∉ first) (alone' : '\n' ∉ second) :
    diagnostic.position.line = if diagnostic.span.start ≤ byteSize first then 1 else 2 := by
  obtain ⟨before, after, splits, start, position⟩ := located
  rw [start, position, Position.clamped, Position.behind]
  have none : first.count '\n' = 0 := List.count_eq_zero.mpr alone
  rcases List.append_eq_append_iff.mp splits with ⟨rest, rfl, later⟩ | ⟨rest, rfl, -⟩
  · cases rest with
    | nil => rw [List.append_nil, none, if_pos (Nat.le_refl _)]; rfl
    | cons c rest =>
      obtain ⟨rfl, rfl⟩ := List.cons.inj later
      have none' : rest.count '\n' = 0 := List.count_eq_zero.mpr fun mem => alone' (List.mem_append_left _ mem)
      have positive := byteSize_pos (List.cons_ne_nil '\n' rest)
      rw [List.count_append, List.count_cons_self, none, none', byteSize_append, if_neg (by omega)]
      rfl
  · have none' : before.count '\n' = 0 := List.count_eq_zero.mpr fun mem => alone (List.mem_append_left _ mem)
    rw [none', byteSize_append, if_pos (Nat.le_add_right _ _)]
    rfl

section

variable {limits : Limits} {first second : List Char} {steps steps' : List LexStep} {token : Token}

/-- Two texts without brackets, the first of which ends a line, one below the other. -/
theorem Scans.continues (scans : Scans first steps) (scans' : Scans second steps')
    (isLast : steps.getLast? = some (.token token)) (ends : isSemicolon token.kind = true)
    (unmarked : second.head? ≠ some byteOrderMark) (fits : byteSize (first ++ '\n' :: second) ≤ maxOffset)
    (room : (LexStep.tokens steps).length + (LexStep.tokens steps').length ≤ limits.maxTokens) :
    ∃ joined inner, Continues limits first (first ++ '\n' :: second) steps joined inner token.kind
      (LexStep.kinds steps') := by
  obtain ⟨inner, endsLine⟩ := scans.lexes.endsLine isLast ends
  obtain ⟨joined, scans'', kinds⟩ := scans.nextLine scans' unmarked fits endsLine.uncut
  refine ⟨joined, inner, endsLine, scans, scans'', kinds, ?_⟩
  have size := congrArg List.length kinds
  simp only [LexStep.kinds, List.length_map, List.length_append] at size
  omega

/-- What the longer text has for the last token of the shorter one. -/
theorem Continues.atLast {joined : List Char} {inner behind : List TokenKind} {last : TokenKind}
    (continues : Continues limits first joined steps steps' inner last behind) :
    (LexStep.kinds steps')[inner.length]? = some last.onLine := by
  rw [continues.joins, continues.kinds, List.map_append, List.append_assoc,
    List.getElem?_append_right (Nat.le_of_eq (List.length_map _)), List.length_map, Nat.sub_self]
  rfl

/-- The semicolon inserted at the newline starts on the first line and ends behind it. -/
theorem Continues.newline {inner behind : List TokenKind}
    (continues : Continues limits first (first ++ '\n' :: second) steps steps' inner (.semicolon .endOfInput) behind)
    (alone : '\n' ∉ first) (alone' : '\n' ∉ second) : ∃ newline, tokenAt steps' inner.length = some newline ∧
      newline.span.start ≤ byteSize first ∧ byteSize first < newline.span.stop := by
  have isKind : (LexStep.kinds steps')[inner.length]? = some (.semicolon .newline) := continues.atLast
  rw [continues.scans'.lexes.getElem?_kinds] at isKind
  obtain ⟨newline, there, kind⟩ := Option.map_eq_some_iff.mp isKind
  obtain ⟨step, isStep, isToken⟩ := Option.bind_eq_some_iff.mp there
  obtain ⟨_, collected⟩ := continues.scans'.collected
  obtain ⟨before, chars, after, splits, mem, span⟩ :=
    Lexer.newline_of_steps collected (List.mem_of_getElem? isStep) isToken kind
  obtain ⟨front, rest, rfl⟩ := List.append_of_mem mem
  -- The text has no other newline.
  have same : first = before ++ front := by
    rw [← List.append_assoc, List.append_assoc (before ++ front), List.cons_append] at splits
    exact ((List.append_cons_inj_of_notMem alone alone').mp splits).1
  refine ⟨newline, there, ?_, ?_⟩
  · rw [span, same]
    show byteSize before ≤ _
    rw [byteSize_append]
    exact Nat.le_add_right _ _
  · have positive := byteSize_pos (List.cons_ne_nil '\n' rest)
    rw [span, same, byteSize_append]
    show _ < byteSize before + byteSize (front ++ '\n' :: rest)
    rw [byteSize_append]
    omega

/-- A broken statement of the second text is the one behind a separator of both. -/
private theorem Continues.barrier {joined : List Char} {both : List LexStep} {inner : List TokenKind} {number : Nat}
    (continues : Continues limits first joined steps both inner (.semicolon .endOfInput) (LexStep.kinds steps'))
    (scans' : Scans second steps')
    (plain : ∀ kind ∈ LexStep.kinds steps ++ LexStep.kinds steps', kind.isPlain = true)
    (begins : ∀ earlier, number = earlier + 1 → (LexStep.kinds steps')[earlier]? = some (.semicolon .explicit))
    (breaks : BreaksAt limits second number) : Barrier limits joined both (inner.length + number) := by
  have joins := continues.joins
  have length := continues.length
  have size : (LexStep.kinds both).length = inner.length + 1 + (LexStep.kinds steps').length := by
    rw [joins, List.length_append, List.length_map, length]
  have room : (LexStep.kinds both).length ≤ limits.maxTokens :=
    Nat.le_trans (Nat.le_of_eq (List.length_map _)) continues.room
  have within : number ≤ (LexStep.kinds steps').length := by
    cases number with
    | zero => exact Nat.zero_le _
    | succ earlier => exact (List.getElem?_eq_some_iff.mp (begins earlier rfl)).1
  obtain ⟨less, alone, _, _, stands', shallow', failed⟩ := breaks.begins scans' (by omega) within
  exact
    { scans := continues.scans'
      plain := fun kind mem => by
        rw [joins] at mem
        rcases List.mem_append.mp mem with before | behind
        · obtain ⟨other, isOther, rfl⟩ := List.mem_map.mp before
          exact TokenKind.isPlain_onLine (plain other (List.mem_append_left _ isOther))
        · exact plain kind (List.mem_append_right _ behind)
      room := continues.room
      separates := by
        cases number with
        | zero => exact ⟨.newline, continues.atLast⟩
        | succ earlier =>
          refine ⟨.explicit, ?_⟩
          rw [joins, List.getElem?_append_right (by rw [List.length_map]; omega), List.length_map, length,
            show inner.length + (earlier + 1) - (inner.length + 1) = earlier by omega]
          exact begins earlier rfl
      followed := by omega
      broken := fun state stands shallow statement after => by
        have front : ((LexStep.kinds steps).map TokenKind.onLine).length = inner.length + 1 := by
          rw [List.length_map, length]
        rw [show inner.length + number + 1 = number + (inner.length + 1) by omega, ← front] at stands
        exact topLevelStatement_fails scans'.lexes continues.scans'.lexes joins room stands' shallow'
          stands shallow failed statement
          after }

/-- Behind a rejected text of one line, a broken statement on the line behind it is reported as well. -/
theorem Continues.reported {both : List LexStep} {inner behind : List TokenKind} {number : Nat} {classification : Classification}
    (continues : Continues limits.forClassification first (first ++ '\n' :: second) steps both inner (.semicolon .endOfInput) behind)
    (barrier : Barrier limits.forClassification (first ++ '\n' :: second) both (inner.length + number)) (alone : '\n' ∉ first)
    (alone' : '\n' ∉ second) (answered : classifySource limits first = .ok classification)
    (wrong : classification.answer = .syntaxError) (clean : RecoversCleanly limits (first ++ '\n' :: second)) :
    ∃ later, classifySource limits (first ++ '\n' :: second) = .ok later ∧ later.answer = .syntaxError ∧
      (∃ diagnostic ∈ later.diagnostics, diagnostic.position.line = 1) ∧
      ((later.diagnostics.countP fun diagnostic => diagnostic.position.line = 1) < limits.maxDiagnostics →
        ∃ diagnostic ∈ later.diagnostics, diagnostic.position.line = 2) := by
  obtain ⟨newline, isNewline, starts, stops⟩ := continues.newline alone alone'
  obtain ⟨place, token, rejects⟩ := continues.scans.rejects answered wrong
  obtain ⟨inside, agree⟩ := continues.agree rejects.isNext rejects.1
  obtain ⟨other, rejects'⟩ := rejects.transfer continues.scans continues.scans' agree
  obtain ⟨later, primary, -, answered', wrong', isHead, span, -⟩ := rejects'.answer
  obtain ⟨inOrder, -⟩ := continues.scans'.explains answered'
  have line := fun diagnostic mem => (inOrder.located diagnostic mem).line alone alone'
  have isPrimary := List.mem_of_mem_head? isHead
  refine ⟨later, answered', wrong', ⟨primary, isPrimary, ?_⟩, fun room => ?_⟩
  · -- The rejected token comes in front of the newline.
    have before : place < inner.length := by
      refine Nat.lt_of_le_of_ne inside fun atEnd => rejects.1 ?_
      have isKind := continues.scans.lexes.getElem?_kinds place
      rw [show steps[place]?.bind LexStep.token? = some token from rejects.isNext, continues.kinds, atEnd,
        List.getElem?_concat_length] at isKind
      exact (Option.some.inj isKind).symm
    have ordered := continues.scans'.ordered before rejects'.isNext isNewline
    rw [line primary isPrimary, if_pos]
    rw [span]
    exact Nat.le_trans (Nat.le_trans other.span.ordered ordered) starts
  · obtain ⟨report, parser, -, -, parsed, -, -, keeps, isLimits, resumes, isAll⟩ := rejects'.parsed
    have ended := Parser.recover_clean.mp (clean report parser parsed)
    have found := barrier.reports (show parser.resetDepth.limits = _ from isLimits) resumes (by omega)
      (keeps.withState _) ended
    rw [← isAll later answered'] at found
    rcases found with full | ⟨diagnostic, mem, behind⟩
    · -- The first line cannot account for all of them.
      refine Classical.byContradiction fun none => ?_
      have all : later.diagnostics.countP (fun diagnostic => diagnostic.position.line = 1) =
          later.diagnostics.length := by
        refine List.countP_eq_length.mpr fun diagnostic mem => decide_eq_true ?_
        have isLine := line diagnostic mem
        split at isLine
        next => exact isLine
        next => exact absurd ⟨diagnostic, mem, isLine⟩ none
      have least : limits.maxDiagnostics ≤ limits.forClassification.maxDiagnostics := Nat.le_max_left _ _
      rw [all] at room
      omega
    · have further := behind inner.length newline (Nat.le_add_right _ _) isNewline
      exact ⟨diagnostic, mem, by rw [line diagnostic mem, if_neg (by omega)]⟩

end

/-- Recovery reports a broken statement behind a broken one. If both of two texts without brackets and newlines are
syntax errors, and a newline behind the first one ends a statement, then the texts joined by a newline are a syntax
error with a diagnostic on the first line. There is one on the second line, too, if a statement that begins the second
text or comes behind one of its semicolons cannot be read, be it that a token of it is rejected or that the text ends
within it, unless the diagnostics on the first line use up their budget. -/
theorem recovery_reports_lines (limits : Limits) (first second : String) (steps steps' : List LexStep) (token : Token) (number : Nat)
    (wrong : ∀ text ∈ [first, second], ∃ classification, classify limits text = .ok classification ∧
      classification.answer = .syntaxError)
    (scanned : (Lexer.ofText 0 first.toList).steps.1 = .ok steps) (scanned' : (Lexer.ofText 0 second.toList).steps.1 = .ok steps')
    (isLast : steps.getLast? = some (.token token)) (inserted : token.IsInserted)
    (plain : ∀ kind ∈ LexStep.kinds steps ++ LexStep.kinds steps', kind.isPlain = true)
    (alone : '\n' ∉ first.toList) (alone' : '\n' ∉ second.toList) (unmarked : second.toList.head? ≠ some byteOrderMark)
    (begins : ∀ earlier, number = earlier + 1 → (LexStep.kinds steps')[earlier]? = some (.semicolon .explicit))
    (broken : BreaksAt limits.forClassification second.toList number)
    (fits : byteSize (first ++ "\n" ++ second).toList ≤ maxOffset)
    (room : (LexStep.tokens steps).length + (LexStep.tokens steps').length ≤ limits.maxTokens)
    (clean : RecoversCleanly limits (first ++ "\n" ++ second).toList) :
    ∃ classification, classify limits (first ++ "\n" ++ second) = .ok classification ∧ classification.answer = .syntaxError ∧
      (∃ diagnostic ∈ classification.diagnostics, diagnostic.position.line = 1) ∧
      ((classification.diagnostics.countP fun diagnostic => diagnostic.position.line = 1) < limits.maxDiagnostics →
        ∃ diagnostic ∈ classification.diagnostics, diagnostic.position.line = 2) := by
  have joined : (first ++ "\n" ++ second).toList = first.toList ++ '\n' :: second.toList := by
    simp [String.toList_append]
  have size := congrArg byteSize joined
  rw [byteSize_append, byteSize_cons] at size
  have source : ∀ text ∈ [first, second], byteSize text.toList ≤ maxOffset → Encoded text.toList ∧
      ∃ classification, classifySource limits text.toList = .ok classification ∧
        classification.answer = .syntaxError := by
    intro text mem fits
    obtain ⟨classification, answered, wrong⟩ := wrong text mem
    rcases classify_cases limits text fits with ⟨encoded, same⟩ | ⟨_, _, _, _, failed, _⟩
    · exact ⟨encoded, classification, same.symm.trans answered, wrong⟩
    · cases failed.symm.trans answered
  obtain ⟨encoded, classification, answered, wrong⟩ := source first List.mem_cons_self (by omega)
  obtain ⟨encoded', -⟩ := source second (List.mem_cons_of_mem _ List.mem_cons_self) (by omega)
  obtain ⟨found, scans⟩ := encoded.scans (by omega)
  obtain ⟨found', scans'⟩ := encoded'.scans (by omega)
  obtain rfl : steps = found := Except.ok.inj (scanned.symm.trans scans.steps_eq)
  obtain rfl : steps' = found' := Except.ok.inj (scanned'.symm.trans scans'.steps_eq)
  rw [joined] at fits clean
  obtain ⟨both, inner, continues⟩ : ∃ both inner, Continues limits.forClassification first.toList
      (first.toList ++ '\n' :: second.toList) steps both inner token.kind (LexStep.kinds steps') :=
    scans.continues scans' isLast (by rw [inserted]; rfl) unmarked fits room
  rw [inserted] at continues
  obtain ⟨later, answered', reported⟩ :=
    continues.reported (continues.barrier scans' plain begins broken) alone alone' answered wrong clean
  rcases classify_cases limits (first ++ "\n" ++ second) (by rw [joined]; exact fits) with
    ⟨-, same⟩ | ⟨_, _, _, offence, _⟩
  · exact ⟨later, same.trans (by rw [joined]; exact answered'), reported⟩
  · rw [joined] at offence
    exact absurd continues.scans'.encoded offence.not_encoded

/-- A broken statement behind one that is read. -/
theorem recovery_reports_lines_clause : BreaksAt ({} : Limits).forClassification "u; + *".toList 2 ∧
    RecoversCleanly {} ("x y" ++ "\n" ++ "u; + *").toList ∧
    ∃ classification, classify {} ("x y" ++ "\n" ++ "u; + *") = .ok classification ∧
    classification.answer = .syntaxError ∧
      (∃ diagnostic ∈ classification.diagnostics, diagnostic.position.line = 1) ∧
      ((classification.diagnostics.countP fun diagnostic => diagnostic.position.line = 1) <
        ({} : Limits).maxDiagnostics →
        ∃ diagnostic ∈ classification.diagnostics, diagnostic.position.line = 2) := by
  have wrong : ∀ text ∈ ["x y", "u; + *"], ∃ classification, classify {} text = .ok classification ∧
      classification.answer = .syntaxError := by
    intro text mem
    have computed : ∀ text ∈ ["x y", "u; + *"], (classify {} text).toOption.any (·.answer == .syntaxError) = true := by
      decide +kernel
    obtain ⟨classification, answered, wrong⟩ := answered_of_decide (computed text mem)
    exact ⟨classification, answered, beq_iff_eq.mp wrong⟩
  have broken : BreaksAt ({} : Limits).forClassification "u; + *".toList 2 := by decide +kernel
  have clean : RecoversCleanly {} ("x y" ++ "\n" ++ "u; + *").toList := by decide +kernel
  obtain ⟨steps, _, scanned, computed⟩ := Lexer.steps_of_decide
    (show (Lexer.ofText 0 "x y".toList).steps.1.toOption.any (fun steps =>
      LexStep.kinds steps == [.identifier, .identifier, .semicolon .endOfInput] &&
        ((steps.getLast?.bind LexStep.token?).any (·.kind == .semicolon .endOfInput) &&
            steps.all (· matches .token _))) = true by
          decide +kernel)
  obtain ⟨steps', _, scanned', kinds'⟩ := Lexer.steps_of_decide
    (show (Lexer.ofText 0 "u; + *".toList).steps.1.toOption.any
      (fun steps => LexStep.kinds steps == [.identifier, .semicolon .explicit, .operator .add, .operator .mul]) =
      true by decide +kernel)
  simp only [Bool.and_eq_true, beq_iff_eq, Option.any_eq_true, Option.bind_eq_some_iff,
    List.all_eq_true] at computed kinds'
  obtain ⟨kinds, ⟨token, ⟨step, isLast, isToken⟩, inserted⟩, all⟩ := computed
  have isLast : steps.getLast? = some (.token token) := by
    have plain := all step (List.mem_of_getLast? isLast)
    cases step with
    | token => cases isToken; exact isLast
    | truncated | invalid | incomplete | endOfInput => cases plain
  have size : (LexStep.kinds steps).length = 3 ∧ (LexStep.kinds steps').length = 4 := by
    rw [kinds, kinds']
    exact ⟨rfl, rfl⟩
  rw [LexStep.kinds, LexStep.kinds, List.length_map, List.length_map] at size
  refine ⟨broken, clean, recovery_reports_lines {} "x y" "u; + *" steps steps' token 2 wrong (congrArg Prod.fst scanned)
    (congrArg Prod.fst scanned') isLast inserted ?_ (by decide) (by decide) (by decide) ?_ broken (by decide) ?_ clean⟩
  · rw [kinds, kinds']
    decide
  · rintro earlier same
    cases same
    rw [kinds']
    rfl
  · rw [size.1, size.2]
    decide

example : BreaksAt ({} : Limits).forClassification "u; x +".toList 2 := by decide +kernel

/-- Two rejected texts may be joined to a text without a diagnostic on its second line: the statements of `u; v` are
read one by one, nothing is asked of what comes behind the first literal of `3 4`, the budget may be used up, and a
byte-order mark starts no line but the first. -/
theorem recovery_misses_line :
    (∀ text ∈ ["x y", "u; v", "3 4", "x y; +; z", "+ *", "\uFEFF+ *"],
      (classify {} text).toOption.map (·.answer) = some .syntaxError) ∧
      (classify {} ("x y" ++ "\n" ++ "u; v")).toOption.map (·.diagnostics.map (·.position.line)) = some [1] ∧
      (classify {} ("3 4" ++ "\n" ++ "3 4")).toOption.map (·.diagnostics.map (·.position.line)) = some [1] ∧
      (classify { maxDiagnostics := 2 } ("x y; +; z" ++ "\n" ++ "+ *")).toOption.map
        (·.diagnostics.map (·.position.line)) =
        some [1, 1] ∧
      (classify {} ("x y" ++ "\n" ++ "\uFEFF+ *")).toOption.isNone = true := by
  decide +kernel

end GoPrompt
