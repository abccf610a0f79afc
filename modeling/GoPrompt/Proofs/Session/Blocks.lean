import GoPrompt.Proofs.Classification.Emptiness
import GoPrompt.Proofs.Session.Lines
import Mathlib.Data.List.TakeWhile

/-! The lines of a session fall into blocks: every line ends in the source of one event, in the buffer, or in a
block that holds no token. Nothing is lost, and nothing is taken twice.

Lines that are joined with newlines are taken apart again: by the history, which takes a text at every newline,
and by the prompt, which reads a text line by line and drops a carriage return in front of a newline. -/

namespace GoPrompt

def ReplEvent.source? : ReplEvent → Option String
  | .evaluated source _ _ | .syntaxError source _ | .fault source _ => some source
  | .needMoreInput _ | .unfinished _ | .message _ | .exit => none

/-- The lines as one text. -/
def joined (lines : List String) : String := String.intercalate "\n" lines

theorem joined_singleton (line : String) : joined [line] = line := by simp [joined]

theorem joined_append {opened : List String} (nonempty : opened ≠ []) (line : String) :
    joined (opened ++ [line]) = joined opened ++ "\n" ++ line := by
  induction opened with
  | nil => exact absurd rfl nonempty
  | cons first rest ih =>
    cases rest with
    | nil => simp [joined, String.intercalate_cons_of_ne_nil]
    | cons second rest =>
      have later := ih (List.cons_ne_nil second rest)
      unfold joined at later ⊢
      rw [List.cons_append, String.intercalate_cons_of_ne_nil (by simp), later,
        String.intercalate_cons_of_ne_nil (List.cons_ne_nil second rest)]
      simp only [String.append_assoc]

/-- Lines that follow each other, and the event with their text as its source, if there is one. -/
structure Block where
  lines : List String
  event : Option ReplEvent

namespace Block

/-- Whether a block has no event because it is a blank line or has no token, and the right event otherwise. -/
structure Closed (block : Block) : Prop where
  nonempty : block.lines ≠ []
  judged : ∀ event, block.event = some event → event.source? = some (joined block.lines)
  ignored : block.event = none →
    (∃ line, block.lines = [line] ∧ (Text.trim line.toList).isEmpty = true) ∨ IsTokenFree (joined block.lines).toList

end Block

def judgements (events : List ReplEvent) : List ReplEvent := events.filter (·.source?.isSome)

namespace Repl

variable {σ : Type}

/-- The buffer holds the given lines. -/
structure Holds (repl : Repl σ) (opened : List String) : Prop where
  buffer : repl.buffer = joined opened
  fresh : opened = [] ↔ repl.buffer = ""

theorem Holds.extended {repl : Repl σ} {opened : List String} (holds : repl.Holds opened) (line : String) :
    repl.extended line = joined (opened ++ [line]) := by
  unfold Repl.extended
  cases opened with
  | nil =>
    rw [(repl.isContinuing_eq_false).mpr (holds.fresh.mp rfl)]
    exact (joined_singleton line).symm
  | cons first rest =>
    have continuing : repl.isContinuing = true := by
      rw [← Bool.not_eq_false, repl.isContinuing_eq_false, ← holds.fresh]
      exact nofun
    rw [if_pos continuing, holds.buffer, joined_append (List.cons_ne_nil first rest)]

/-- What one line does to the lines that are held: it closes a block with all of them, or is held itself. -/
theorem Holds.accepts {repl after : Repl σ} {opened : List String} (holds : repl.Holds opened) {line : String}
    {event : Option ReplEvent} (accepts : repl.Accepts line event after) :
    ∃ blocks : List Block, ∃ left, blocks.flatMap (·.lines) ++ left = opened ++ [line] ∧
    (∀ block ∈ blocks, block.Closed) ∧
      blocks.filterMap (·.event) = judgements event.toList ∧ after.Holds left := by
  have held := holds.extended line
  have nonempty : opened ++ [line] ≠ [] := by simp
  -- A block of all the lines that are there.
  have closes : ∀ event : Option ReplEvent,
    (∀ found, event = some found → found.source? = some (joined (opened ++ [line]))) →
      (event = none → IsTokenFree (joined (opened ++ [line])).toList) → after.buffer = "" →
      ∃ blocks : List Block, ∃ left, blocks.flatMap (·.lines) ++ left = opened ++ [line] ∧
        (∀ block ∈ blocks, block.Closed) ∧
        blocks.filterMap (·.event) = judgements event.toList ∧ after.Holds left := by
    intro event judged ignored fresh
    refine ⟨[⟨opened ++ [line], event⟩], [], by simp, ?_, ?_, ⟨fresh, by simp [fresh]⟩⟩
    · intro block mem
      obtain rfl := List.mem_singleton.mp mem
      exact ⟨nonempty, judged, fun none => .inr (ignored none)⟩
    · cases event with
      | none => rfl
      | some found => simp [judgements, judged found rfl]
  cases accepts with
  | skipped blank =>
    obtain ⟨fresh, blank⟩ : repl.buffer = "" ∧ (Text.trim line.toList).isEmpty = true := by
      simpa [Takes, ← repl.isContinuing_eq_false] using blank
    obtain rfl := holds.fresh.mpr fresh
    refine ⟨[⟨[line], none⟩], [], rfl, ?_, rfl, holds⟩
    intro block mem
    obtain rfl := List.mem_singleton.mp mem
    exact ⟨List.cons_ne_nil line [], fun _ judged => (by cases judged), fun _ => .inl ⟨line, rfl, blank⟩⟩
  | dropped takes classified wanting empty =>
    refine closes none (fun _ isFound => by cases isFound) (fun _ => ?_) rfl
    rw [← held]
    exact isTokenFree_of_emptyInput classified empty
  | waiting takes classified wanting begun =>
    refine ⟨[], opened ++ [line], rfl, by simp, rfl, held, ?_⟩
    exact ⟨fun none => absurd none nonempty, fun fresh => absurd fresh takes.extended_ne_empty⟩
  | rejected takes classified wrong =>
    refine closes _ (fun found isFound => ?_) (fun none => by cases none) rfl
    cases isFound
    exact congrArg some held
  | unclassified takes failed =>
    refine closes _ (fun found isFound => ?_) (fun none => by cases none) rfl
    cases isFound
    exact congrArg some held
  | evaluated takes classified complete =>
    refine closes _ (fun found isFound => ?_) (fun none => by cases none) rfl
    cases isFound
    exact congrArg some held

/-- Of calls that are source text, the first one feeds its line, and the others are source text behind it. -/
theorem handleLine_source_cons {repl : Repl σ} {call : Call} {rest : List Call}
    (source : ∀ before next after, call :: rest = before ++ next :: after →
      (repl.behind before).command? next = none) :
    repl.handleLine call.environment call.line =
        (.ok (repl.acceptLine call.line).1.toList, (repl.acceptLine call.line).2) ∧
      ∀ before next after, rest = before ++ next :: after →
        ((repl.acceptLine call.line).2.behind before).command? next = none := by
  have noCommand : repl.command? call = none := source [] call rest rfl
  have handled := handleLine_source noCommand
  refine ⟨handled, fun before next after splits => ?_⟩
  have later := source (call :: before) next after (by rw [splits]; rfl)
  rwa [behind_cons, handled] at later

/-- What source text does to the lines that are held. -/
theorem Holds.handleCalls {repl : Repl σ} {opened : List String} (holds : repl.Holds opened) (calls : List Call)
    (source : ∀ before call after, calls = before ++ call :: after → (repl.behind before).command? call = none) :
    ∃ (blocks : List Block) (left : List String) (answers : List (List ReplEvent)),
      blocks.flatMap (·.lines) ++ left = opened ++ calls.map (·.line) ∧ (∀ block ∈ blocks, block.Closed) ∧
      (repl.handleCalls calls).1 = answers.map .ok ∧ blocks.filterMap (·.event) = judgements answers.flatten ∧
      (repl.behind calls).Holds left := by
  induction calls generalizing repl opened with
  | nil => exact ⟨[], opened, [], by simp, by simp, rfl, rfl, holds⟩
  | cons call rest ih =>
    obtain ⟨handled, sources⟩ := handleLine_source_cons source
    have accepts := repl.acceptLine_accepts call.line
    generalize repl.acceptLine call.line = accepted at handled accepts sources
    obtain ⟨event, after⟩ := accepted
    obtain ⟨blocks, left, lines, closed, events, holds'⟩ := holds.accepts accepts
    obtain ⟨blocks', left', answers, lines', closed', answered, events', holds''⟩ := ih holds' sources
    refine ⟨blocks ++ blocks', left', event.toList :: answers, ?_, ?_, ?_, ?_, ?_⟩
    · rw [List.flatMap_append, List.append_assoc, lines', ← List.append_assoc, lines, List.map_cons, List.append_assoc]
      rfl
    · intro block mem
      exact (List.mem_append.mp mem).elim (closed block) (closed' block)
    · simp only [Repl.handleCalls, handled, answered, List.map_cons]
    · rw [List.filterMap_append, events, events', judgements, judgements, judgements,
        List.flatten_cons, List.filter_append]
    · rw [behind_cons, handled]
      exact holds''

/-- The lines of source text that reach a session at a fresh prompt fall into blocks, one behind the other, and perhaps
lines that are still open. Every block is the source of one event, and every event that judges a text belongs to one
block, in this order; a block without an event is a blank line, or has no token. The lines that are still open are in
the buffer. Where a text reaches beyond the last offset, `LexFault.stalled` stands for a scan that never returns
(`scan_progress`): it is the fault of an event, or ends the search of `Parser.explain` for further problems. -/
theorem lines_kept (repl : Repl σ) (fresh : repl.buffer = "") (calls : List Call)
    (source : ∀ before call after, calls = before ++ call :: after → (repl.behind before).command? call = none) :
    ∃ (blocks : List Block) (left : List String) (answers : List (List ReplEvent)),
      blocks.flatMap (·.lines) ++ left = calls.map (·.line) ∧
      (∀ block ∈ blocks, block.lines ≠ [] ∧ match block.event with
        | some event => event.source? = some (joined block.lines)
        | none => (∃ line, block.lines = [line] ∧ (Text.trim line.toList).isEmpty = true) ∨
          IsTokenFree (joined block.lines).toList) ∧
      (repl.handleCalls calls).1 = answers.map .ok ∧ blocks.filterMap (·.event) = judgements answers.flatten ∧
      (repl.behind calls).buffer = joined left ∧ (left = [] ↔ (repl.behind calls).buffer = "") := by
  have holds : repl.Holds [] := ⟨fresh, by simp [fresh]⟩
  obtain ⟨blocks, left, answers, lines, closed, answered, events, holds'⟩ := holds.handleCalls calls source
  refine ⟨blocks, left, answers, lines, fun block mem => ⟨(closed block mem).nonempty, ?_⟩, answered, events,
    holds'.buffer, holds'.fresh⟩
  cases judges : block.event with
  | some event => exact (closed block mem).judged event judges
  | none => exact (closed block mem).ignored judges

def Call.ofLine (line : String) : Call := ⟨⟨none, (⟨[]⟩ : FileTree).read⟩, line⟩

/-- A comment that is closed on its second line holds no token, and a call of two lines is one statement. -/
theorem lines_kept_comment :
    let calls := ["/*", "*/", "f(", "x)", "if"].map Call.ofLine
    (start {} Evaluator.echo ()).buffer = "" ∧
    (∀ before call after, calls = before ++ call :: after →
      ((start {} Evaluator.echo ()).behind before).command? call = none) ∧
    ∃ (blocks : List Block) (left : List String) (answers : List (List ReplEvent)),
      blocks.flatMap (·.lines) ++ left = calls.map (·.line) ∧
      (∀ block ∈ blocks, block.lines ≠ [] ∧ match block.event with
        | some event => event.source? = some (joined block.lines)
        | none => (∃ line, block.lines = [line] ∧ (Text.trim line.toList).isEmpty = true) ∨
          IsTokenFree (joined block.lines).toList) ∧
      ((start {} Evaluator.echo ()).handleCalls calls).1 = answers.map .ok ∧
      blocks.filterMap (·.event) = judgements answers.flatten ∧
      ((start {} Evaluator.echo ()).behind calls).buffer = joined left ∧
      (left = [] ↔ ((start {} Evaluator.echo ()).behind calls).buffer = "") := by
  intro calls
  have source : ∀ before call after, calls = before ++ call :: after →
      ((start {} Evaluator.echo ()).behind before).command? call = none := by
    intro before call after splits
    have parsed : ∀ call ∈ calls, Command.parse? call.environment.home call.line = none := by decide
    unfold command?
    rw [parsed call (by rw [splits]; simp), ite_self]
  exact ⟨rfl, source, lines_kept _ rfl calls source⟩

end Repl

/-- Whether a text is a single line, with nothing at its end that belongs to a newline. -/
structure IsTypedLine (line : String) : Prop where
  single : '\n' ∉ line.toList
  plain : line.toList.getLast? ≠ some '\r'

/-- Whether a line shows nothing. -/
def IsBlankLine (line : String) : Prop := (Text.trim line.toList).isEmpty = true

theorem isBlankLine_iff {line : String} : IsBlankLine line ↔ ∀ c ∈ line.toList, Unicode.isBlank c = true := by
  unfold IsBlankLine Text.trim Text.trimEnd Text.trimStart
  rw [List.isEmpty_iff, List.reverse_eq_nil_iff, List.dropWhile_eq_nil_iff]
  refine Iff.trans ⟨fun blank => ?_, fun empty c mem => ?_⟩ List.dropWhile_eq_nil_iff
  · refine Decidable.byContradiction fun nonempty => ?_
    have first := List.head_dropWhile_not Unicode.isBlank nonempty
    rw [blank _ (List.mem_reverse.mpr (List.head_mem nonempty))] at first
    cases first
  · rw [empty] at mem
    cases mem

theorem joined_toList (lines : List String) : (joined lines).toList = ['\n'].intercalate (lines.map (·.toList)) := by
  simp [joined, String.toList_intercalate]

namespace Text

theorem splitNewlines_joined {lines : List String} (nonempty : lines ≠ []) (single : ∀ line ∈ lines, '\n' ∉ line.toList) :
    splitNewlines (joined lines).toList = lines.map (·.toList) := by
  rw [splitNewlines, joined_toList]
  refine List.splitOn_intercalate _ (fun text mem => ?_) (by simpa using nonempty)
  obtain ⟨line, isLine, rfl⟩ := List.mem_map.mp mem
  exact single line isLine

private theorem linesAfter_line {line : List Char} (single : '\n' ∉ line) (done : List (List Char))
    (seen rest : List Char) :
    linesAfter '\n' '\r' done seen (line ++ rest) = linesAfter '\n' '\r' done (line.reverse ++ seen) rest := by
  induction line generalizing seen with
  | nil => rfl
  | cons c line ih =>
    obtain ⟨apart, single⟩ := not_or.mp (mt List.mem_cons.mpr single)
    rw [List.cons_append, linesAfter, if_neg (Ne.symm apart), ih single, List.reverse_cons, List.append_assoc]
    rfl

private theorem endedLine_reverse {line : List Char} (plain : line.getLast? ≠ some '\r') :
    endedLine '\r' line.reverse = line := by
  rw [endedLine, List.head?_reverse, if_neg plain, List.reverse_reverse]

private theorem linesAfter_joined {lines : List String} (isLines : ∀ line ∈ lines, IsTypedLine line)
    (ends : ∀ line, lines.getLast? = some line → line ≠ "") (done : List (List Char)) :
    linesAfter '\n' '\r' done [] (joined lines).toList = done.reverse ++ lines.map (·.toList) := by
  induction lines generalizing done with
  | nil => simp [joined, linesAfter]
  | cons first rest ih =>
    have isLine := isLines first List.mem_cons_self
    cases rest with
    | nil =>
      have shows : first ≠ "" := ends first rfl
      rw [joined_singleton, ← List.append_nil first.toList, linesAfter_line isLine.single, linesAfter,
        if_neg (by simpa using shows)]
      simp
    | cons second others =>
      have whole : (joined (first :: second :: others)).toList =
          first.toList ++ '\n' :: (joined (second :: others)).toList := by
        simp [joined, String.intercalate_cons_of_ne_nil]
      rw [whole, linesAfter_line isLine.single, linesAfter, if_pos rfl, List.append_nil, endedLine_reverse isLine.plain,
        ih (fun line mem => isLines line (List.mem_cons_of_mem _ mem)) fun line last =>
        ends line (by rw [List.getLast?_cons_cons]; exact last)]
      simp

/-- The lines of a text are the lines that it has been made of, if the last of them shows. -/
theorem lines_joined {lines : List String} (isLines : ∀ line ∈ lines, IsTypedLine line)
    (ends : ∀ line, lines.getLast? = some line → line ≠ "") : Text.lines (joined lines).toList = lines.map (·.toList) :=
  linesAfter_joined isLines ends []

end Text

/-- The history keeps all the lines of a text of which the last one is not blank. -/
theorem History.recordedLines_joined {lines : List String} (nonempty : lines ≠ [])
    (isLines : ∀ line ∈ lines, IsTypedLine line) (ends : ∀ line, lines.getLast? = some line → ¬ IsBlankLine line) :
    recordedLines (joined lines) = lines := by
  unfold recordedLines
  rw [Text.splitNewlines_joined nonempty fun line mem => (isLines line mem).single]
  have kept : ¬ (1 < (lines.map (·.toList)).length ∧
      ((lines.map (·.toList)).getLast?.any fun line => (Text.trim line).isEmpty) = true) := by
    rintro ⟨-, last⟩
    simp only [List.getLast?_map, Option.any_map, Option.any_eq_true] at last
    obtain ⟨line, isLast, blank⟩ := last
    exact ends line isLast blank
  dsimp only
  rw [if_neg kept]
  simp

end GoPrompt
