import GoPrompt.Proofs.Lexical.LineEnds
import GoPrompt.Proofs.Lexical.Moved

/-! The loops of the lexer, turn by turn, and what they add up to: the characters that the lexer takes at once. A turn
that goes on takes a character or more, which is why a loop comes to the end of what it reads.

The cursor of the lexer holds 32 bits, and stays at the last offset when it would have to go beyond. As long as all of a
text is within the offsets that there are, every turn of a loop moves the cursor on, and the loop ends behind the
characters that the lexer takes. Beyond the last offset a loop that goes on never ends. -/

namespace GoPrompt

/-- What a turn of a loop does with the text ahead: it takes characters, and the loop goes round again or is left. -/
inductive LoopTurn where
  | again (length : Nat)
  | leave (length : Nat)
  deriving DecidableEq, Repr

namespace LoopTurn

def length : LoopTurn → Nat
  | again length | leave length => length

def goesOn : LoopTurn → Bool
  | again _ => true
  | leave _ => false

end LoopTurn

/-- How many characters the reading of a block comment has taken, with the one that makes it fail. -/
def commentSize : Nat × CommentEnd → Nat
  | (taken, .closed _) | (taken, .endOfInput) => taken
  | (taken, .nul) => taken + 1

private theorem commentSize_blockComment (length : Nat) (spansLines : Bool) (text : List Char) :
    commentSize (blockComment length spansLines text) = length + commentSize (blockComment 0 false text) := by
  induction text generalizing length spansLines with
  | nil => rfl
  | cons c rest ih =>
    by_cases closes : c = '*' ∧ rest.head? = some '/'
    · obtain ⟨rfl, slash⟩ := closes
      obtain ⟨tail, rfl⟩ := List.head?_eq_some_iff.mp slash
      simp only [blockComment, commentSize, Nat.zero_add]
    · rw [blockComment_cons closes, blockComment_cons closes]
      split
      next => rfl
      next =>
        rw [ih, ih (0 + 1)]
        omega

/-- The loops over the text ahead. -/
inductive Loop where
  /-- Over the characters of a class: blanks, the rest of a line, a name, a run of digits. -/
  | run (belongs : Char → Bool)
  /-- Over a block comment, behind the mark that opens it. -/
  | comment
  /-- Over a raw string, behind the quote that opens it. -/
  | rawString
  /-- Over an interpreted literal, behind its opening quote, with an escape as one turn. -/
  | quoted (quote : Char)
  /-- Over all that is skipped between two tokens: a blank, a newline or a comment a turn. -/
  | trivia (armed : Bool)

/-- A turn over a block comment between two tokens. It is not skipped where a semicolon is inserted, and not left behind
where it is open or has a character that is not allowed. -/
def commentTurn (armed : Bool) : Nat × CommentEnd → LoopTurn
  | (taken, .closed spansLines) => if spansLines && armed then .leave 0 else .again taken
  | (_, .nul) | (_, .endOfInput) => .leave 0

/-- A turn over an escape, with its backslash. -/
def Quoted.Escape.turn (rest : List Char) : Quoted.Escape → LoopTurn
  | valid taken | invalid taken _ => .again (1 + taken)
  | cutOff => .leave (1 + rest.length)

namespace Loop

def blanks : Loop := run isHorizontalBlank

def lineComment : Loop := run (· != '\n')

/-- The characters that the lexer takes in a loop. -/
def length : Loop → List Char → Nat
  | run belongs, text => (text.takeWhile belongs).length
  | comment, text => commentSize (blockComment 0 false text)
  | rawString, text => (Quoted.scanRawString (Quoted.backquote :: text)).length - 1
  | quoted quote, text => (Quoted.body quote 0 0 0 none text).length
  | trivia armed, text => (gap armed 0 0 text).1

/-- One turn over the text ahead. Without text, each of the loops is left. -/
def turn : Loop → List Char → LoopTurn
  | _, [] => .leave 0
  | run belongs, c :: _ => if belongs c then .again 1 else .leave 0
  | comment, c :: rest =>
    if c = '*' ∧ rest.head? = some '/' then .leave 2
    else if c = '\x00' then .leave 1
    else .again 1
  | rawString, c :: _ => if c = Quoted.backquote then .leave 1 else .again 1
  | quoted quote, c :: rest =>
    if c = quote then .leave 1
    else if c = '\n' then .leave 0
    else if c = '\\' then (Quoted.escape quote rest).turn rest
    else .again 1
  | trivia armed, c :: rest =>
    if isHorizontalBlank c then .again 1
    else if c = '\n' then
      if armed then .leave 0 else .again 1
    else if c = '/' ∧ rest.head? = some '/' then .again (1 + lineComment.length rest)
    else if c = '/' ∧ rest.head? = some '*' then commentTurn armed (blockComment 2 false (rest.drop 1))
    else .leave 0

private theorem body_length (quote : Char) (skip length units : Nat) (flaw : Option Flaw) (text : List Char) :
    (Quoted.body quote skip length units flaw text).length = length + (quoted quote).length (text.drop skip) := by
  induction text generalizing skip length units flaw with
  | nil =>
    rw [List.drop_nil]
    cases skip <;> rfl
  | cons c rest ih =>
    cases skip with
    | succ skip => exact ih skip length units flaw
    | zero =>
      simp only [Loop.length] at ih
      simp only [Quoted.body, Loop.length, List.drop_zero]
      split
      next => rfl
      next =>
        split
        next => rfl
        next =>
          split
          next =>
            split <;> simp only [ih] <;> omega
          next =>
            rw [ih, ih 0 (0 + 1)]
            omega

/-- A turn that goes on takes characters of the text, and what is left for the loop is behind them; one that leaves
takes the last characters of the loop. -/
def Adds (loop : Loop) (text : List Char) : Prop :=
  match loop.turn text with
  | .again taken => 1 ≤ taken ∧ taken ≤ text.length ∧ loop.length text = taken + loop.length (text.drop taken)
  | .leave taken => taken ≤ text.length ∧ loop.length text = taken

section

variable {loop : Loop} {text : List Char} {taken : Nat}

private theorem Adds.of_again (turned : loop.turn text = .again taken) (positive : 1 ≤ taken)
    (within : taken ≤ text.length) (same : loop.length text = taken + loop.length (text.drop taken)) :
    loop.Adds text := by
  unfold Adds
  rw [turned]
  exact ⟨positive, within, same⟩

private theorem Adds.of_leave (turned : loop.turn text = .leave taken) (within : taken ≤ text.length)
    (same : loop.length text = taken) :
    loop.Adds text := by
  unfold Adds
  rw [turned]
  exact ⟨within, same⟩

end

private theorem adds_nil (loop : Loop) : loop.Adds [] := by
  refine .of_leave rfl (Nat.le_refl 0) ?_
  cases loop <;> rfl

section

variable (c : Char) (rest : List Char)

private theorem adds_run (belongs : Char → Bool) : (run belongs).Adds (c :: rest) := by
  cases holds : belongs c with
  | true =>
    have turned : (run belongs).turn (c :: rest) = .again 1 := by simp [turn, holds]
    refine .of_again turned (Nat.le_refl 1) (by simp) ?_
    simp only [length, List.takeWhile_cons_of_pos holds, List.length_cons, List.drop_succ_cons, List.drop_zero]
    omega
  | false =>
    have turned : (run belongs).turn (c :: rest) = .leave 0 := by simp [turn, holds]
    exact .of_leave turned (Nat.zero_le _) (by simp [length, holds])

private theorem adds_comment : comment.Adds (c :: rest) := by
  by_cases closes : c = '*' ∧ rest.head? = some '/'
  · have turned : comment.turn (c :: rest) = .leave 2 := if_pos closes
    obtain ⟨rfl, slash⟩ := closes
    obtain ⟨tail, rfl⟩ := List.head?_eq_some_iff.mp slash
    exact .of_leave turned (by simp) rfl
  · have read := blockComment_cons closes 0 false
    by_cases nul : c = '\x00'
    · have turned : comment.turn (c :: rest) = .leave 1 := (if_neg closes).trans (if_pos nul)
      refine .of_leave turned (by simp) ?_
      rw [length, read, if_pos nul]
      rfl
    · have turned : comment.turn (c :: rest) = .again 1 := (if_neg closes).trans (if_neg nul)
      refine .of_again turned (Nat.le_refl 1) (by simp) ?_
      rw [length, read, if_neg nul, commentSize_blockComment]
      rfl

private theorem adds_rawString : rawString.Adds (c :: rest) := by
  have size : ∀ text, rawString.length text = (text.takeWhile (· != Quoted.backquote)).length +
      if text.drop (text.takeWhile (· != Quoted.backquote)).length = [] then 0 else 1 := by
    intro text
    simp only [length, Quoted.scanRawString, List.drop_succ_cons, List.drop_zero, Nat.add_comm 1]
    split
    next ended => simp [ended]
    next behind => simp [behind]
  by_cases closes : c = Quoted.backquote
  · have turned : rawString.turn (c :: rest) = .leave 1 := if_pos closes
    refine .of_leave turned (by simp) ?_
    rw [size]
    simp [closes]
  · have turned : rawString.turn (c :: rest) = .again 1 := if_neg closes
    refine .of_again turned (Nat.le_refl 1) (by simp) ?_
    rw [size, size, List.takeWhile_cons_of_pos (p := (· != Quoted.backquote)) (bne_iff_ne.mpr closes)]
    simp only [List.length_cons, List.drop_succ_cons, List.drop_zero]
    omega

private theorem adds_quoted (quote : Char) : (quoted quote).Adds (c :: rest) := by
  by_cases closes : c = quote
  · have turned : (quoted quote).turn (c :: rest) = .leave 1 := if_pos closes
    exact .of_leave turned (by simp) (by simp [length, Quoted.body, closes])
  by_cases newline : c = '\n'
  · have turned : (quoted quote).turn (c :: rest) = .leave 0 := (if_neg closes).trans (if_pos newline)
    refine .of_leave turned (Nat.zero_le _) ?_
    rw [length, Quoted.body, if_neg closes, if_pos newline]
  by_cases backslash : c = '\\'
  · have turned : (quoted quote).turn (c :: rest) = (Quoted.escape quote rest).turn rest :=
      (if_neg closes).trans ((if_neg newline).trans (if_pos backslash))
    have goes : ∀ taken, (Quoted.escape quote rest).taken? = some taken →
      (quoted quote).turn (c :: rest) = .again (1 + taken) →
        (quoted quote).length (c :: rest) = 0 + 1 + taken + (quoted quote).length (rest.drop taken) →
          (quoted quote).Adds (c :: rest) := by
      intro taken read turned same
      have within := Quoted.escape_taken_le read
      refine .of_again turned (Nat.le_add_right 1 taken) (by simp; omega) ?_
      rw [same, Nat.zero_add, Nat.add_comm 1 taken, List.drop_succ_cons]
    cases read : Quoted.escape quote rest with
    | valid taken | invalid taken _ =>
      rw [read] at turned
      refine goes taken (congrArg Quoted.Escape.taken? read) turned ?_
      rw [length, Quoted.body, if_neg closes, if_neg newline, if_pos backslash, read]
      exact body_length ..
    | cutOff =>
      rw [read] at turned
      refine .of_leave turned (by simp; omega) ?_
      rw [length, Quoted.body, if_neg closes, if_neg newline, if_pos backslash, read, Nat.zero_add]
  · have turned : (quoted quote).turn (c :: rest) = .again 1 := by
      simp only [turn, closes, newline, backslash, ↓reduceIte]
    refine .of_again turned (Nat.le_refl 1) (by simp) ?_
    rw [length, Quoted.body, if_neg closes, if_neg newline, if_neg backslash, body_length]
    rfl

end

section

variable {armed : Bool} {text : List Char} {taken : Nat} {landmark : Landmark}

private theorem turn_comment (armed : Bool) (rest : List Char) :
    (trivia armed).turn ('/' :: '*' :: rest) = commentTurn armed (blockComment 2 false rest) := rfl

private theorem turn_of_passes (passes : Gap.Passes armed text taken) : (trivia armed).turn text = .again taken := by
  cases passes with
  | blank horizontal => exact if_pos horizontal
  | newline unarmed =>
    subst unarmed
    rfl
  | @line rest =>
    have line : (trivia armed).turn ('/' :: '/' :: rest) = .again (1 + lineComment.length ('/' :: rest)) := rfl
    rw [line, lineComment, length, List.takeWhile_cons_of_pos (by decide), List.length_cons,
      Nat.add_comm 1, Nat.add_comm 2]
  | comment read keeps =>
    rw [turn_comment, read]
    exact if_neg (Bool.eq_false_iff.mp keeps)

private theorem turn_of_halts (halts : Gap.Halts armed text landmark) : (trivia armed).turn text = .leave 0 := by
  cases halts with
  | ended => rfl
  | newline isArmed =>
    subst isArmed
    rfl
  | comment read breaks =>
    rw [turn_comment, read]
    exact if_pos breaks
  | nul read | unclosed read =>
    rw [turn_comment, read]
    rfl
  | token notHorizontal notNewline noComment =>
    rw [turn, if_neg (Bool.eq_false_iff.mp notHorizontal), if_neg notNewline, if_neg (noComment _ (.inl rfl)),
      if_neg (noComment _ (.inr rfl))]

private theorem adds_trivia (armed : Bool) (text : List Char) : (trivia armed).Adds text := by
  rcases Gap.passes_or_halts armed text with ⟨taken, passes⟩ | ⟨landmark, halts⟩
  · refine .of_again (turn_of_passes passes) passes.within.1 passes.within.2 ?_
    rw [length, passes.gap, gap_shift, Nat.add_comm]
    rfl
  · exact .of_leave (turn_of_halts halts) (Nat.zero_le _) (by rw [length, halts.gap])

end

private theorem adds (loop : Loop) (text : List Char) : loop.Adds text := by
  cases text with
  | nil => exact loop.adds_nil
  | cons c rest =>
    cases loop with
    | run belongs => exact adds_run c rest belongs
    | comment => exact adds_comment c rest
    | rawString => exact adds_rawString c rest
    | quoted quote => exact adds_quoted c rest quote
    | trivia armed => exact adds_trivia armed (c :: rest)

end Loop

private theorem byteSize_take_le (text : List Char) (length : Nat) : byteSize (text.take length) ≤ byteSize text := by
  have parts := byteSize_append (text.take length) (text.drop length)
  rw [List.take_append_drop] at parts
  omega

private theorem byteSize_single {text : List Char} (single : ∀ c ∈ text, c.utf8Size = 1) :
    byteSize text = text.length := by
  induction text with
  | nil => rfl
  | cons c rest ih =>
    rw [byteSize_cons, single c List.mem_cons_self, ih fun d mem => single d (List.mem_cons_of_mem c mem),
      List.length_cons, Nat.add_comm]

private theorem takeBytes_append_dropBytes {size : Nat} {text : List Char}
    (whole : byteSize (takeBytes size text) = size) :
    takeBytes size text ++ dropBytes size text = text := by
  induction text generalizing size with
  | nil =>
    cases size <;> rfl
  | cons c rest ih =>
    have positive := c.utf8Size_pos
    cases size with
    | zero => simp only [takeBytes, show ¬ c.utf8Size ≤ 0 by omega, ↓reduceIte, dropBytes, List.nil_append]
    | succ size =>
      by_cases within : c.utf8Size ≤ size + 1
      · simp only [takeBytes, within, ↓reduceIte, byteSize_cons, dropBytes, List.cons_append] at whole ⊢
        rw [ih (by omega)]
      · simp [takeBytes, within] at whole

/-- A place in a text, in as many bits as there are for one. -/
@[ext] structure Cursor where
  offset : Nat
  inRange : offset ≤ maxOffset

namespace Cursor

/-- The place with this offset; the last one there is stands for all that are beyond it. -/
def ofOffset (offset : Nat) : Cursor := ⟨clampOffset offset, Nat.min_le_right _ _⟩

def start : Cursor := ofOffset 0

def last : Cursor := ⟨maxOffset, Nat.le_refl _⟩

/-- The text that the cursor has ahead. Inside a character there is none, as at the end of the text. -/
def ahead (text : List Char) (cursor : Cursor) : List Char :=
  if byteSize (takeBytes cursor.offset text) = cursor.offset then dropBytes cursor.offset text else []

/-- The cursor moved on by some bytes, but not beyond the end of the text. -/
def advance (text : List Char) (size : Nat) (cursor : Cursor) : Cursor :=
  ofOffset (min (cursor.offset + size) (byteSize text))

private theorem ofOffset_offset {offset : Nat} (inRange : offset ≤ maxOffset) : (ofOffset offset).offset = offset :=
  Nat.min_eq_left inRange

section

variable {before rest text : List Char} {cursor : Cursor}

private theorem ahead_between (at_ : cursor.offset = byteSize before) : cursor.ahead (before ++ rest) = rest := by
  rw [ahead, at_, takeBytes_byteSize, if_pos rfl, dropBytes_byteSize]

private theorem exists_before (more : cursor.ahead text ≠ []) :
    ∃ before, text = before ++ cursor.ahead text ∧ byteSize before = cursor.offset := by
  unfold ahead at more ⊢
  split at more
  next whole =>
    rw [if_pos whole]
    exact ⟨_, (takeBytes_append_dropBytes whole).symm, whole⟩
  next => exact absurd rfl more

end

end Cursor

namespace Loop

def after (loop : Loop) (text : List Char) (cursor : Cursor) : Cursor :=
  cursor.advance text (byteSize ((cursor.ahead text).take (loop.turn (cursor.ahead text)).length))

/-- A loop over a text that starts at a cursor ends at another one. -/
inductive Ends (loop : Loop) (text : List Char) : Cursor → Cursor → Prop
  | leave {cursor : Cursor} (left : (loop.turn (cursor.ahead text)).goesOn = false) :
      Ends loop text cursor (loop.after text cursor)
  | again {cursor stop : Cursor} (goesOn : (loop.turn (cursor.ahead text)).goesOn = true)
      (later : Ends loop text (loop.after text cursor) stop) : Ends loop text cursor stop

section

variable {loop : Loop} {text : List Char} {cursor stop : Cursor}

theorem Ends.unique {stop' : Cursor} (ends : loop.Ends text cursor stop) (ends' : loop.Ends text cursor stop') :
    stop = stop' := by
  induction ends with
  | leave left =>
    cases ends' with
    | leave => rfl
    | again goesOn => cases left.symm.trans goesOn
  | again goesOn _ ih =>
    cases ends' with
    | leave left => cases left.symm.trans goesOn
    | again _ later => exact ih later

private theorem turn_of_goesOn {rest : List Char} (goesOn : (loop.turn rest).goesOn = true) :
    ∃ taken, loop.turn rest = .again taken ∧ 1 ≤ taken ∧ taken ≤ rest.length ∧
      loop.length rest = taken + loop.length (rest.drop taken) := by
  have adds := loop.adds rest
  unfold Adds at adds
  cases turned : loop.turn rest with
  | leave => simp [turned, LoopTurn.goesOn] at goesOn
  | again taken =>
    rw [turned] at adds
    exact ⟨taken, rfl, adds⟩

private theorem turn_of_left {rest : List Char} (left : (loop.turn rest).goesOn = false) :
    (loop.turn rest).length = loop.length rest := by
  have adds := loop.adds rest
  unfold Adds at adds
  cases turned : loop.turn rest with
  | again => simp [turned, LoopTurn.goesOn] at left
  | leave taken =>
    rw [turned] at adds
    exact adds.2.symm

private theorem after_between {before rest : List Char} (stands : cursor.offset = byteSize before) :
    loop.after (before ++ rest) cursor =
    .ofOffset (byteSize before + byteSize (rest.take (loop.turn rest).length)) := by
  have within := byteSize_take_le rest (loop.turn rest).length
  rw [after, Cursor.ahead_between stands, Cursor.advance, stands, byteSize_append, Nat.min_eq_left (by omega)]

private theorem ends_between {cursor : Cursor} {before rest : List Char} (stands : cursor.offset = byteSize before)
    (fits : byteSize before + byteSize (rest.take (loop.length rest)) ≤ maxOffset) :
    loop.Ends (before ++ rest) cursor (.ofOffset (byteSize before + byteSize (rest.take (loop.length rest)))) := by
  have ahead : cursor.ahead (before ++ rest) = rest := Cursor.ahead_between stands
  have moved : loop.after (before ++ rest) cursor = _ := after_between stands
  cases goesOn : (loop.turn rest).goesOn with
  | false =>
    rw [turn_of_left goesOn] at moved
    rw [← moved]
    exact .leave (by rw [ahead, goesOn])
  | true =>
    obtain ⟨taken, turned, positive, within, same⟩ := turn_of_goesOn goesOn
    have splits : rest.take (loop.length rest) =
        rest.take taken ++ (rest.drop taken).take (loop.length (rest.drop taken)) := by
      rw [same, List.take_add]
    have parts : before ++ rest = before ++ rest.take taken ++ rest.drop taken := by
      rw [List.append_assoc, List.take_append_drop]
    rw [splits, byteSize_append, ← Nat.add_assoc, ← byteSize_append before] at fits ⊢
    have stands' : (loop.after (before ++ rest) cursor).offset = byteSize (before ++ rest.take taken) := by
      rw [moved, turned, byteSize_append, LoopTurn.length]
      exact Cursor.ofOffset_offset (by rw [← byteSize_append]; omega)
    have shorter : (rest.drop taken).length < rest.length := by
      rw [List.length_drop]
      omega
    refine .again (by rw [ahead, goesOn]) ?_
    generalize loop.after (before ++ rest) cursor = next at stands'
    rw [parts]
    exact ends_between stands' fits
termination_by rest.length

private theorem lt_after (fits : byteSize text ≤ maxOffset) (goesOn : (loop.turn (cursor.ahead text)).goesOn = true) :
    cursor.offset < (loop.after text cursor).offset := by
  obtain ⟨taken, turned, positive, within, -⟩ := turn_of_goesOn goesOn
  have more : cursor.ahead text ≠ [] := List.length_pos_iff.mp (by omega)
  obtain ⟨before, splits, stands⟩ := Cursor.exists_before more
  generalize cursor.ahead text = rest at *
  subst splits
  obtain ⟨c, tail, rfl⟩ := List.exists_cons_of_ne_nil more
  obtain ⟨fewer, rfl⟩ := Nat.exists_eq_add_of_le' positive
  have grows := c.utf8Size_pos
  have within := byteSize_take_le tail fewer
  rw [byteSize_append, byteSize_cons] at fits
  rw [after_between stands.symm, turned, LoopTurn.length, List.take_succ_cons, byteSize_cons,
    Cursor.ofOffset_offset (by omega)]
  omega

private theorem exists_end (fits : byteSize text ≤ maxOffset) (cursor : Cursor) :
    ∃ stop, loop.Ends text cursor stop := by
  by_cases more : cursor.ahead text = []
  · exact ⟨_, .leave (by rw [more]; rfl)⟩
  · obtain ⟨before, splits, stands⟩ := Cursor.exists_before more
    generalize cursor.ahead text = rest at splits
    subst splits
    have within := byteSize_take_le rest (loop.length rest)
    rw [byteSize_append] at fits
    exact ⟨_, ends_between stands.symm (by omega)⟩

private theorem after_last (beyond : maxOffset ≤ byteSize text) (atLast : cursor.offset = maxOffset) :
    loop.after text cursor = cursor := by
  ext
  simp only [after, Cursor.advance, Cursor.ofOffset, clampOffset, atLast]
  omega

/-- A run over single bytes that all belong to it gets to the last offset, so that it never ends. -/
private theorem run_endless {belongs : Char → Bool} (all : ∀ c ∈ text, belongs c = true)
    (single : ∀ c ∈ text, c.utf8Size = 1) (beyond : maxOffset < byteSize text) :
    ¬ (run belongs).Ends text cursor stop := by
  intro ends
  induction ends with
  | again _ _ ih => exact ih
  | @leave cursor left =>
    have inRange := cursor.inRange
    rw [byteSize_single single] at beyond
    -- Every offset stands between two characters, and there is one behind it.
    have stands : cursor.offset = byteSize (text.take cursor.offset) := by
      rw [byteSize_single fun c mem => single c (List.mem_of_mem_take mem), List.length_take_of_le (by omega)]
    have ahead : cursor.ahead (text.take cursor.offset ++ text.drop cursor.offset) = text.drop cursor.offset :=
      Cursor.ahead_between stands
    rw [List.take_append_drop] at ahead
    have here : cursor.offset < text.length := by omega
    rw [ahead, List.drop_eq_getElem_cons here] at left
    simp [turn, all _ (List.getElem_mem here), LoopTurn.goesOn] at left

private theorem run_turn {belongs : Char → Bool} {before : List Char} {c : Char} {cursor : Cursor} (rest : List Char)
    (stands : cursor.offset = byteSize before) (goesOn : belongs c = true) :
    ((run belongs).turn (cursor.ahead (before ++ c :: rest))).goesOn = true ∧
      (run belongs).after (before ++ c :: rest) cursor = .ofOffset (byteSize before + c.utf8Size) := by
  have turned : (run belongs).turn (c :: rest) = .again 1 := by simp [turn, goesOn]
  refine ⟨by rw [Cursor.ahead_between stands, turned]; rfl, ?_⟩
  rw [after_between stands, turned]
  simp [LoopTurn.length]

end

end Loop

namespace Lexer

def called : Nat → Lexer → Lexer
  | 0, lexer => lexer
  | number + 1, lexer => lexer.next.2.called number

private theorem called_place (number : Nat) (lexer : Lexer) :
    (lexer.called number).offset + byteSize (lexer.called number).rest = lexer.offset + byteSize lexer.rest := by
  induction number generalizing lexer with
  | zero => rfl
  | succ number ih => exact (ih lexer.next.2).trans lexer.next_place

private theorem next_ended_place {lexer : Lexer} (ended : lexer.next.1 = .ok .endOfInput) :
    lexer.next.2.rest = [] ∧ lexer.next.2.offset = lexer.offset + byteSize lexer.rest := by
  obtain ⟨empty, -⟩ := next_ended (show lexer.next = (.ok .endOfInput, lexer.next.2) from Prod.ext ended rfl)
  have place := lexer.next_place
  rw [empty, byteSize_nil, Nat.add_zero] at place
  exact ⟨empty, place⟩

/-- Over a text within the offsets that there are, every turn of a loop moves the cursor on, and every loop ends behind
the characters that the lexer takes; every call has an answer, which comes closer to the end if it is a token, and the
end of the input is answered at the end of the text only. -/
theorem scan_progress (source : Nat) (text : List Char) (fits : byteSize text ≤ maxOffset) :
    (∀ (loop : Loop) (cursor : Cursor), (loop.turn (cursor.ahead text)).goesOn = true →
        cursor.offset < (loop.after text cursor).offset) ∧
      (∀ (loop : Loop) (cursor : Cursor), ∃ stop, loop.Ends text cursor stop) ∧
      (∀ (loop : Loop) (before rest : List Char), before ++ rest = text → ∀ stop,
        loop.Ends text (.ofOffset (byteSize before)) stop ↔
          stop = .ofOffset (byteSize before + byteSize (rest.take (loop.length rest)))) ∧
      ∀ number, let lexer := (ofText source text).called number
        ¬ Stalls lexer.next.1 ∧
        (∀ step, lexer.next.1 = .ok step → step.endsInput = false → lexer.next.2.remaining < lexer.remaining) ∧
        (lexer.next.1 = .ok .endOfInput → lexer.next.2.rest = [] ∧ lexer.next.2.offset = byteSize text) := by
  refine ⟨fun loop cursor => Loop.lt_after fits, fun loop => Loop.exists_end fits, ?_, ?_⟩
  · rintro loop before rest rfl stop
    have within := byteSize_take_le rest (loop.length rest)
    rw [byteSize_append] at fits
    have stands : (Cursor.ofOffset (byteSize before)).offset = byteSize before := Cursor.ofOffset_offset (by omega)
    have ends : loop.Ends (before ++ rest) (.ofOffset (byteSize before)) _ := Loop.ends_between stands (by omega)
    exact ⟨fun ends' => ends'.unique ends, fun same => same ▸ ends⟩
  · intro number lexer
    have place : lexer.offset + byteSize lexer.rest = byteSize text :=
      (called_place number _).trans (ofText_size source text)
    refine ⟨not_stalls (by omega) 0, fun step answered more => ?_, fun ended => ?_⟩
    · exact remaining_next_lt (Prod.ext answered rfl) more
    · rw [← place]
      exact next_ended_place ended

/-- A line comment ends at its newline. -/
theorem scan_progress_comment : byteSize "//\u00e9\nx".toList ≤ maxOffset ∧
    Loop.lineComment.Ends "//\u00e9\nx".toList .start (.ofOffset 4) := by
  have fits : byteSize "//\u00e9\nx".toList ≤ maxOffset := by decide
  exact ⟨fits, ((scan_progress 0 "//\u00e9\nx".toList fits).2.2.1 Loop.lineComment [] "//\u00e9\nx".toList rfl _).mpr
    rfl⟩

private theorem stalls_blanks {text : List Char} (blank : ∀ c ∈ text, isBlank c = true)
    (beyond : maxOffset < byteSize text) (source : Nat) :
    Stalls (ofText source text).next.1 := by
  have skipped := gap_skips_blanks blank 0 []
  rw [List.append_nil, Nat.zero_add] at skipped
  rw [ofText_blanks fun c mem => unicode_isBlank (blank c mem)]
  have ended : (Lexer.advance ⟨source, text, 0, false⟩).2.offset = byteSize text := by
    simp only [advance, skipped, gap, stepAt, Bool.false_eq_true, ↓reduceIte, skip, List.take_length, Nat.zero_add]
  have stalled := next_of_stalled (show ¬ (Lexer.advance ⟨source, text, 0, false⟩).2.offset ≤ maxOffset by omega)
  exact ⟨_, congrArg Prod.fst stalled⟩

end Lexer

/-- Blanks that reach beyond the last offset by one: the cursor does not move there, so that the loop over the blanks
never ends, and the call that runs it has no answer. -/
theorem Loop.blanks_endless : let text := List.replicate (maxOffset + 1) ' '
    (∃ cursor, (blanks.turn (cursor.ahead text)).goesOn = true ∧ blanks.after text cursor = cursor) ∧
      (∀ stop, ¬ blanks.Ends text .start stop) ∧ Stalls (Lexer.ofText 0 text).next.1 := by
  intro text
  have isSpace : ∀ c ∈ text, c = ' ' := fun c mem => List.eq_of_mem_replicate mem
  have single : ∀ c ∈ text, c.utf8Size = 1 := fun c mem => isSpace c mem ▸ rfl
  have blank : ∀ c ∈ text, isHorizontalBlank c = true := fun c mem => isSpace c mem ▸ rfl
  have beyond : maxOffset < byteSize text := by
    rw [byteSize_single single, List.length_replicate]
    exact Nat.lt_succ_self maxOffset
  refine ⟨⟨.last, ?_, after_last (Nat.le_of_lt beyond) rfl⟩, fun stop => run_endless blank single beyond, ?_⟩
  · have splits : text = List.replicate maxOffset ' ' ++ [' '] := List.replicate_succ'
    have stands : Cursor.last.offset = byteSize (List.replicate maxOffset ' ') := by
      rw [byteSize_single fun c mem => List.eq_of_mem_replicate mem ▸ rfl, List.length_replicate]
      rfl
    rw [splits]
    exact (run_turn [] stands rfl).1
  · exact Lexer.stalls_blanks (fun c mem => isBlank_iff.mpr (.inl (isSpace c mem))) beyond 0

end GoPrompt
