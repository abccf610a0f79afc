import GoPrompt.Proofs.Lexical.Encoding
import GoPrompt.Proofs.Lexical.Fillers
import GoPrompt.Proofs.Lexical.Newlines

/-! A text with a carriage return in front of every newline has the tokens of the text without them. Between tokens
and in comments the returns are skipped, in raw strings they are characters like others, and every other token that
runs into the end of its line is spoilt with or without one. -/

namespace GoPrompt

/-- A text with a carriage return in front of every newline. -/
def withReturns (text : List Char) : List Char := text.flatMap fun c => if c = '\n' then ['\r', '\n'] else [c]

@[simp] theorem withReturns_nil : withReturns [] = [] := rfl

@[simp] theorem withReturns_newline (rest : List Char) :
    withReturns ('\n' :: rest) = '\r' :: '\n' :: withReturns rest :=
  rfl

theorem withReturns_cons {c : Char} (apart : c ≠ '\n') (rest : List Char) :
    withReturns (c :: rest) = c :: withReturns rest := by
  simp [withReturns, apart]

@[simp] theorem withReturns_append (first second : List Char) :
    withReturns (first ++ second) = withReturns first ++ withReturns second := List.flatMap_append

private theorem withReturns_line {text : List Char} (oneLine : '\n' ∉ text) : withReturns text = text := by
  induction text with
  | nil => rfl
  | cons c rest ih =>
    have apart : c ≠ '\n' := fun newline => oneLine (newline ▸ List.mem_cons_self)
    rw [withReturns_cons apart, ih fun mem => oneLine (List.mem_cons_of_mem c mem)]

private theorem mem_withReturns {c : Char} {text : List Char} (mem : c ∈ withReturns text) : c ∈ text ∨ c = '\r' := by
  obtain ⟨origin, there, made⟩ := List.mem_flatMap.mp mem
  split at made
  next newline =>
    rcases List.mem_cons.mp made with rfl | made
    · exact .inr rfl
    · exact .inl (List.mem_singleton.mp made ▸ newline ▸ there)
  next => exact .inl (List.mem_singleton.mp made ▸ there)

theorem byteSize_withReturns_le (text : List Char) : byteSize (withReturns text) ≤ 2 * byteSize text := by
  induction text with
  | nil => exact Nat.le_refl 0
  | cons c rest ih =>
    by_cases newline : c = '\n'
    · subst newline
      have one : '\n'.utf8Size = 1 ∧ '\r'.utf8Size = 1 := by decide
      simp only [withReturns_newline, byteSize_cons, one]
      omega
    · rw [withReturns_cons newline, byteSize_cons, byteSize_cons]
      omega

private theorem withReturns_head {c : Char} (text : List Char) (apart : c ≠ '\r') (apart' : c ≠ '\n') :
    (withReturns text).head? = some c ↔ text.head? = some c := by
  cases text with
  | nil => rfl
  | cons d rest =>
    by_cases newline : d = '\n'
    · subst newline
      simp [apart.symm, apart'.symm]
    · rw [withReturns_cons newline]
      rfl

private theorem exists_firstLine {text : List Char} (several : '\n' ∈ text) :
    ∃ line tail, text = line ++ '\n' :: tail ∧ '\n' ∉ line ∧
    withReturns text = line ++ '\r' :: '\n' :: withReturns tail := by
  obtain ⟨line, tail, rfl, oneLine⟩ := List.eq_append_cons_of_mem several
  exact ⟨line, tail, rfl, oneLine, by rw [withReturns_append, withReturns_newline, withReturns_line oneLine]⟩

/-- The scan of a token, and its scan in the text with returns: what is left behind a whole token is the same
text again. -/
inductive TokenScan.Parallel (text text' : List Char) : TokenScan → TokenScan → Prop
  | whole {length length' : Nat} (kind : TokenKind) (behind : text'.drop length' = withReturns (text.drop length)) :
      Parallel text text' ⟨length, .whole kind⟩ ⟨length', .whole kind⟩
  | cutOff (length length' : Nat) (kind : LiteralKind) (cause : CutoffCause) :
      Parallel text text' ⟨length, .cutOff kind cause⟩ ⟨length', .cutOff kind cause⟩
  | invalid (length length' : Nat) (flaw flaw' : Flaw) :
      Parallel text text' ⟨length, .invalid flaw⟩ ⟨length', .invalid flaw'⟩

private theorem TokenScan.Parallel.of_line {scan : TokenScan} (line tail : List Char) (oneLine : '\n' ∉ line)
    (within : scan.length ≤ line.length) : Parallel (line ++ tail) (line ++ withReturns tail) scan scan := by
  rcases scan with ⟨length, shape⟩
  cases shape with
  | cutOff => exact .cutOff _ _ _ _
  | invalid => exact .invalid _ _ _ _
  | whole kind =>
    refine .whole kind ?_
    have short : '\n' ∉ line.drop length := fun mem => oneLine (List.mem_of_mem_drop mem)
    rw [List.drop_append_of_le_length within, List.drop_append_of_le_length within,
      withReturns_append, withReturns_line short]

namespace Quoted

private theorem scanRawString_closed {inner : List Char} (apart : backquote ∉ inner) (tail : List Char) :
    scanRawString (backquote :: (inner ++ backquote :: tail)) = ⟨1 + inner.length + 1, .complete .string⟩ := by
  have all : ∀ c ∈ inner, (c != backquote) = true := fun c mem => bne_iff_ne.mpr fun same => apart (same ▸ mem)
  have stops : (inner ++ backquote :: tail).takeWhile (· != backquote) = inner := by
    rw [List.takeWhile_append_of_pos all, List.takeWhile_cons_of_neg (by simp), List.append_nil]
  rw [scanRawString_eq]
  simp only [List.drop_one, List.tail_cons, stops]
  rw [if_pos (by simp only [List.length_cons, List.length_append]; omega)]

private theorem scanRawString_open {inner : List Char} (apart : backquote ∉ inner) :
    scanRawString (backquote :: inner) = ⟨1 + inner.length, .cutOff .string .rawString⟩ := by
  have all : ∀ c ∈ inner, (c != backquote) = true := fun c mem => bne_iff_ne.mpr fun same => apart (same ▸ mem)
  have stops : inner.takeWhile (· != backquote) = inner := by
    simpa using @List.takeWhile_append_of_pos _ _ _ [] all
  rw [scanRawString_eq]
  simp only [List.drop_one, List.tail_cons, stops]
  rw [if_neg (by simp only [List.length_cons]; omega)]

private theorem scanRawString_parallel (rest : List Char) :
    TokenScan.Parallel (backquote :: rest) (backquote :: withReturns rest)
      (scanRawString (backquote :: rest)).toTokenScan
      (scanRawString (backquote :: withReturns rest)).toTokenScan := by
  have kept : ∀ {inner : List Char}, backquote ∉ inner → backquote ∉ withReturns inner := fun apart mem =>
    (mem_withReturns mem).elim apart (by decide)
  by_cases closed : backquote ∈ rest
  · obtain ⟨inner, tail, rfl, apart⟩ := List.eq_append_cons_of_mem closed
    have behind : ∀ inner tail : List Char,
        (backquote :: (inner ++ backquote :: tail)).drop (1 + inner.length + 1) = tail := by
      intro inner tail
      rw [show 1 + inner.length + 1 =
        inner.length + 1 + 1 by omega, List.drop_succ_cons, ← List.drop_drop, List.drop_left]
      rfl
    rw [withReturns_append, withReturns_cons (by decide), scanRawString_closed apart, scanRawString_closed (kept apart)]
    exact .whole _ (by rw [behind, behind])
  · rw [scanRawString_open closed, scanRawString_open (kept closed)]
    exact .cutOff _ _ _ _

end Quoted

/-- A token is scanned with returns as it is without them. -/
theorem scanToken_parallel {first : Char} (apart : first ≠ '\n') (rest : List Char) :
    TokenScan.Parallel (first :: rest) (first :: withReturns rest) (scanToken first rest)
      (scanToken first (withReturns rest)) := by
  by_cases raw : first = Quoted.backquote
  · rw [raw, scanToken_backquote, scanToken_backquote]
    exact Quoted.scanRawString_parallel rest
  by_cases several : '\n' ∈ rest
  case neg =>
    have within := scanToken_length_le first rest
    rw [withReturns_line several]
    simpa using TokenScan.Parallel.of_line (first :: rest) [] (by simp [apart.symm, several]) within
  obtain ⟨line, tail, rfl, oneLine, withEnd⟩ := exists_firstLine several
  rw [withEnd]
  have ends : BreaksLine ('\n' :: tail) := .newline tail
  have ends' : BreaksLine ('\r' :: '\n' :: withReturns tail) := .returned _
  by_cases cut : ∃ kind cause, (scanToken first line).shape = .cutOff kind cause
  · -- The token would go on behind its line, so the end of the line spoils it.
    obtain ⟨kind, cause, cutOff⟩ := cut
    obtain ⟨⟨flaw, spoilt⟩, -⟩ := scanToken_break ends raw cutOff
    obtain ⟨⟨flaw', spoilt'⟩, -⟩ := scanToken_break ends' raw cutOff
    rcases scan : scanToken first (line ++ '\n' :: tail) with ⟨length, shape⟩
    rcases scan' : scanToken first (line ++ '\r' :: '\n' :: withReturns tail) with ⟨length', shape'⟩
    rw [scan] at spoilt
    rw [scan'] at spoilt'
    obtain rfl : shape = .invalid flaw := spoilt
    obtain rfl : shape' = .invalid flaw' := spoilt'
    exact .invalid _ _ _ _
  · have same : ∀ {behind : List Char}, BreaksLine behind → scanToken first (line ++ behind) = scanToken first line :=
      fun breaks => (scanToken_append_of_blank breaks.startsBlank).resolve_right fun ⟨kind, cause, cutOff, _⟩ =>
        cut ⟨kind, cause, cutOff⟩
    rw [same ends, same ends']
    exact TokenScan.Parallel.of_line (first :: line) ('\n' :: tail) (by simp [apart.symm, oneLine])
      (scanToken_length_le first line)

/-- The end of a block comment, and its end in the text with returns. -/
inductive CommentEnd.Parallel (text text' : List Char) : Nat × CommentEnd → Nat × CommentEnd → Prop
  | closed {taken taken' : Nat} (spansLines : Bool) (behind : text'.drop taken' = withReturns (text.drop taken)) :
      Parallel text text' (taken, .closed spansLines) (taken', .closed spansLines)
  | nul (taken taken' : Nat) : Parallel text text' (taken, .nul) (taken', .nul)
  | endOfInput (taken taken' : Nat) : Parallel text text' (taken, .endOfInput) (taken', .endOfInput)

theorem CommentEnd.Parallel.behind {rest rest' : List Char} {found found' : Nat × CommentEnd}
    (parallel : Parallel rest rest' found found') (front front' : List Char) :
    Parallel (front ++ rest) (front' ++ rest') (found.1 + front.length, found.2)
      (found'.1 + front'.length, found'.2) := by
  cases parallel with
  | closed spansLines same =>
      exact .closed spansLines (by simp only [Nat.add_comm _ (List.length _), List.drop_length_add_append, same])
  | nul => exact .nul _ _
  | endOfInput => exact .endOfInput _ _

private theorem blockComment_shift (length more : Nat) (spansLines : Bool) (text : List Char) :
    blockComment (length + more) spansLines text =
      ((blockComment length spansLines text).1 + more, (blockComment length spansLines text).2) := by
  induction text generalizing length spansLines with
  | nil => rfl
  | cons c rest ih =>
    by_cases closes : c = '*' ∧ rest.head? = some '/'
    · obtain ⟨rfl, slash⟩ := closes
      obtain ⟨tail, rfl⟩ := List.head?_eq_some_iff.mp slash
      simp only [blockComment, Nat.add_right_comm]
    · rw [blockComment_cons closes, blockComment_cons closes]
      split
      next => rfl
      next => rw [Nat.add_right_comm, ih]

private theorem blockComment_parallel (spansLines : Bool) (text : List Char) :
    CommentEnd.Parallel text (withReturns text) (blockComment 0 spansLines text)
      (blockComment 0 spansLines (withReturns text)) := by
  have plain : ∀ {c : Char} {rest : List Char}, c ≠ '*' → ¬ (c = '*' ∧ rest.head? = some '/') :=
    fun apart closes => apart closes.1
  induction text generalizing spansLines with
  | nil => exact .endOfInput _ _
  | cons c rest ih =>
    by_cases newline : c = '\n'
    · subst newline
      rw [withReturns_newline, blockComment_cons (plain (by decide)), blockComment_cons (plain (by decide)),
        blockComment_cons (plain (by decide)), if_neg (by decide), if_neg (by decide), if_neg (by decide),
        show (spansLines || '\r' == '\n' || '\n' == '\n') = (spansLines || '\n' == '\n') by simp,
        Nat.add_assoc 0 1 1, blockComment_shift 0 1, blockComment_shift 0 (1 + 1)]
      exact (ih _).behind ['\n'] ['\r', '\n']
    · by_cases closes : c = '*' ∧ rest.head? = some '/'
      · obtain ⟨rfl, slash⟩ := closes
        obtain ⟨tail, rfl⟩ := List.head?_eq_some_iff.mp slash
        rw [withReturns_cons newline, withReturns_cons (by decide)]
        exact .closed spansLines rfl
      · have closesNot : ¬ (c = '*' ∧ (withReturns rest).head? = some '/') := by
          rwa [withReturns_head rest (by decide) (by decide)]
        rw [withReturns_cons newline, blockComment_cons closes, blockComment_cons closesNot]
        split
        next => exact .nul _ _
        next =>
          rw [blockComment_shift 0 1, blockComment_shift 0 1]
          exact (ih _).behind [c] [c]

/-- What stands behind the blanks of a text, and behind those of the text with returns. -/
inductive Landmark.Parallel (text text' : List Char) : Nat × Landmark → Nat × Landmark → Prop
  | token {stop stop' : Nat} {first : Char} (apart : first ≠ '\n')
      (behind : text'.drop stop' = withReturns (text.drop stop)) :
      Parallel text text' (stop, .token first) (stop', .token first)
  | lineEnd {stop stop' size size' : Nat} (behind : text'.drop (stop' + size') = withReturns (text.drop (stop + size))) :
      Parallel text text' (stop, .lineEnd size) (stop', .lineEnd size')
  | openComment (stop stop' size size' : Nat) :
      Parallel text text' (stop, .openComment size) (stop', .openComment size')
  | nulInComment (stop stop' size size' : Nat) :
      Parallel text text' (stop, .nulInComment size) (stop', .nulInComment size')
  | endOfInput (stop stop' : Nat) : Parallel text text' (stop, .endOfInput) (stop', .endOfInput)

theorem gap_shift (armed : Bool) (skip length more : Nat) (text : List Char) :
    gap armed skip (length + more) text = ((gap armed skip length text).1 + more, (gap armed skip length text).2) := by
  rw [gap_skip, gap_skip armed skip length]
  generalize text.drop skip = text
  induction length, text using Gap.turns armed with
  | halt length text landmark halts => rw [halts.gap, halts.gap]
  | pass length text taken passes ih => rw [passes.gap, passes.gap length, Nat.add_right_comm, ih]

theorem Landmark.Parallel.behind {armed : Bool} {rest rest' : List Char}
    (parallel : Parallel rest rest' (gap armed 0 0 rest) (gap armed 0 0 rest')) (front front' : List Char) :
    Parallel (front ++ rest) (front' ++ rest') (gap armed 0 front.length rest) (gap armed 0 front'.length rest') := by
  rw [← Nat.zero_add front.length, ← Nat.zero_add front'.length, gap_shift, gap_shift]
  generalize gap armed 0 0 rest = found at parallel
  generalize gap armed 0 0 rest' = found' at parallel
  cases parallel with
  | token apart same =>
      exact .token apart (by simp only [Nat.add_comm _ (List.length _), List.drop_length_add_append, same])
  | lineEnd same => exact .lineEnd (by simp only [Nat.add_comm _ (List.length _), Nat.add_assoc, List.drop_length_add_append, same])
  | openComment => exact .openComment _ _ _ _
  | nulInComment => exact .nulInComment _ _ _ _
  | endOfInput => exact .endOfInput _ _

theorem Landmark.Parallel.newline {rest : List Char}
    (later : Parallel rest (withReturns rest) (gap false 0 0 rest) (gap false 0 0 (withReturns rest))) (armed : Bool) :
    Parallel ('\n' :: rest) ('\n' :: withReturns rest) (gap armed 0 0 ('\n' :: rest))
      (gap armed 0 0 ('\n' :: withReturns rest)) := by
  cases armed with
  | true => exact .lineEnd rfl
  | false => exact later.behind ['\n'] ['\n']

private theorem gap_line {armed : Bool} {line : List Char} (oneLine : '\n' ∉ line) (tail : List Char) :
    gap armed 0 0 ('/' :: '/' :: (line ++ '\n' :: tail)) = gap armed 0 (line.length + 2) ('\n' :: tail) := by
  have passes : Gap.Passes armed ('/' :: '/' :: (line ++ '\n' :: tail)) _ := .line
  rw [takeWhile_lineEnd oneLine (.inr rfl), Nat.add_comm] at passes
  rw [passes.gap, Nat.zero_add, List.drop_succ_cons, List.drop_succ_cons, List.drop_left]

private theorem gap_lastLine {armed : Bool} {line : List Char} (oneLine : '\n' ∉ line) :
    gap armed 0 0 ('/' :: '/' :: line) = (line.length + 2, .endOfInput) := by
  have whole : line.takeWhile (· != '\n') = line := by simpa using takeWhile_lineEnd oneLine (.inl rfl)
  have passes : Gap.Passes armed ('/' :: '/' :: line) _ := .line
  rw [whole, Nat.add_comm] at passes
  rw [passes.gap, Nat.zero_add, List.drop_succ_cons, List.drop_succ_cons, List.drop_length]
  rfl

/-- Behind a block comment with or without returns the rest of the text is reached. -/
private theorem gap_comment_parallel {armed : Bool} {tail : List Char} (later : ∀ rest : List Char, rest.length ≤ tail.length →
      Landmark.Parallel rest (withReturns rest) (gap armed 0 0 rest) (gap armed 0 0 (withReturns rest))) :
    Landmark.Parallel ('/' :: '*' :: tail) ('/' :: '*' :: withReturns tail) (gap armed 0 0 ('/' :: '*' :: tail))
      (gap armed 0 0 ('/' :: '*' :: withReturns tail)) := by
  have comment := (blockComment_parallel false tail).behind ['/', '*'] ['/', '*']
  simp only [List.length_cons, List.length_nil, Nat.zero_add, Nat.reduceAdd, ← blockComment_shift, List.cons_append,
    List.nil_append] at comment
  rcases read : blockComment 2 false tail with ⟨taken, ending⟩
  rcases read' : blockComment 2 false (withReturns tail) with ⟨taken', ending'⟩
  rw [read, read'] at comment
  cases comment with
  | nul =>
    rw [(Gap.Halts.nul read).gap, (Gap.Halts.nul read').gap]
    exact .nulInComment _ _ _ _
  | endOfInput =>
    rw [(Gap.Halts.unclosed read).gap, (Gap.Halts.unclosed read').gap]
    exact .openComment _ _ _ _
  | closed spansLines behind =>
    cases breaks : spansLines && armed with
    | true =>
      rw [(Gap.Halts.comment read breaks).gap, (Gap.Halts.comment read' breaks).gap]
      exact .lineEnd (by simpa using behind)
    | false =>
      have passes := Gap.Passes.comment read breaks
      have passes' := Gap.Passes.comment read' breaks
      obtain ⟨least, inside⟩ := blockComment_within read
      have rest := later (('/' :: '*' :: tail).drop taken) (by simp only [List.length_drop, List.length_cons]; omega)
      rw [← behind] at rest
      have found := rest.behind (('/' :: '*' :: tail).take taken) (('/' :: '*' :: withReturns tail).take taken')
      rw [List.take_append_drop, List.take_append_drop, List.length_take_of_le passes.within.2,
        List.length_take_of_le passes'.within.2] at found
      rwa [passes.gap, passes'.gap, Nat.zero_add, Nat.zero_add]

/-- The stretch between two tokens ends at the same place with returns. -/
theorem gap_parallel (armed : Bool) (text : List Char) :
    Landmark.Parallel text (withReturns text) (gap armed 0 0 text) (gap armed 0 0 (withReturns text)) := by
  rcases Gap.passes_or_halts armed text with ⟨taken, passes⟩ | ⟨landmark, halts⟩
  · cases passes with
    | @blank c rest horizontal =>
      have apart : c ≠ '\n' := by
        rintro rfl
        cases horizontal
      rw [withReturns_cons apart, (Gap.Passes.blank horizontal).gap, (Gap.Passes.blank horizontal).gap]
      exact (gap_parallel armed rest).behind [c] [c]
    | @newline rest => exact ((gap_parallel false rest).newline armed).behind [] ['\r']
    | @line rest =>
      rw [withReturns_cons (by decide), withReturns_cons (by decide)]
      by_cases several : '\n' ∈ rest
      · obtain ⟨line, tail, rfl, oneLine, withEnd⟩ := exists_firstLine several
        have oneLine' : '\n' ∉ line ++ ['\r'] := by simp [oneLine]
        have same : line ++ '\r' :: '\n' :: withReturns tail = (line ++ ['\r']) ++ '\n' :: withReturns tail := by simp
        rw [withEnd, same, gap_line oneLine, gap_line oneLine']
        exact ((gap_parallel false tail).newline armed).behind ('/' :: '/' :: line) ('/' :: '/' :: (line ++ ['\r']))
      · -- The comment goes to the end of the text.
        rw [withReturns_line several, gap_lastLine several]
        exact .endOfInput _ _
    | @comment rest =>
      rw [withReturns_cons (by decide), withReturns_cons (by decide)]
      exact gap_comment_parallel fun rest' shorter => gap_parallel armed rest'
  · cases halts with
    | ended => exact .endOfInput _ _
    | @newline rest => exact ((gap_parallel false rest).newline armed).behind [] ['\r']
    | @comment rest | @nul rest | @unclosed rest =>
      rw [withReturns_cons (by decide), withReturns_cons (by decide)]
      exact gap_comment_parallel fun rest' shorter => gap_parallel armed rest'
    | @token c rest notHorizontal notNewline noComment =>
      have noComment' : ∀ mark, mark = '/' ∨ mark = '*' → ¬ (c = '/' ∧ (withReturns rest).head? = some mark) := by
        rintro mark (rfl | rfl)
        all_goals
          rw [withReturns_head rest (by decide) (by decide)]
          exact noComment _ (by simp)
      rw [withReturns_cons notNewline, (Gap.Halts.token notHorizontal notNewline noComment).gap,
        (Gap.Halts.token notHorizontal notNewline noComment').gap]
      exact .token notNewline (withReturns_cons notNewline rest).symm
termination_by text.length
decreasing_by
  all_goals subst_vars
  all_goals simp_wf
  all_goals omega

end GoPrompt
