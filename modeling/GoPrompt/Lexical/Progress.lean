import GoPrompt.Lexical.Scan

/-! Every token takes at least one character, and skipping never runs past the landmark that it finds.
This is why scanning ends. -/

namespace GoPrompt

namespace Number

theorem continues_digit {radix : Radix} {c : Char} (digit : c.isDigit = true) : continues radix c = true := by
  cases radix <;> simp [continues, Radix.base, isHexDigit, digit]

/-- The whole part of a number is empty only in front of a point. -/
theorem whole_or_point {c : Char} {rest : List Char} (starts : startsNumber c rest = true) {radix : Radix} {mark : Nat}
    (marked : announced (c :: rest) = (radix, mark)) :
    1 ≤ mark + (run radix ((c :: rest).drop mark)).length ∨
      ∃ after, (c :: rest).drop (mark + (run radix ((c :: rest).drop mark)).length) = '.' :: after := by
  by_cases digit : c.isDigit = true
  · left
    unfold announced at marked
    split at marked
    all_goals
      obtain ⟨rfl, rfl⟩ := Prod.mk.inj marked
      first | omega | simp [run, continues_digit digit]
  · right
    have point : c = '.' := by
      simp only [startsNumber, Bool.or_eq_true, Bool.and_eq_true, beq_iff_eq] at starts
      rcases starts with isDigit | ⟨isPoint, _⟩
      · exact absurd isDigit digit
      · exact isPoint
    subst point
    simp only [announced] at marked
    obtain ⟨rfl, rfl⟩ := marked
    exact ⟨rest, by simp [run, continues, Radix.base]⟩

/-- The length that a reader has covered, whether it succeeds or fails. -/
def covered {α : Type} (length : α → Nat) : Except Fault α → Nat
  | .ok value => length value
  | .error fault => fault.length

theorem one_le_covered_mantissa {c : Char} {rest : List Char} (starts : startsNumber c rest = true) :
    1 ≤ covered Mantissa.length (mantissa (c :: rest)) := by
  obtain ⟨radix, mark⟩ : ∃ marked, announced (c :: rest) = marked := ⟨_, rfl⟩
  rcases h : announced (c :: rest) with ⟨radix, mark⟩
  have start := whole_or_point starts h
  simp only [mantissa, h]
  split
  next after point =>
    split
    · simp [covered, bind, Except.bind]
    · simp only [bind, Except.bind]
      split <;> simp only [covered] <;> omega
  next noPoint =>
    have positive := start.resolve_right (fun ⟨after, point⟩ => noPoint after point)
    simp only [bind, Except.bind]
    split <;> simpa only [covered] using positive

theorem length_le_covered_exponentDigits (text : List Char) (length : Nat) :
    length ≤ covered Prod.snd (exponentDigits text length) := by
  unfold exponentDigits
  dsimp only
  split <;> simp only [covered] <;> omega

theorem length_le_covered_exponent (text : List Char) (mantissa : Mantissa) :
    mantissa.length ≤ covered Prod.snd (exponent text mantissa) := by
  have digits := length_le_covered_exponentDigits text (mantissa.length + 1)
  unfold exponent
  split <;> split <;> first | omega | (simp only [covered]; omega)

theorem one_le_covered_read {c : Char} {rest : List Char} (starts : startsNumber c rest = true) :
    1 ≤ covered Prod.snd (read (c :: rest)) := by
  have first := one_le_covered_mantissa starts
  unfold read
  cases h : mantissa (c :: rest) with
  | error fault => simpa only [h, covered, bind, Except.bind] using first
  | ok mantissa =>
    have second := length_le_covered_exponent (c :: rest) mantissa
    simp only [h, covered] at first
    cases e : exponent (c :: rest) mantissa with
    | error fault =>
      simp only [e, covered] at second
      simp only [e, covered, bind, Except.bind]
      omega
    | ok value =>
      obtain ⟨kind, length⟩ := value
      simp only [e, covered] at second
      simp only [e, bind, Except.bind]
      repeat' split
      all_goals simp_all only [covered]
      all_goals omega

theorem one_le_scan_length {c : Char} {rest : List Char} (starts : startsNumber c rest = true) :
    1 ≤ (scan (c :: rest)).length := by
  have positive := one_le_covered_read starts
  unfold scan
  cases h : read (c :: rest) with
  | ok value => simpa only [h, covered] using positive
  | error fault =>
    simp only [h, covered] at positive
    dsimp only
    split <;> exact positive

end Number

namespace Quoted

theorem length_le_body (quote : Char) (skip length units : Nat) (flaw : Option Flaw) (text : List Char) :
    length ≤ (body quote skip length units flaw text).length := by
  induction text generalizing skip length units flaw with
  | nil => simp [body]
  | cons c rest ih =>
    cases skip with
    | succ skip => exact ih skip length units flaw
    | zero =>
      unfold body
      split
      · exact Nat.le_succ length
      · split
        · exact Nat.le_refl length
        · split
          · split
            · exact Nat.le_trans (by omega) (ih _ _ _ _)
            · exact Nat.le_trans (by omega) (ih _ _ _ _)
            · dsimp only
              omega
          · exact Nat.le_trans (Nat.le_succ length) (ih _ _ _ _)

theorem one_le_scanString_length (text : List Char) : 1 ≤ (scanString text).length :=
  length_le_body doubleQuote 0 1 0 none (text.drop 1)

theorem one_le_scanRune_length (text : List Char) : 1 ≤ (scanRune text).length :=
  length_le_body singleQuote 0 1 0 none (text.drop 1)

theorem one_le_scanRawString_length (text : List Char) : 1 ≤ (scanRawString text).length := by
  unfold scanRawString
  dsimp only
  split <;> simp

end Quoted

theorem one_le_spelling_length (operator : Operator) : 1 ≤ operator.spelling.length := by
  cases operator <;> decide

/-- Every token takes at least one character. -/
theorem one_le_scanToken_length (first : Char) (rest : List Char) : 1 ≤ (scanToken first rest).length := by
  unfold scanToken
  dsimp only
  repeat' split
  · simp
  next starts => exact Number.one_le_scan_length starts
  · exact Quoted.one_le_scanString_length _
  · exact Quoted.one_le_scanRawString_length _
  · exact Quoted.one_le_scanRune_length _
  · exact Nat.le_refl 1
  · exact one_le_spelling_length _
  · exact Nat.le_refl 1

theorem blockComment_closed {length : Nat} {spansLines spans : Bool} {text : List Char}
    (closed : (blockComment length spansLines text).2 = .closed spans) :
    length + 2 ≤ (blockComment length spansLines text).1 ∧
    (blockComment length spansLines text).1 ≤ length + text.length := by
  fun_induction blockComment length spansLines text with
  | case1 => cases closed
  | case2 => exact ⟨Nat.le_refl _, by simp⟩
  | case3 => cases closed
  | case4 _ _ _ _ _ _ ih =>
    have := ih closed
    simp only [List.length_cons]
    omega

/-- A comment that is closed takes its marks, and no more than there is. -/
theorem blockComment_within {text : List Char} {taken : Nat} {spans : Bool}
    (read : blockComment 2 false text = (taken, .closed spans)) :
    4 ≤ taken ∧ taken ≤ text.length + 2 := by
  have bounds := blockComment_closed (show (blockComment 2 false text).2 = .closed spans by rw [read])
  rw [read] at bounds
  dsimp only at bounds
  omega

/-- Whether the text at a landmark is as the landmark says. -/
def Landmark.Holds (text : List Char) : Landmark → Prop
  | .token first => text.head? = some first
  | .lineEnd length => text ≠ [] ∧ 1 ≤ length
  | .openComment _ | .nulInComment _ => text ≠ []
  | .endOfInput => text = []

/-! One turn of the skipping passes a blank, a newline or a comment, or it halts at a landmark. -/

/-- Where the skipping passes `taken` characters at once. -/
inductive Gap.Passes (armed : Bool) : List Char → Nat → Prop
  | blank {c : Char} {rest : List Char} (horizontal : isHorizontalBlank c = true) : Passes armed (c :: rest) 1
  | newline {rest : List Char} (unarmed : armed = false) : Passes armed ('\n' :: rest) 1
  | line {rest : List Char} : Passes armed ('/' :: '/' :: rest) (2 + (rest.takeWhile (· != '\n')).length)
  | comment {rest : List Char} {taken : Nat} {spans : Bool} (read : blockComment 2 false rest = (taken, .closed spans))
      (keeps : (spans && armed) = false) : Passes armed ('/' :: '*' :: rest) taken

/-- Where the skipping halts. -/
inductive Gap.Halts (armed : Bool) : List Char → Landmark → Prop
  | ended : Halts armed [] .endOfInput
  | newline {rest : List Char} (isArmed : armed = true) : Halts armed ('\n' :: rest) (.lineEnd 1)
  | comment {rest : List Char} {taken : Nat} {spans : Bool} (read : blockComment 2 false rest = (taken, .closed spans))
      (breaks : (spans && armed) = true) : Halts armed ('/' :: '*' :: rest) (.lineEnd taken)
  | nul {rest : List Char} {taken : Nat} (read : blockComment 2 false rest = (taken, .nul)) :
      Halts armed ('/' :: '*' :: rest) (.nulInComment taken)
  | unclosed {rest : List Char} {taken : Nat} (read : blockComment 2 false rest = (taken, .endOfInput)) :
      Halts armed ('/' :: '*' :: rest) (.openComment taken)
  | token {c : Char} {rest : List Char} (notHorizontal : isHorizontalBlank c = false) (notNewline : c ≠ '\n')
      (noComment : ∀ mark, mark = '/' ∨ mark = '*' → ¬ (c = '/' ∧ rest.head? = some mark)) :
      Halts armed (c :: rest) (.token c)

theorem gap_skip (armed : Bool) (skip length : Nat) (text : List Char) :
    gap armed skip length text = gap armed 0 length (text.drop skip) := by
  induction text generalizing skip with
  | nil => simp [gap]
  | cons c rest ih =>
    cases skip with
    | zero => rfl
    | succ skip => exact ih skip

theorem gap_comment (armed : Bool) (length : Nat) (rest : List Char) : gap armed 0 length ('/' :: '*' :: rest) =
    match blockComment 2 false rest with
    | (taken, .closed spansLines) =>
      if spansLines && armed then (length, .lineEnd taken) else gap armed (taken - 1) (length + taken) ('*' :: rest)
    | (taken, .nul) => (length, .nulInComment taken)
    | (taken, .endOfInput) => (length, .openComment taken) := rfl

namespace Gap

section

variable {armed : Bool} {text : List Char} {taken : Nat} {landmark : Landmark}

theorem Passes.within (passes : Passes armed text taken) : 1 ≤ taken ∧ taken ≤ text.length := by
  cases passes with
  | blank | newline => exact ⟨Nat.le_refl 1, Nat.le_add_left 1 _⟩
  | @line rest =>
    have inside := (List.takeWhile_sublist (l := rest) (· != '\n')).length_le
    simp only [List.length_cons]
    omega
  | comment read =>
    have within := blockComment_within read
    simp only [List.length_cons]
    omega

theorem Halts.holds (halts : Halts armed text landmark) : landmark.Holds text := by
  cases halts with
  | ended => rfl
  | newline => exact ⟨List.cons_ne_nil _ _, Nat.le_refl 1⟩
  | comment read => exact ⟨List.cons_ne_nil _ _, by have := blockComment_within read; omega⟩
  | nul | unclosed => exact List.cons_ne_nil _ _
  | token => rfl

theorem Passes.gap (passes : Passes armed text taken) (length : Nat) :
    gap armed 0 length text = gap armed 0 (length + taken) (text.drop taken) := by
  cases passes with
  | blank horizontal =>
    rw [GoPrompt.gap, if_pos horizontal]
    rfl
  | newline unarmed =>
    subst unarmed
    rfl
  | line =>
    rw [GoPrompt.gap, if_neg (by decide), if_neg (by decide), if_pos ⟨rfl, rfl⟩, List.takeWhile_cons_of_pos (by decide),
      List.length_cons]
    dsimp only
    rw [gap_skip, Nat.add_comm 2, Nat.add_comm 1]
    rfl
  | @comment rest taken _ read keeps =>
    have within := blockComment_within read
    rw [gap_comment, read, List.drop_cons (i := taken) (by omega), ← gap_skip]
    exact if_neg (Bool.eq_false_iff.mp keeps)

theorem Halts.gap (halts : Halts armed text landmark) (length : Nat) :
    gap armed 0 length text = (length, landmark) := by
  cases halts with
  | ended => rfl
  | newline isArmed =>
    subst isArmed
    rfl
  | comment read breaks =>
    rw [gap_comment, read]
    exact if_pos breaks
  | nul read | unclosed read => rw [gap_comment, read]
  | token notHorizontal notNewline noComment =>
    rw [GoPrompt.gap, if_neg (Bool.eq_false_iff.mp notHorizontal), if_neg notNewline, if_neg (noComment _ (.inl rfl)),
      if_neg (noComment _ (.inr rfl))]

theorem Halts.of_ne_slash {c : Char} (notHorizontal : isHorizontalBlank c = false) (notNewline : c ≠ '\n')
    (notSlash : c ≠ '/') (rest : List Char) : Halts armed (c :: rest) (.token c) :=
  .token notHorizontal notNewline fun _ _ follows => notSlash follows.1

/-- Every text is passed or halted at. -/
theorem passes_or_halts (armed : Bool) (text : List Char) :
    (∃ taken, Passes armed text taken) ∨ ∃ landmark, Halts armed text landmark := by
  match text with
  | [] => exact .inr ⟨_, .ended⟩
  | c :: rest =>
    by_cases horizontal : isHorizontalBlank c = true
    · exact .inl ⟨_, .blank horizontal⟩
    by_cases newline : c = '\n'
    · subst newline
      cases isArmed : armed with
      | true => exact .inr ⟨_, .newline rfl⟩
      | false => exact .inl ⟨_, .newline rfl⟩
    by_cases line : c = '/' ∧ rest.head? = some '/'
    · obtain ⟨rfl, follows⟩ := line
      obtain ⟨rest, rfl⟩ := List.head?_eq_some_iff.mp follows
      exact .inl ⟨_, .line⟩
    by_cases comment : c = '/' ∧ rest.head? = some '*'
    · obtain ⟨rfl, follows⟩ := comment
      obtain ⟨rest, rfl⟩ := List.head?_eq_some_iff.mp follows
      rcases read : blockComment 2 false rest with ⟨taken, ending⟩
      cases ending with
      | nul => exact .inr ⟨_, .nul read⟩
      | endOfInput => exact .inr ⟨_, .unclosed read⟩
      | closed spans =>
        cases breaks : spans && armed with
        | true => exact .inr ⟨_, .comment read breaks⟩
        | false => exact .inl ⟨_, .comment read breaks⟩
    · refine .inr ⟨_, .token (Bool.eq_false_iff.mpr horizontal) newline ?_⟩
      rintro mark (rfl | rfl)
      · exact line
      · exact comment

end

/-- Induction over the turns of the skipping. -/
@[elab_as_elim]
theorem turns {motive : Nat → List Char → Prop} (armed : Bool)
    (halt : ∀ length text landmark, Halts armed text landmark → motive length text)
    (pass : ∀ length text taken, Passes armed text taken → motive (length + taken) (text.drop taken) → motive length text)
    (length : Nat) (text : List Char) : motive length text := by
  rcases passes_or_halts armed text with ⟨taken, passes⟩ | ⟨landmark, halts⟩
  · have within := passes.within
    exact pass length text taken passes (turns armed halt pass (length + taken) (text.drop taken))
  · exact halt length text landmark halts
termination_by text.length
decreasing_by
  rw [List.length_drop]
  omega

end Gap

/-- Skipping goes on from where it started to a landmark that is there. -/
theorem gap_holds (armed : Bool) (skip length : Nat) (text : List Char) {stop : Nat} {landmark : Landmark}
    (found : gap armed skip length text = (stop, landmark)) :
    length ≤ stop ∧ landmark.Holds (text.drop (skip + (stop - length))) := by
  rw [← List.drop_drop]
  rw [gap_skip] at found
  generalize text.drop skip = text at found ⊢
  induction length, text using Gap.turns armed with
  | halt length text landmark' halts =>
    obtain ⟨rfl, rfl⟩ := Prod.mk.inj ((halts.gap length).symm.trans found)
    rw [Nat.sub_self]
    exact ⟨Nat.le_refl _, halts.holds⟩
  | pass length text taken passes ih =>
    have later := ih ((passes.gap length).symm.trans found)
    rw [List.drop_drop, show taken + (stop - (length + taken)) = stop - length by omega] at later
    exact ⟨by omega, later.2⟩

end GoPrompt
