import GoPrompt.Proofs.Lexical.Tokens

/-! What becomes of the stretch in front of a token when the text goes on. A landmark stays where it is when
a blank follows the text, and a longer text has the landmarks of the shorter one, up to its end. -/

namespace GoPrompt

theorem blockComment_cons {c : Char} {rest : List Char} (unclosed : ¬ (c = '*' ∧ rest.head? = some '/')) (length : Nat)
    (spansLines : Bool) : blockComment length spansLines (c :: rest) =
      if c = '\x00' then (length, .nul) else blockComment (length + 1) (spansLines || c == '\n') rest := by
  rw [blockComment]
  rintro tail rfl rfl
  exact unclosed ⟨rfl, rfl⟩

/-- The end of a block comment is found where it is, or the shorter text ends first. -/
private theorem blockComment_append (text more : List Char) (length : Nat) (spansLines : Bool) :
    blockComment length spansLines (text ++ more) = blockComment length spansLines text ∨
      (blockComment length spansLines text = (length + text.length, .endOfInput) ∧
        ∀ spans, (blockComment length spansLines (text ++ more)).2 = .closed spans →
          length + text.length < (blockComment length spansLines (text ++ more)).1) := by
  induction text generalizing length spansLines with
  | nil =>
    refine .inr ⟨rfl, fun spans closed => ?_⟩
    have := (blockComment_closed closed).1
    simp only [List.length_nil]
    exact Nat.lt_of_lt_of_le (by omega) this
  | cons c rest ih =>
    by_cases closes : c = '*' ∧ rest.head? = some '/'
    · obtain ⟨rfl, slash⟩ := closes
      cases rest with
      | nil => cases slash
      | cons d tail =>
        obtain rfl : d = '/' := by simpa using slash
        exact .inl (by simp [blockComment])
    · rw [blockComment_cons closes]
      by_cases closesLater : c = '*' ∧ (rest ++ more).head? = some '/'
      · obtain ⟨rfl, slash⟩ := closesLater
        cases rest with
        | cons d tail => exact absurd ⟨rfl, by simpa using slash⟩ closes
        | nil =>
          cases more with
          | nil => cases slash
          | cons d tail =>
            obtain rfl : d = '/' := by simpa using slash
            exact .inr ⟨rfl, fun _ _ => by simp [blockComment]⟩
      · rw [List.cons_append, blockComment_cons closesLater]
        split
        · exact .inl rfl
        · refine (ih (length + 1) (spansLines || c == '\n')).imp_right fun ⟨ended, closed⟩ =>
            ⟨?_, fun spans isClosed => ?_⟩
          · rw [ended, List.length_cons]
            congr 1
            omega
          · have := closed spans isClosed
            simp only [List.length_cons]
            omega

namespace Landmark

/-- How many characters make up a token or a line end, as far as the landmark tells. -/
def reach : Landmark → Option Nat
  | token _ => some 1
  | lineEnd length => some length
  | openComment _ | nulInComment _ | endOfInput => none

/-- Whether the landmark is still there when the text goes on with `more`. What `more` starts with matters only to a
slash at the end of the text. -/
def Stays (atEnd : Prop) (more : List Char) : Landmark → Prop
  | token first => atEnd → first = '/' → ∀ c ∈ more.head?, c ≠ '/' ∧ c ≠ '*'
  | lineEnd _ | nulInComment _ => True
  | openComment _ | endOfInput => False

end Landmark

theorem takeWhile_lineEnd {line more : List Char} (single : '\n' ∉ line) (ends : more = [] ∨ more.head? = some '\n') :
    (line ++ more).takeWhile (· != '\n') = line := by
  have onLine : ∀ d ∈ line, (d != '\n') = true := fun d mem => bne_iff_ne.mpr fun same => single (same ▸ mem)
  have stops : more.takeWhile (· != '\n') = [] := by
    rcases ends with rfl | starts
    · rfl
    · obtain ⟨later, rfl⟩ := List.head?_eq_some_iff.mp starts
      rfl
  rw [List.takeWhile_append_of_pos onLine, stops, List.append_nil]

namespace Gap

section

variable {armed : Bool} {text : List Char} {taken : Nat} {landmark : Landmark}

/-- A turn that passes is the same in a longer text, or it goes on in a line comment up to the end of the line. -/
theorem Passes.append (passes : Passes armed text taken) : (∀ more, Passes armed (text ++ more) taken) ∨
    taken = text.length ∧ ∀ more, Passes armed (text ++ more) (text.length + (more.takeWhile (· != '\n')).length) := by
  cases passes with
  | blank horizontal => exact .inl fun more => .blank horizontal
  | newline unarmed => exact .inl fun more => .newline unarmed
  | @line rest =>
    have longer : ∀ more,
        Passes armed ('/' :: '/' :: (rest ++ more)) (2 + ((rest ++ more).takeWhile (· != '\n')).length) :=
      fun more => .line
    by_cases whole : (rest.takeWhile (· != '\n')).length = rest.length
    · refine .inr ⟨by rw [whole, Nat.add_comm]; rfl, fun more => ?_⟩
      have onward := longer more
      rwa [List.takeWhile_append, if_pos whole, List.length_append, ← Nat.add_assoc, Nat.add_comm 2] at onward
    · refine .inl fun more => ?_
      have same := longer more
      rwa [List.takeWhile_append, if_neg whole] at same
  | @comment rest taken _ read keeps =>
    refine .inl fun more => ?_
    have same := (blockComment_append rest more 2 false).resolve_right fun ended => by cases read.symm.trans ended.1
    exact .comment (same.trans read) keeps

/-- What the first turn on a longer text takes or stands at is not all in the text. -/
def Beyond (armed : Bool) (text more : List Char) : Prop :=
  (∀ taken, Passes armed (text ++ more) taken → text.length < taken) ∧
    ∀ landmark size, Halts armed (text ++ more) landmark → landmark.reach = some size → text.length < size

private theorem Beyond.of_slash {mark : Char} {more : List Char} (isMark : mark = '/' ∨ mark = '*') :
    Beyond armed ['/'] (mark :: more) := by
  constructor
  · intro taken passes
    cases passes with
    | blank horizontal => exact absurd horizontal (by decide)
    | line => exact Nat.lt_of_lt_of_le Nat.one_lt_two (Nat.le_add_right 2 _)
    | comment read => exact Nat.lt_of_lt_of_le (by decide : 1 < 4) (blockComment_within read).1
  · intro landmark size halts reaches
    cases halts with
    | comment read =>
      obtain rfl := Option.some.inj reaches
      exact Nat.lt_of_lt_of_le (by decide : 1 < 4) (blockComment_within read).1
    | nul | unclosed => cases reaches
    | token _ _ noComment => exact absurd ⟨rfl, rfl⟩ (noComment mark isMark)

private theorem Beyond.of_unclosed {rest more : List Char}
    (closes : ∀ spans, (blockComment 2 false (rest ++ more)).2 = .closed spans → 2 + rest.length < (blockComment 2 false (rest ++ more)).1) :
    Beyond armed ('/' :: '*' :: rest) more := by
  have far : ∀ {taken : Nat} {spans : Bool}, blockComment 2 false (rest ++ more) = (taken, .closed spans) →
      ('/' :: '*' :: rest).length < taken := by
    intro taken spans read
    have closed := closes spans (by rw [read])
    rwa [read, Nat.add_comm] at closed
  constructor
  · intro taken passes
    cases passes with
    | blank horizontal => exact absurd horizontal (by decide)
    | comment read => exact far read
  · intro landmark size halts reaches
    cases halts with
    | comment read =>
      obtain rfl := Option.some.inj reaches
      exact far read
    | nul | unclosed => cases reaches
    | token _ _ noComment => exact absurd ⟨rfl, rfl⟩ (noComment '*' (.inr rfl))

/-- A turn that halts in front of the end halts at the same landmark in a longer text, unless it halts at a comment that
is not closed, or at a slash that the longer text makes a comment of. -/
theorem Halts.append (halts : Halts armed text landmark) (nonempty : text ≠ []) (more : List Char) :
    Halts armed (text ++ more) landmark ∨
      ((landmark = .openComment text.length ∨
        text = ['/'] ∧ landmark = .token '/' ∧ ∃ mark ∈ more.head?, mark = '/' ∨ mark = '*') ∧
          Beyond armed text more) := by
  cases halts with
  | ended => exact absurd rfl nonempty
  | newline isArmed => exact .inl (.newline isArmed)
  | @comment rest _ _ read breaks =>
    have same := (blockComment_append rest more 2 false).resolve_right fun ended => by cases read.symm.trans ended.1
    exact .inl (.comment (same.trans read) breaks)
  | @nul rest _ read =>
    have same := (blockComment_append rest more 2 false).resolve_right fun ended => by cases read.symm.trans ended.1
    exact .inl (.nul (same.trans read))
  | @unclosed rest _ read =>
    rcases blockComment_append rest more 2 false with same | ⟨ended, closes⟩
    · exact .inl (.unclosed (same.trans read))
    · obtain ⟨rfl, -⟩ := Prod.mk.inj (read.symm.trans ended)
      exact .inr ⟨.inl (by rw [Nat.add_comm]; rfl), .of_unclosed closes⟩
  | @token c rest notHorizontal notNewline noComment =>
    by_cases begins : c = '/' ∧ rest = [] ∧ ∃ mark ∈ more.head?, mark = '/' ∨ mark = '*'
    · obtain ⟨rfl, rfl, mark, starts, isMark⟩ := begins
      obtain ⟨tail, rfl⟩ := List.head?_eq_some_iff.mp starts
      exact .inr ⟨.inr ⟨rfl, rfl, mark, starts, isMark⟩, .of_slash isMark⟩
    · refine .inl (.token notHorizontal notNewline fun mark isMark follows => ?_)
      cases rest with
      | nil => exact begins ⟨follows.1, rfl, mark, follows.2, isMark⟩
      | cons d tail => exact noComment mark isMark follows

end

end Gap

section

variable {armed : Bool} {length stop : Nat} {text more : List Char} {landmark : Landmark}

/-- What stands for a line end lies within the text. -/
theorem gap_lineEnd_le {size : Nat} (found : gap armed 0 length text = (stop, .lineEnd size)) :
    stop + size ≤ length + text.length := by
  induction length, text using Gap.turns armed with
  | halt length text landmark halts =>
    obtain ⟨rfl, rfl⟩ := Prod.mk.inj ((halts.gap length).symm.trans found)
    cases halts with
    | newline => simp
    | comment read =>
      have within := blockComment_within read
      simp only [List.length_cons]
      omega
  | pass length text taken passes ih =>
    have later := ih ((passes.gap length).symm.trans found)
    have within := passes.within
    rw [List.length_drop] at later
    omega

/-- A landmark of a text stays where it is when the text goes on, unless it is the end of the text, or a slash there to
which a comment mark is added. -/
theorem gap_append (found : gap armed 0 length text = (stop, landmark))
    (stays : landmark.Stays (stop + 1 = length + text.length) more) :
    gap armed 0 length (text ++ more) = (stop, landmark) := by
  induction length, text using Gap.turns armed with
  | halt length text landmark' halts =>
    obtain ⟨rfl, rfl⟩ := Prod.mk.inj ((halts.gap length).symm.trans found)
    have nonempty : text ≠ [] := by
      rintro rfl
      cases halts with
      | ended => cases stays
    rcases halts.append nonempty more with same | ⟨rfl | ⟨rfl, rfl, mark, starts, isMark⟩, -⟩
    · exact same.gap length
    · cases stays
    · obtain ⟨notSlash, notStar⟩ := stays rfl rfl mark starts
      exact absurd isMark (not_or.mpr ⟨notSlash, notStar⟩)
  | pass length text taken passes ih =>
    have within := passes.within
    have later := (passes.gap length).symm.trans found
    rcases passes.append with same | ⟨rfl, -⟩
    · rw [(same more).gap, List.drop_append_of_le_length within.2]
      refine ih later ?_
      rwa [List.length_drop, show length + taken + (text.length - taken) = length + text.length by omega]
    · rw [List.drop_length] at later
      cases later
      cases stays

end

theorem gap_append_of_blank {more : List Char} (blank : StartsBlank more) {armed : Bool} {length stop : Nat}
    {text : List Char} {landmark : Landmark} (found : gap armed 0 length text = (stop, landmark))
    (there : landmark.reach.isSome = true) :
    gap armed 0 length (text ++ more) = (stop, landmark) := by
  refine gap_append found ?_
  cases landmark with
  | token first =>
    intro _ _ c starts
    have isBlank : isBlank c = true := by simpa [StartsBlank, Option.mem_def.mp starts] using blank
    constructor
    all_goals
      rintro rfl
      cases isBlank
  | lineEnd => trivial
  | openComment | nulInComment | endOfInput => cases there

theorem le_of_gap {armed : Bool} {skip length stop : Nat} {text : List Char} {landmark : Landmark}
    (found : gap armed skip length text = (stop, landmark)) : length ≤ stop :=
  (gap_holds armed skip length text found).1

/-- What a landmark of a longer text is in a text that ends at the landmark or behind it. -/
def CutsAt (armed : Bool) (length : Nat) (text : List Char) (stop : Nat) (landmark : Landmark) : Prop :=
  (∀ size, landmark.reach = some size → stop + size ≤ length + text.length →
    gap armed 0 length text = (stop, landmark)) ∧
    (stop = length + text.length → gap armed 0 length text = (stop, .endOfInput))

section

variable {armed : Bool} {length stop taken : Nat} {text more : List Char} {landmark : Landmark}

theorem CutsAt.beyond (far : length + text.length < stop ∨
      (stop ≠ length + text.length ∧ ∀ size, landmark.reach = some size → length + text.length < stop + size)) :
    CutsAt armed length text stop landmark := by
  refine ⟨fun size reaches within => ?_, fun ends => ?_⟩
  · rcases far with far | ⟨_, far⟩
    · omega
    · exact absurd within (Nat.not_le.mpr (far size reaches))
  · rcases far with far | ⟨apart, _⟩
    · omega
    · exact absurd ends apart

theorem CutsAt.resume (cuts : CutsAt armed (length + taken) (text.drop taken) stop landmark)
    (passes : Gap.Passes armed text taken) :
    CutsAt armed length text stop landmark := by
  have within := passes.within
  have size : length + taken + (text.drop taken).length = length + text.length := by
    rw [List.length_drop]
    omega
  unfold CutsAt at cuts ⊢
  rwa [size, ← passes.gap] at cuts

theorem CutsAt.nothing {later : Nat} (found : gap armed 0 later more = (stop, landmark)) (behind : length ≤ later) :
    CutsAt armed length [] stop landmark := by
  obtain ⟨reached, holds⟩ := gap_holds armed 0 later more found
  refine ⟨fun size reaches within => ?_, fun ends => by rw [ends]; rfl⟩
  have positive : 1 ≤ size := by
    cases landmark with
    | token => exact Nat.le_of_eq (Option.some.inj reaches)
    | lineEnd => exact Option.some.inj reaches ▸ holds.2
    | openComment | nulInComment | endOfInput => cases reaches
  rw [List.length_nil] at within
  omega

private theorem CutsAt.of_beyond (found : gap armed 0 length (text ++ more) = (stop, landmark)) (nonempty : text ≠ [])
    (beyond : Gap.Beyond armed text more) : CutsAt armed length text stop landmark := by
  have positive := List.length_pos_iff.mpr nonempty
  rcases Gap.passes_or_halts armed (text ++ more) with ⟨taken, passes⟩ | ⟨landmark', halts⟩
  · have far := beyond.1 taken passes
    have reached := le_of_gap ((passes.gap length).symm.trans found)
    exact .beyond (.inl (by omega))
  · obtain ⟨rfl, rfl⟩ := Prod.mk.inj ((halts.gap length).symm.trans found)
    refine .beyond (.inr ⟨by omega, fun size reaches => ?_⟩)
    have far := beyond.2 _ size halts reaches
    omega

theorem gap_of_append (found : gap armed 0 length (text ++ more) = (stop, landmark)) :
    CutsAt armed length text stop landmark := by
  induction length, text using Gap.turns armed with
  | halt length text landmark' halts =>
    by_cases empty : text = []
    · subst empty
      exact .nothing found (Nat.le_refl length)
    rcases halts.append empty more with same | ⟨-, beyond⟩
    · obtain ⟨rfl, rfl⟩ := Prod.mk.inj ((same.gap length).symm.trans found)
      have positive := List.length_pos_iff.mpr empty
      exact ⟨fun _ _ _ => halts.gap length, fun ends => by omega⟩
    · exact .of_beyond found empty beyond
  | pass length text taken passes ih =>
    rcases passes.append with same | ⟨rfl, onward⟩
    · rw [(same more).gap, List.drop_append_of_le_length passes.within.2] at found
      exact (ih found).resume passes
    · rw [(onward more).gap] at found
      refine CutsAt.resume ?_ passes
      rw [List.drop_length]
      exact .nothing found (by omega)

end

end GoPrompt
