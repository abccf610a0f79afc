import GoPrompt.Proofs.Lexical.Gaps

/-! What stands between two tokens, piece by piece: blanks, newlines and complete comments. Skipping to the next
landmark takes whole pieces, and a lexer that is armed stops in front of the first one with a newline in it.

Texts without a token: blanks, newlines and complete comments. They are what a lexer that inserts no semicolon skips on
its way to the end of the text. -/

namespace GoPrompt

/-- A piece of a text that is no token. -/
inductive Filler where
  | blank (c : Char)
  | newline
  /-- The newline that ends the comment is not part of it. -/
  | lineComment (body : List Char)
  | blockComment (body : List Char)
  deriving DecidableEq, Repr

namespace Filler

def chars : Filler → List Char
  | blank c => [c]
  | newline => ['\n']
  | lineComment body => '/' :: '/' :: body
  | blockComment body => '/' :: '*' :: (body ++ ['*', '/'])

/-- Whether a newline stands in the piece, in white space or in a block comment. -/
def breaksLine : Filler → Bool
  | blank _ | lineComment _ => false
  | newline => true
  | blockComment body => body.contains '\n'

/-- Whether the piece is complete, and nothing more, in front of the text `behind`. -/
def IsComplete (behind : List Char) : Filler → Prop
  | blank c => c = ' ' ∨ c = '\t' ∨ c = '\r'
  | newline => True
  | lineComment body => '\n' ∉ body ∧ (behind = [] ∨ behind.head? = some '\n')
  | blockComment body => ¬ ['*', '/'] <:+: body

theorem chars_ne_nil (filler : Filler) : filler.chars ≠ [] := by cases filler <;> simp [chars]

theorem newline_mem (filler : Filler) (breaks : filler.breaksLine = true) : '\n' ∈ filler.chars := by
  cases filler with
  | blank | lineComment => cases breaks
  | newline => exact List.mem_singleton_self _
  | blockComment body =>
    have inside : '\n' ∈ body := List.contains_iff_mem.mp breaks
    simp [chars, inside]

end Filler

/-- Complete pieces, one behind the other, in front of the text `behind`. -/
def AreComplete (behind : List Char) : List Filler → Prop
  | [] => True
  | filler :: later => filler.IsComplete (later.flatMap Filler.chars ++ behind) ∧ AreComplete behind later

private theorem blockComment_split {length : Nat} {spansLines spans : Bool} {text : List Char}
    (closed : (blockComment length spansLines text).2 = .closed spans) :
    ∃ body rest, text = body ++ '*' :: '/' :: rest ∧ ¬ ['*', '/'] <:+: body ∧
      (blockComment length spansLines text).1 = length + body.length + 2 ∧
      spans = (spansLines || body.contains '\n') := by
  fun_induction blockComment length spansLines text with
  | case1 => cases closed
  | case2 length spansLines rest =>
    cases closed
    exact ⟨[], rest, rfl, by simp, rfl, by simp⟩
  | case3 => cases closed
  | case4 length spansLines c rest unclosed _ ih =>
    obtain ⟨body, rest, rfl, first, size, same⟩ := ih closed
    refine ⟨c :: body, rest, rfl, fun infix' => ?_, by rw [size, List.length_cons]; omega, ?_⟩
    · rcases List.infix_cons_iff.mp infix' with ⟨tail, starts⟩ | later
      · -- The mark would start at this character, where the comment is not closed.
        obtain ⟨rfl, follows⟩ := List.cons.inj starts
        exact unclosed (tail ++ '*' :: '/' :: rest) rfl (by rw [← follows]; rfl)
      · exact first later
    · rw [same, List.contains_cons, Bool.or_assoc, Bool.beq_comm]

private theorem blockComment_unclosed {length : Nat} {spansLines : Bool} {text : List Char}
    (ended : (blockComment length spansLines text).2 = .endOfInput) :
    ¬ ['*', '/'] <:+: text ∧ (blockComment length spansLines text).1 = length + text.length := by
  fun_induction blockComment length spansLines text with
  | case1 => exact ⟨by simp, rfl⟩
  | case2 => cases ended
  | case3 => cases ended
  | case4 length spansLines c rest unclosed _ ih =>
    obtain ⟨absent, size⟩ := ih ended
    refine ⟨fun infix' => ?_, by rw [size, List.length_cons]; omega⟩
    rcases List.infix_cons_iff.mp infix' with ⟨tail, starts⟩ | later
    · obtain ⟨rfl, rfl⟩ := List.cons.inj starts
      exact unclosed tail rfl rfl
    · exact absent later

/-- What a landmark says of the text at which the skipping stops. -/
def Landmark.Begins (armed : Bool) (behind : List Char) : Landmark → Prop
  | .token first => behind.head? = some first
  | .lineEnd length => armed = true ∧ ∃ (filler : Filler) (rest : List Char),
      behind = filler.chars ++ rest ∧ filler.IsComplete rest ∧
      filler.breaksLine = true ∧ length = filler.chars.length
  | .openComment length => length = behind.length ∧ ∃ body, behind = '/' :: '*' :: body ∧ ¬ ['*', '/'] <:+: body
  | .nulInComment _ => True
  | .endOfInput => behind = []

/-- A text that starts with complete pieces, which take `size` characters and keep an armed lexer in its line, up to a
landmark. -/
def SkipsTo (armed : Bool) (size : Nat) (text : List Char) (landmark : Landmark) : Prop :=
  ∃ fillers behind, text = fillers.flatMap Filler.chars ++ behind ∧ size = (fillers.flatMap Filler.chars).length ∧
    AreComplete behind fillers ∧ (armed = true → ∀ filler ∈ fillers, filler.breaksLine = false) ∧
      landmark.Begins armed behind

section

variable {armed : Bool} {size : Nat} {text : List Char} {landmark : Landmark} {filler : Filler}

theorem SkipsTo.nothing (begins : landmark.Begins armed text) : SkipsTo armed 0 text landmark :=
  ⟨[], text, rfl, rfl, trivial, fun _ _ mem => absurd mem List.not_mem_nil, begins⟩

theorem SkipsTo.cons (later : SkipsTo armed size text landmark) (complete : filler.IsComplete text)
    (keeps : armed = true → filler.breaksLine = false) :
    SkipsTo armed (filler.chars.length + size) (filler.chars ++ text) landmark := by
  obtain ⟨fillers, behind, rfl, rfl, complete', keeps', begins⟩ := later
  refine ⟨filler :: fillers, behind, ?_, ?_, ⟨complete, complete'⟩, fun isArmed => ?_, begins⟩
  · rw [List.flatMap_cons, List.append_assoc]
  · rw [List.flatMap_cons, List.length_append]
  · rintro other (_ | ⟨_, mem⟩)
    · exact keeps isArmed
    · exact keeps' isArmed other mem

theorem SkipsTo.resume {length stop : Nat} (later : SkipsTo armed (stop - (length + filler.chars.length)) text landmark)
    (reached : length + filler.chars.length ≤ stop) (complete : filler.IsComplete text)
    (keeps : armed = true → filler.breaksLine = false) :
    SkipsTo armed (stop - length) (filler.chars ++ text) landmark := by
  have skips := later.cons complete keeps
  rwa [show filler.chars.length + (stop - (length + filler.chars.length)) = stop - length by omega] at skips

end

private theorem lineComment_chars (rest : List Char) :
    (Filler.lineComment (rest.takeWhile (· != '\n'))).chars ++ rest.dropWhile (· != '\n') = '/' :: '/' :: rest := by
  rw [Filler.chars, List.cons_append, List.cons_append, List.takeWhile_append_dropWhile]

private theorem lineComment_complete (rest : List Char) :
    (Filler.lineComment (rest.takeWhile (· != '\n'))).IsComplete (rest.dropWhile (· != '\n')) := by
  refine ⟨fun mem => ?_, ?_⟩
  · simpa using List.all_eq_true.mp (List.all_takeWhile (p := (· != '\n')) (l := rest)) _ mem
  · cases left : rest.dropWhile (· != '\n') with
    | nil => exact .inl rfl
    | cons c tail =>
      have stops := List.head?_dropWhile_not (p := (· != '\n')) (l := rest)
      rw [left] at stops
      exact .inr (by simpa using stops)

private theorem blockComment_chars (body rest : List Char) :
    (Filler.blockComment body).chars ++ rest = '/' :: '*' :: (body ++ '*' :: '/' :: rest) := by simp [Filler.chars]

private theorem blockComment_complete {taken : Nat} {spans : Bool} {text : List Char}
    (read : blockComment 2 false text = (taken, .closed spans)) :
    ∃ body rest, text = body ++ '*' :: '/' :: rest ∧ (Filler.blockComment body).IsComplete rest ∧
      taken = (Filler.blockComment body).chars.length ∧ spans = (Filler.blockComment body).breaksLine := by
  obtain ⟨body, rest, rfl, first, size, same⟩ :=
    blockComment_split (show (blockComment 2 false text).2 = .closed spans by rw [read])
  rw [read] at size
  refine ⟨body, rest, rfl, first, ?_, same⟩
  simp only [Filler.chars, List.length_cons, List.length_append, List.length_nil]
  dsimp only at size
  omega

/-- A turn that passes takes a complete piece, which keeps an armed lexer in its line. -/
theorem Gap.Passes.filler {armed : Bool} {taken : Nat} {text : List Char} (passes : Gap.Passes armed text taken) :
    ∃ (filler : Filler) (rest : List Char), text = filler.chars ++ rest ∧
    taken = filler.chars.length ∧ filler.IsComplete rest ∧
      (armed = true → filler.breaksLine = false) := by
  cases passes with
  | @blank c rest horizontal =>
    have isBlank : c = ' ' ∨ c = '\t' ∨ c = '\r' := by simpa [isHorizontalBlank, or_assoc] using horizontal
    exact ⟨.blank c, rest, rfl, rfl, isBlank, fun _ => rfl⟩
  | @newline rest unarmed =>
    refine ⟨.newline, rest, rfl, rfl, trivial, fun isArmed => ?_⟩
    cases unarmed.symm.trans isArmed
  | @line rest => exact ⟨_, _, (lineComment_chars rest).symm, Nat.add_comm 2 _, lineComment_complete rest, fun _ => rfl⟩
  | comment read keeps =>
    obtain ⟨body, rest, rfl, complete, rfl, rfl⟩ := blockComment_complete read
    exact ⟨_, rest, (blockComment_chars body rest).symm, rfl, complete, fun isArmed => by simpa [isArmed] using keeps⟩

theorem Gap.Halts.begins {armed : Bool} {landmark : Landmark} {text : List Char} (halts : Gap.Halts armed text landmark) :
    landmark.Begins armed text := by
  cases halts with
  | ended => exact Eq.refl []
  | @token c => exact Eq.refl (some c)
  | @newline rest isArmed => exact ⟨isArmed, .newline, rest, rfl, trivial, rfl, rfl⟩
  | comment read breaks =>
    obtain ⟨body, rest, rfl, complete, rfl, rfl⟩ := blockComment_complete read
    obtain ⟨breaks, isArmed⟩ := Bool.and_eq_true_iff.mp breaks
    exact ⟨isArmed, _, rest, (blockComment_chars body rest).symm, complete, breaks, rfl⟩
  | nul => trivial
  | @unclosed rest _ read =>
    obtain ⟨absent, size⟩ := blockComment_unclosed (show (blockComment 2 false rest).2 = .endOfInput by rw [read])
    rw [read] at size
    exact ⟨size.trans (Nat.add_comm 2 _), rest, rfl, absent⟩

theorem gap_skips {armed : Bool} {length stop : Nat} {text : List Char} {landmark : Landmark}
    (found : gap armed 0 length text = (stop, landmark)) : SkipsTo armed (stop - length) text landmark := by
  induction length, text using Gap.turns armed with
  | halt length text landmark' halts =>
    obtain ⟨rfl, rfl⟩ := Prod.mk.inj ((halts.gap length).symm.trans found)
    rw [Nat.sub_self]
    exact .nothing halts.begins
  | pass length text taken passes ih =>
    have later := (passes.gap length).symm.trans found
    obtain ⟨filler, rest, rfl, rfl, complete, keeps⟩ := passes.filler
    rw [List.drop_left] at ih later
    exact (ih later).resume (le_of_gap later) complete keeps

/-- Blanks, newlines and complete comments. -/
inductive IsTrivia : List Char → Prop
  | nil : IsTrivia []
  | blank {c : Char} {rest : List Char} (isBlank : isHorizontalBlank c = true ∨ c = '\n') (later : IsTrivia rest) :
      IsTrivia (c :: rest)
  /-- The newline that ends the comment is not part of it. -/
  | lineComment {body rest : List Char} (oneLine : '\n' ∉ body) (ends : rest = [] ∨ rest.head? = some '\n')
      (later : IsTrivia rest) : IsTrivia ('/' :: '/' :: (body ++ rest))
  | blockComment {body rest : List Char} (first : ¬ ['*', '/'] <:+: body) (later : IsTrivia rest) :
      IsTrivia ('/' :: '*' :: (body ++ '*' :: '/' :: rest))

/-- A text without a token, behind a byte-order mark if there is one. -/
def IsTokenFree (text : List Char) : Prop := IsTrivia text ∨ ∃ rest, text = byteOrderMark :: rest ∧ IsTrivia rest

private theorem isTrivia_of_complete {fillers : List Filler} (complete : AreComplete [] fillers) :
    IsTrivia (fillers.flatMap Filler.chars) := by
  induction fillers with
  | nil => exact .nil
  | cons filler fillers ih =>
    obtain ⟨whole, later⟩ := complete
    rw [List.append_nil] at whole
    rw [List.flatMap_cons]
    cases filler with
    | blank c =>
      have horizontal : isHorizontalBlank c = true := by rcases whole with rfl | rfl | rfl <;> rfl
      exact .blank (.inl horizontal) (ih later)
    | newline => exact .blank (.inr rfl) (ih later)
    | lineComment body => exact .lineComment whole.1 whole.2 (ih later)
    | blockComment body =>
      have parts : (Filler.blockComment body).chars ++ fillers.flatMap Filler.chars =
          '/' :: '*' :: (body ++ '*' :: '/' :: fillers.flatMap Filler.chars) := by simp [Filler.chars]
      rw [parts]
      exact .blockComment whole (ih later)

theorem isTrivia_of_gap {length stop : Nat} {text : List Char} (found : gap false 0 length text = (stop, .endOfInput)) :
    IsTrivia text := by
  obtain ⟨fillers, behind, rfl, -, complete, -, ended⟩ := gap_skips found
  obtain rfl : behind = [] := ended
  rw [List.append_nil]
  exact isTrivia_of_complete complete

end GoPrompt
