import GoPrompt.Proofs.Lexical.Newlines
import GoPrompt.Proofs.Lexical.Order

/-! The lexer between two tokens of a text. It has read the same tokens there when the text goes on behind a blank, and
it reads on behind the blank, unless the text ends in a comment that only the end of the line can end. -/

namespace GoPrompt

/-- What more text becomes behind a text that ends between tokens: it comes next, or the line that it begins with
belongs to the comment that the text ends with. -/
def TakesMore (armed : Bool) (length : Nat) (text : List Char) : Prop :=
  (∀ more, gap armed 0 length (text ++ more) = gap armed 0 (length + text.length) more) ∨
    ∀ line more, '\n' ∉ line → (more = [] ∨ more.head? = some '\n') →
      gap armed 0 length (text ++ (line ++ more)) = gap armed 0 (length + text.length + line.length) more

/-- Behind a turn that passes whatever follows, what is left of the text decides. -/
theorem TakesMore.resume {armed : Bool} {length taken : Nat} {text : List Char}
    (later : TakesMore armed (length + taken) (text.drop taken))
    (passes : ∀ more, Gap.Passes armed (text ++ more) taken) (within : taken ≤ text.length) :
    TakesMore armed length text := by
  have size : length + taken + (text.drop taken).length = length + text.length := by
    rw [List.length_drop]
    omega
  have skips : ∀ more, gap armed 0 length (text ++ more) = gap armed 0 (length + taken) (text.drop taken ++ more) := by
    intro more
    rw [(passes more).gap, List.drop_append_of_le_length within]
  unfold TakesMore at later ⊢
  rw [size] at later
  refine later.imp (fun onward more => ?_) (fun inComment line more single ends => ?_)
  · rw [skips, onward]
  · rw [skips, inComment line more single ends]

private theorem takesMore_of_gap {armed : Bool} {length stop : Nat} {text : List Char}
    (found : gap armed 0 length text = (stop, .endOfInput)) : TakesMore armed length text := by
  induction length, text using Gap.turns armed with
  | halt length text landmark halts =>
    obtain ⟨rfl, rfl⟩ := Prod.mk.inj ((halts.gap length).symm.trans found)
    cases halts with
    | ended => exact .inl fun more => rfl
  | pass length text taken passes ih =>
    rcases passes.append with same | ⟨-, onward⟩
    · exact (ih ((passes.gap length).symm.trans found)).resume same passes.within.2
    · refine .inr fun line more single ends => ?_
      rw [(onward (line ++ more)).gap, takeWhile_lineEnd single ends, ← List.drop_drop, List.drop_left, List.drop_left,
        Nat.add_assoc]

/-- What is skipped in front of a token is skipped in front of any other text as well. -/
theorem gap_instead {armed : Bool} {length : Nat} {front rest : List Char} {first : Char}
    (found : gap armed 0 length (front ++ first :: rest) = (length + front.length, .token first)) (tail : List Char) :
    gap armed 0 length (front ++ tail) = gap armed 0 (length + front.length) tail := by
  have ended := (gap_of_append found).2 rfl
  refine (takesMore_of_gap ended).elim (· tail) fun inComment => ?_
  -- The token is not in a comment of the text in front of it.
  by_cases newline : first = '\n'
  · subst newline
    have skipped : gap armed 0 (length + front.length) ('\n' :: rest) = (length + front.length, .token '\n') :=
      (inComment [] ('\n' :: rest) List.not_mem_nil (.inr rfl)).symm.trans found
    rw [gap, if_neg (by decide), if_pos rfl] at skipped
    split at skipped
    · cases skipped
    · exact absurd (le_of_gap skipped) (by omega)
  · have within := (gap_of_append (show gap armed 0 length ((front ++ [first]) ++ rest) =
      _ by rw [← found, List.append_assoc]; rfl)).1 1 rfl
      (by rw [List.length_append, List.length_singleton]; omega)
    have skipped := inComment [first] [] (by simpa using Ne.symm newline) (.inl rfl)
    rw [List.append_nil, within] at skipped
    cases congrArg Prod.snd skipped

/-- What a space and more of the line become behind a text that ends between tokens: they come next, or they belong to
the comment that the text ends with. -/
def TakesSpace (armed : Bool) (length : Nat) (text : List Char) : Prop :=
  (∀ more, gap armed 0 length (text ++ ' ' :: more) = gap armed 0 (length + text.length + 1) more) ∨
    ∀ more, '\n' ∉ more → (gap armed 0 length (text ++ ' ' :: more)).2 = .endOfInput

theorem takesSpace_of_gap {armed : Bool} {length stop : Nat} {text : List Char}
    (found : gap armed 0 length text = (stop, .endOfInput)) : TakesSpace armed length text := by
  refine (takesMore_of_gap found).imp (fun onward more => onward _) fun inComment more single => ?_
  have onLine : '\n' ∉ ' ' :: more := fun mem => (List.mem_cons.mp mem).elim nofun single
  have ended := inComment _ [] onLine (.inl rfl)
  rw [List.append_nil] at ended
  rw [ended]
  rfl

/-- Where the end of a line is no token, the next line is read behind what is skipped of a text. -/
theorem gap_nextLine {length stop : Nat} {text : List Char} (found : gap false 0 length text = (stop, .endOfInput))
    (more : List Char) :
    gap false 0 length (text ++ '\n' :: more) = gap false 0 (length + text.length + 1) more := by
  rcases takesMore_of_gap found with onward | inComment
  · exact onward ('\n' :: more)
  · exact inComment [] ('\n' :: more) List.not_mem_nil (.inr rfl)

/-- What a lexer that inserts a semicolon takes of the text for it. -/
def Landmark.lineLength : Landmark → Nat
  | lineEnd length => length
  | token _ | openComment _ | nulInComment _ | endOfInput => 0

theorem Gap.Passes.unarmed {text : List Char} {taken : Nat} (passes : Gap.Passes true text taken) :
    Gap.Passes false text taken := by
  cases passes with
  | blank horizontal => exact .blank horizontal
  | newline unarmed => cases unarmed
  | line => exact .line
  | comment read => exact .comment read (Bool.and_false _)

/-- Behind a line that ends a statement, a lexer that inserts no semicolon goes on in the same gap. -/
theorem gap_unarmed {length stop : Nat} {text : List Char} {landmark : Landmark}
    (found : gap true 0 length text = (stop, landmark)) :
    gap false 0 length text =
    gap false 0 (stop + landmark.lineLength) (text.drop (stop + landmark.lineLength - length)) := by
  induction length, text using Gap.turns true with
  | halt length text landmark' halts =>
    obtain ⟨rfl, rfl⟩ := Prod.mk.inj ((halts.gap length).symm.trans found)
    rw [Nat.add_sub_cancel_left]
    cases halts with
    | newline => rfl
    | comment read => exact (Gap.Passes.comment read (Bool.and_false _)).gap length
    | ended | nul | unclosed | token => rfl
  | pass length text taken passes ih =>
    have later := (passes.gap length).symm.trans found
    have reached := le_of_gap later
    rw [passes.unarmed.gap, ih later, List.drop_drop,
      show taken + (stop + landmark.lineLength - (length + taken)) = stop + landmark.lineLength - length by omega]

namespace Lexer

section

variable {lexer after last : Lexer} {token : Token} {tokens : List Token} {steps : List LexStep} {more : List Char}

theorem Reads.armed (reads : lexer.Reads (.token token) after) : after.armed = token.kind.terminatesLine := by
  generalize isStep : LexStep.token token = step at reads
  cases reads with
  | whole | lineEnd | inserted =>
    cases isStep
    rfl
  | cutOff | invalid | openComment | ended => cases isStep

private theorem Reads.token_withMore (blank : StartsBlank more) (reads : lexer.Reads (.token token) after)
    (written : ¬ token.IsInserted) :
    (lexer.withMore more).Reads (.token token) (after.withMore more) := by
  obtain ⟨step, _, _, reads', isToken, ⟨rfl, rfl⟩ | ⟨_, _, ⟨_, isCut⟩, _⟩⟩ := reads.withMore blank rfl written
  · cases step with
    | token =>
      cases isToken
      exact reads'
    | truncated =>
      cases isToken
      have unarmed := reads.armed.symm.trans reads'.truncated_ends.2
      obtain ⟨kind, isLiteral⟩ := reads'.kind
      rw [isLiteral] at unarmed
      cases unarmed
    | invalid =>
      cases isToken
      exact absurd reads'.kind reads.kind
    | incomplete | endOfInput => cases isToken
  · cases isCut

/-- The lexer reads tokens, none of them inserted at the end of the text, and is at another place then. -/
inductive Reaches : Lexer → List Token → Lexer → Prop
  | here (lexer : Lexer) : Reaches lexer [] lexer
  | token {lexer after last : Lexer} {token : Token} {tokens : List Token} (reads : lexer.Reads (.token token) after)
      (written : ¬ token.IsInserted) (later : Reaches after tokens last) : Reaches lexer (token :: tokens) last

theorem Reaches.withMore (blank : StartsBlank more) (reaches : lexer.Reaches tokens last) :
    (lexer.withMore more).Reaches tokens (last.withMore more) := by
  induction reaches with
  | here => exact .here _
  | token reads written _ ih => exact .token (reads.token_withMore blank written) written ih

theorem Reaches.lexes (reaches : lexer.Reaches tokens last) (lexes : last.Lexes steps) :
    lexer.Lexes (tokens.map LexStep.token ++ steps) := by
  induction reaches with
  | here => exact lexes
  | token reads _ _ ih => exact .more reads rfl (ih lexes)

theorem Reaches.not_inserted (reaches : lexer.Reaches tokens last) : ∀ token ∈ tokens, ¬ token.IsInserted := by
  induction reaches with
  | here => nofun
  | token _ written _ ih => exact List.forall_mem_cons.mpr ⟨written, ih⟩

theorem Reaches.count (reaches : lexer.Reaches tokens last) : lexer.offset + tokens.length ≤ last.offset := by
  induction reaches with
  | here => exact Nat.le_refl _
  | token reads written _ ih =>
    have begins := reads.span rfl
    have positive := reads.nonempty rfl written
    rw [List.length_cons]
    omega

theorem Reaches.armed (reaches : lexer.Reaches tokens last) :
    last.armed = (tokens.getLast?.map (·.kind.terminatesLine)).getD lexer.armed := by
  induction reaches with
  | here => rfl
  | token reads _ _ ih =>
    rw [ih, reads.armed, List.getLast?_cons]
    cases List.getLast? _ <;> rfl

theorem Reaches.offset (reaches : lexer.Reaches tokens last) :
    last.offset + byteSize last.rest = lexer.offset + byteSize lexer.rest ∧
    ∀ token ∈ tokens, token.span.stop ≤ last.offset := by
  induction reaches with
  | here => exact ⟨rfl, nofun⟩
  | token reads _ later ih =>
    obtain ⟨taken, splits, moved⟩ := reads.takes
    refine ⟨?_, fun found mem => ?_⟩
    · rw [ih.1, moved, splits, byteSize_append, Nat.add_assoc]
    · rcases List.mem_cons.mp mem with rfl | mem
      · rw [← (reads.span rfl).2]
        exact Nat.le_trans (Nat.le_add_right _ _) later.count
      · exact ih.2 found mem

/-- Behind its tokens there is nothing of a text to read, but for an inserted semicolon. -/
theorem Lexes.reaches (lexes : lexer.Lexes (tokens.map LexStep.token)) :
    ∃ written last ending stop, tokens = written ++ ending ∧
    lexer.Reaches written last ∧ gap last.armed 0 0 last.rest = (stop, .endOfInput) ∧
      ((ending = [] ∧ last.armed = false) ∨ ∃ token, ending = [token] ∧ token.IsInserted ∧ last.armed = true) := by
  generalize isSteps : tokens.map LexStep.token = steps at lexes
  induction lexes generalizing tokens with
  | ended reads =>
    cases reads with
    | ended skipped unarmed =>
      obtain rfl := List.map_eq_nil_iff.mp isSteps
      exact ⟨[], _, [], _, rfl, .here _, skipped, .inl ⟨rfl, unarmed⟩⟩
  | comment =>
    obtain ⟨_, _, _, isStep, _⟩ := List.map_eq_cons_iff.mp isSteps
    cases isStep
  | more reads _ later ih =>
    obtain ⟨token, tokens, rfl, rfl, rfl⟩ := List.map_eq_cons_iff.mp isSteps
    by_cases inserted : token.IsInserted
    · obtain ⟨empty, unarmed⟩ := reads.inserted_ends inserted
      obtain rfl := List.map_eq_nil_iff.mp (later.eq_nil empty unarmed)
      obtain ⟨stop, skipped, armed, -⟩ := reads.of_inserted inserted
      exact ⟨[], _, [token], stop, rfl, .here _, skipped, .inr ⟨token, rfl, inserted, armed⟩⟩
    · obtain ⟨written, last, ending, stop, rfl, reaches, ended, isEnding⟩ := ih rfl
      exact ⟨token :: written, last, ending, stop, rfl, .token reads inserted reaches, ended, isEnding⟩

end

end Lexer

end GoPrompt
