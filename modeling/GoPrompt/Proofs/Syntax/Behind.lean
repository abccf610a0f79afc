import GoPrompt.Proofs.Lexical.Reaches
import GoPrompt.Proofs.Runs.Parsed
import GoPrompt.Proofs.Syntax.Word

/-! Words behind a text. Where a name behind a blank would be a token of its own, the words behind a text are read as
the tokens that they are, behind those of the text. -/

namespace GoPrompt

/-- Whether a name behind a space would be a token of its own, which it is not in a comment. -/
def takesName (text : List Char) : Bool :=
  (Lexer.ofText 0 (text ++ [' ', 'x'])).steps.1.toOption.any (·.any fun step => step.token?.any fun token =>
    token.kind == .identifier && token.span.start == byteSize text + 1)

namespace Word

private theorem readBy_withMore (words : List Word) {last : Lexer} {stop : Nat} (ended : gap last.armed 0 0 last.rest = (stop, .endOfInput))
    (onward : ∀ more, gap last.armed 0 0 (last.rest ++ ' ' :: more) = gap last.armed 0 (0 + last.rest.length + 1) more) :
    ReadBy words (last.withMore (behind words)) := by
  cases words with
  | nil =>
    have same : last.withMore (behind []) = last := by simp [Lexer.withMore, behind]
    rw [same]
    exact readBy_nil ended
  | cons word later =>
    have here : (last.withMore (behind (word :: later))).rest =
        (last.rest ++ [' ']) ++ (word.lexeme ++ behind later) := by
      simp [Lexer.withMore, behind]
    obtain ⟨token, after, reads, kind, rest, _⟩ := word.reads_behind (startsBlank_behind later) here (by
      rw [here, List.append_assoc, List.length_append, ← Nat.zero_add last.rest.length]
      exact onward _)
    obtain ⟨tokens, ending, lexes, kinds, isEnding⟩ := behind_readBy later rest
    refine ⟨token :: tokens, ending, .more reads rfl lexes, ?_, isEnding⟩
    rw [List.map_cons, List.map_cons, List.cons_append, kind, kinds]

theorem behind_lexes (words : List Word) {more : List Char} (blank : StartsBlank more) {lexer : Lexer}
    (sound : lexer.Sound) (here : lexer.rest = behind words ++ more) : ∃ (tokens : List Token) (steps : List LexStep),
      lexer.Lexes (tokens.map LexStep.token ++ steps) ∧ tokens.map (·.kind) = words.map (·.kind) := by
  induction words generalizing lexer with
  | nil =>
    obtain ⟨steps, lexes⟩ := sound.lexes
    exact ⟨[], steps, lexes, rfl⟩
  | cons word later ih =>
    have startsBlank : StartsBlank (behind later ++ more) := by
      cases later with
      | nil => exact blank
      | cons => exact startsBlank_behind [word]
    obtain ⟨token, after, reads, kind, rest, _⟩ := word.reads (.inr rfl) startsBlank (by rw [here, behind]; simp)
    obtain ⟨tokens, steps, lexes, kinds⟩ := ih (reads.sound sound) rest
    exact ⟨token :: tokens, steps, .more reads rfl lexes, by rw [List.map_cons, List.map_cons, kind, kinds]⟩

theorem ofText_behind (text : List Char) (words : List Word) :
    Lexer.ofText 0 (text ++ behind words) = (Lexer.ofText 0 text).withMore (behind words) := by
  cases words with
  | nil => simp [behind, Lexer.withMore]
  | cons word later => exact Lexer.ofText_behind (by decide) 0 text _

end Word

theorem Encoded.append {text more : List Char} (encoded : Encoded text) (clean : Clean more) :
    Encoded (text ++ more) := by
  obtain ⟨noNul, noMark⟩ := encoded_iff.mp encoded
  refine encoded_iff.mpr ⟨fun mem => ?_, fun mem => ?_⟩
  · exact (List.mem_append.mp mem).elim noNul fun mem => (clean _ mem).1 rfl
  · cases text with
    | nil => exact (clean _ (List.mem_of_mem_tail mem)).2 rfl
    | cons c rest => exact (List.mem_append.mp mem).elim noMark fun mem => (clean _ mem).2 rfl

/-- Words behind a text with tokens of the given kinds are tokens of their own. -/
def TakesWords (text : List Char) (kinds : List TokenKind) : Prop :=
  ∀ words : List Word, byteSize (text ++ Word.behind words) ≤ maxOffset →
    ∃ (tokens : List Token) (ending : List TokenKind), Scans (text ++ Word.behind words) (tokens.map LexStep.token) ∧
      tokens.map (·.kind) = kinds ++ (words.map (·.kind) ++ ending) ∧ Word.IsEnding ending

/-- A text with tokens of the given kinds ends between two tokens, perhaps in a comment that the end of the
line ends. -/
structure EndsBetween (text : List Char) (kinds ending : List TokenKind) : Prop where
  written : .semicolon .endOfInput ∉ kinds
  isEnding : ending = [] ∨ (ending = [.semicolon .endOfInput] ∧ kinds.getLast?.any TokenKind.terminatesLine = true)
  count : kinds.length ≤ byteSize text
  reads : ∃ tokens : List Token, Scans text (tokens.map LexStep.token) ∧ tokens.map (·.kind) = kinds ++ ending
  takesWords : ∃ blank : List Char, byteSize blank ≤ 1 ∧ TakesWords (text ++ blank) kinds

section

variable {text : List Char} {written : List Token} {last : Lexer} {stop : Nat}

/-- In a comment no name is a token. -/
private theorem takesName_onward (encoded : Encoded text) (fits : byteSize text + 2 ≤ maxOffset)
    (takes : takesName text = true) (reaches : (Lexer.ofText 0 text).Reaches written last)
    (ended : gap last.armed 0 0 last.rest = (stop, .endOfInput)) (more : List Char) :
    gap last.armed 0 0 (last.rest ++ ' ' :: more) = gap last.armed 0 (0 + last.rest.length + 1) more := by
  refine (takesSpace_of_gap ended).resolve_right (fun comment => ?_) more
  have clean : Clean [' ', 'x'] := by decide
  have sound : (Lexer.ofText 0 (text ++ [' ', 'x'])).Sound := Lexer.ofText_sound (encoded.append clean) (by
    rw [byteSize_append]
    exact fits)
  have single : '\n' ∉ ['x'] := by decide
  have ended' : ∃ stop,
      gap (last.withMore [' ', 'x']).armed 0 0 (last.withMore [' ', 'x']).rest = (stop, .endOfInput) :=
    ⟨_, Prod.ext rfl (comment ['x'] single)⟩
  obtain ⟨_, ended'⟩ := ended'
  obtain ⟨others, ending, later, kinds, isEnding⟩ := Word.readBy_nil ended'
  have blank : StartsBlank [' ', 'x'] := rfl
  have lexes := (reaches.withMore blank).lexes later
  rw [← Lexer.ofText_behind (by decide)] at lexes
  simp only [takesName, lexes.steps_eq sound, Except.toOption, Option.any_some, List.any_eq_true, Option.any_eq_true,
    Bool.and_eq_true, beq_iff_eq, ← List.map_append, List.mem_map] at takes
  obtain ⟨_, ⟨token, mem, rfl⟩, _, ⟨⟩, isName, start⟩ := takes
  rcases List.mem_append.mp mem with before | behind
  · -- The tokens of the text are in front of the space.
    have within := reaches.offset.2 token before
    have ordered := token.span.ordered
    have size := reaches.offset.1
    rw [Lexer.ofText_size] at size
    omega
  · -- The only other one is inserted.
    have inserted := List.mem_map_of_mem (f := (·.kind)) behind
    rw [kinds, List.map_nil, List.nil_append, isName] at inserted
    rcases isEnding with rfl | rfl
    · cases inserted
    · cases List.mem_singleton.mp inserted

private theorem takesWords_of_onward (encoded : Encoded text) (reaches : (Lexer.ofText 0 text).Reaches written last)
    (ended : gap last.armed 0 0 last.rest = (stop, .endOfInput))
    (onward : ∀ more, gap last.armed 0 0 (last.rest ++ ' ' :: more) = gap last.armed 0 (0 + last.rest.length + 1) more) :
    TakesWords text (written.map (·.kind)) := by
  intro words room
  obtain ⟨others, ending, later, kinds, isEnding⟩ := Word.readBy_withMore words ended onward
  refine ⟨written ++ others, ending, ⟨encoded.append (Word.clean_behind words), room, ?_⟩, ?_, isEnding⟩
  · rw [Word.ofText_behind, List.map_append]
    exact (reaches.withMore (Word.startsBlank_behind words)).lexes later
  · rw [List.map_append, kinds]

private theorem takesWords_nextLine (encoded : Encoded text) (reaches : (Lexer.ofText 0 text).Reaches written last)
    (unarmed : last.armed = false) (ended : gap last.armed 0 0 last.rest = (stop, .endOfInput)) :
    TakesWords (text ++ ['\n']) (written.map (·.kind)) := by
  rw [unarmed] at ended
  have reaches' : ((Lexer.ofText 0 text).withMore ['\n']).Reaches written (last.withMore ['\n']) := reaches.withMore rfl
  rw [← Lexer.ofText_behind (by decide)] at reaches'
  have skips : ∀ more, gap (last.withMore ['\n']).armed 0 0 ((last.withMore ['\n']).rest ++ more) =
      gap (last.withMore ['\n']).armed 0 (0 + last.rest.length + 1) more := fun more => by
    simp only [Lexer.withMore, unarmed, List.append_assoc, List.singleton_append]
    exact gap_nextLine ended more
  refine takesWords_of_onward (encoded.append (by decide)) reaches'
    (by rw [← List.append_nil (last.withMore _).rest, skips]; rfl)
    fun more => ?_
  rw [skips, Lexer.withMore, List.length_append]
  rfl

end

/-- Whether the end of the input ends the statement, too. -/
def insertsSemicolon (text : List Char) : Bool :=
  (Lexer.ofText 0 text).steps.1.toOption.any (·.any fun step => step.token?.any (·.kind == .semicolon .endOfInput))

theorem Scans.endsBetween {text : List Char} {tokens : List Token} (scans : Scans text (tokens.map LexStep.token))
    (fits : byteSize text + 2 ≤ maxOffset) (opens : takesName text = true ∨ insertsSemicolon text = false) :
    ∃ kinds ending, EndsBetween text kinds ending := by
  obtain ⟨written, last, ending, stop, rfl, reaches, ended, isEnding⟩ := scans.lexes.reaches
  refine ⟨written.map (·.kind), ending.map (·.kind), ?_, ?_, ?_, ⟨_, scans, List.map_append⟩, ?_⟩
  · intro mem
    obtain ⟨token, mem, inserted⟩ := List.mem_map.mp mem
    exact reaches.not_inserted token mem inserted
  · rcases isEnding with ⟨rfl, -⟩ | ⟨token, rfl, inserted, armed⟩
    · exact .inl rfl
    · refine .inr ⟨congrArg (fun kind => [kind]) inserted, ?_⟩
      have unarmed : (Lexer.ofText 0 text).armed = false := by
        obtain ⟨_, _, start⟩ := Lexer.ofText_eq 0 text
        rw [start]
      rw [reaches.armed, unarmed] at armed
      rw [List.getLast?_map, Option.any_map]
      cases isLast : written.getLast? with
      | none =>
        rw [isLast] at armed
        cases armed
      | some token =>
        rw [isLast] at armed
        exact armed
  · have count := reaches.count
    have size := reaches.offset.1
    rw [Lexer.ofText_size] at size
    rw [List.length_map]
    omega
  · rcases opens with takes | uninserted
    · refine ⟨[], Nat.zero_le 1, ?_⟩
      rw [List.append_nil]
      exact takesWords_of_onward scans.encoded reaches ended (takesName_onward scans.encoded fits takes reaches ended)
    · rcases isEnding with ⟨-, unarmed⟩ | ⟨token, rfl, inserted, -⟩
      · exact ⟨['\n'], by decide, takesWords_nextLine scans.encoded reaches unarmed ended⟩
      · rw [insertsSemicolon, scans.steps_eq] at uninserted
        simp [Except.toOption, LexStep.token?, show token.kind = _ from inserted] at uninserted

end GoPrompt
