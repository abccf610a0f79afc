import GoPrompt.Lexical.Lexer
import GoPrompt.Proofs.Lexical.Gaps

/-! One step of the lexer as a relation, with everything that a step can do. On a text without NUL
characters and byte-order marks, whose offsets all fit, every step is one of these, and nothing goes
wrong. -/

namespace GoPrompt

/-- Whether a text holds no character that is not allowed behind its start. -/
def Clean (text : List Char) : Prop := ∀ c ∈ text, c ≠ '\x00' ∧ c ≠ byteOrderMark

theorem Clean.drop {text : List Char} (clean : Clean text) (length : Nat) : Clean (text.drop length) :=
  fun c mem => clean c (List.mem_of_mem_drop mem)

namespace Lexer

/-- A lexer with nothing but allowed text ahead, all of it within the offsets that there are. -/
structure Sound (lexer : Lexer) : Prop where
  clean : Clean lexer.rest
  fits : lexer.offset + byteSize lexer.rest ≤ maxOffset

/-- What one step reads, and the lexer behind it. -/
inductive Reads (lexer : Lexer) : LexStep → Lexer → Prop
  | whole {stop : Nat} {first : Char} {rest : List Char} {length : Nat} {kind : TokenKind}
      (skipped : gap lexer.armed 0 0 lexer.rest = (stop, .token first))
      (here : lexer.rest.drop stop = first :: rest)
      (scanned : scanToken first rest = ⟨length, .whole kind⟩) :
      Reads lexer (.token ((lexer.skip stop).token kind length))
        (((lexer.skip stop).skip length).arm kind.terminatesLine)
  | cutOff {stop : Nat} {first : Char} {rest : List Char} {length : Nat} {kind : LiteralKind} {cause : CutoffCause}
      (skipped : gap lexer.armed 0 0 lexer.rest = (stop, .token first))
      (here : lexer.rest.drop stop = first :: rest)
      (scanned : scanToken first rest = ⟨length, .cutOff kind cause⟩) :
      Reads lexer
        (.truncated ((lexer.skip stop).token (.literal kind) length)
          (cause.cutoff ((lexer.skip stop).rest.take length) ((lexer.skip stop).span length)))
        (((lexer.skip stop).skip length).arm false)
  | invalid {stop : Nat} {first : Char} {rest : List Char} {length : Nat} {flaw : Flaw}
      (skipped : gap lexer.armed 0 0 lexer.rest = (stop, .token first))
      (here : lexer.rest.drop stop = first :: rest)
      (scanned : scanToken first rest = ⟨length, .invalid flaw⟩) :
      Reads lexer (.invalid ((lexer.skip stop).token .illegal length) ((lexer.skip stop).flawDiagnostic flaw))
        ((lexer.skip stop).skip length)
  | lineEnd {stop length : Nat} (skipped : gap lexer.armed 0 0 lexer.rest = (stop, .lineEnd length)) :
      Reads lexer (.token ((lexer.skip stop).token (.semicolon .newline) length))
        (((lexer.skip stop).skip length).arm false)
  | openComment {stop length : Nat} (skipped : gap lexer.armed 0 0 lexer.rest = (stop, .openComment length)) :
      Reads lexer
        (.incomplete (CutoffCause.comment.cutoff ((lexer.skip stop).rest.take length) ((lexer.skip stop).span length)))
        (((lexer.skip stop).skip length).arm false)
  | inserted {stop : Nat} (skipped : gap lexer.armed 0 0 lexer.rest = (stop, .endOfInput)) (armed : lexer.armed = true) :
      Reads lexer (.token ((lexer.skip stop).token (.semicolon .endOfInput) 0)) ((lexer.skip stop).arm false)
  | ended {stop : Nat} (skipped : gap lexer.armed 0 0 lexer.rest = (stop, .endOfInput)) (unarmed : lexer.armed = false) :
      Reads lexer .endOfInput (lexer.skip stop)

theorem Sound.skip {lexer : Lexer} (sound : lexer.Sound) (length : Nat) : (lexer.skip length).Sound := by
  refine ⟨sound.clean.drop length, ?_⟩
  have parts := byteSize_append (lexer.rest.take length) (lexer.rest.drop length)
  rw [List.take_append_drop] at parts
  have := sound.fits
  simp only [Lexer.skip]
  omega

theorem Sound.arm {lexer : Lexer} (sound : lexer.Sound) (armed : Bool) : (lexer.arm armed).Sound :=
  ⟨sound.clean, sound.fits⟩

theorem Reads.sound {lexer after : Lexer} {step : LexStep} (reads : lexer.Reads step after) (sound : lexer.Sound) :
    after.Sound := by
  cases reads with
  | whole | cutOff | lineEnd | openComment => exact ((sound.skip _).skip _).arm _
  | invalid => exact (sound.skip _).skip _
  | inserted => exact (sound.skip _).arm _
  | ended => exact sound.skip _

/-- Whether the first character of the next token, if there is one, is allowed. -/
def BeginsAllowed (lexer : Lexer) : Prop :=
  ∀ {stop : Nat} {first : Char}, gap lexer.armed 0 0 lexer.rest = (stop, .token first) →
    first ≠ '\x00' ∧ first ≠ byteOrderMark

theorem Reads.advance_of_allowed {lexer after : Lexer} {step : LexStep} (reads : lexer.Reads step after)
    (allowed : lexer.BeginsAllowed) : lexer.advance = (.ok step, after) := by
  have accepted : ∀ {stop first rest}, gap lexer.armed 0 0 lexer.rest = (stop, .token first) →
      lexer.rest.drop stop = first :: rest → lexer.advance = (lexer.skip stop).accept (scanToken first rest) := by
    intro stop first rest skipped here
    simp only [Lexer.advance, skipped, stepAt, allowed skipped, ↓reduceIte, Lexer.skip, here,
      List.drop_one, List.tail_cons]
  cases reads with
  | whole skipped here scanned => rw [accepted skipped here, scanned]; rfl
  | @cutOff stop first rest length kind cause skipped here scanned =>
    rw [accepted skipped here, scanned]
    have covers := le_scanToken_length_of_cutOff (show (scanToken first rest).shape =
      .cutOff kind cause by rw [scanned])
    rw [scanned] at covers
    have empty : ((lexer.skip stop).skip length).rest.isEmpty = true := by
      simp only [Lexer.skip, here, List.isEmpty_iff]
      exact List.drop_eq_nil_of_le covers
    simp only [accept, empty, ↓reduceIte]
  | invalid skipped here scanned => rw [accepted skipped here, scanned]; rfl
  | lineEnd skipped => simp only [Lexer.advance, skipped, stepAt]
  | openComment skipped => simp only [Lexer.advance, skipped, stepAt]
  | inserted skipped armed =>
    simp only [Lexer.advance, skipped, stepAt]
    exact if_pos armed
  | ended skipped unarmed =>
    simp only [Lexer.advance, skipped, stepAt]
    exact if_neg (Bool.eq_false_iff.mp unarmed)

end Lexer

private theorem blockComment_clean {text : List Char} (clean : Clean text) (length : Nat) (spansLines : Bool) :
    (blockComment length spansLines text).2 ≠ .nul := by
  fun_induction blockComment length spansLines text with
  | case1 => simp
  | case2 => simp
  | case3 => exact absurd rfl (clean _ List.mem_cons_self).1
  | case4 _ _ _ _ _ _ ih => exact ih fun c mem => clean c (List.mem_cons_of_mem _ mem)

private theorem gap_clean {armed : Bool} {length stop taken : Nat} {text : List Char} (clean : Clean text) :
    gap armed 0 length text ≠ (stop, .nulInComment taken) := by
  intro found
  induction length, text using Gap.turns armed with
  | halt length text landmark halts =>
    obtain ⟨rfl, rfl⟩ := Prod.mk.inj ((halts.gap length).symm.trans found)
    cases halts with
    | nul read => exact blockComment_clean (clean.drop 2) 2 false (congrArg Prod.snd read)
  | pass length text taken passes ih => exact ih (clean.drop taken) ((passes.gap length).symm.trans found)

theorem gap_begins {armed : Bool} {stop : Nat} {first : Char} {text : List Char}
    (skipped : gap armed 0 0 text = (stop, .token first)) : ∃ rest, text.drop stop = first :: rest := by
  have there := (gap_holds _ _ _ _ skipped).2
  simp only [Landmark.Holds, Nat.zero_add, Nat.sub_zero] at there
  exact List.head?_eq_some_iff.mp there

namespace Lexer

private theorem Sound.beginsAllowed {lexer : Lexer} (sound : lexer.Sound) : lexer.BeginsAllowed := by
  intro stop first skipped
  obtain ⟨rest, here⟩ := gap_begins skipped
  exact sound.clean first (List.mem_of_mem_drop (here ▸ List.mem_cons_self))

theorem Reads.next_of_allowed {lexer after : Lexer} {step : LexStep} (reads : lexer.Reads step after)
    (allowed : lexer.BeginsAllowed) (fits : after.offset ≤ maxOffset) : lexer.next = (.ok step, after) := by
  simp only [Lexer.next, reads.advance_of_allowed allowed, fits, ↓reduceIte]

theorem Reads.next {lexer after : Lexer} {step : LexStep} (reads : lexer.Reads step after) (sound : lexer.Sound) :
    lexer.next = (.ok step, after) := by
  have fits := (reads.sound sound).fits
  exact reads.next_of_allowed sound.beginsAllowed (by omega)

theorem Sound.reads {lexer : Lexer} (sound : lexer.Sound) : ∃ step after, lexer.Reads step after := by
  rcases skipped : gap lexer.armed 0 0 lexer.rest with ⟨stop, landmark⟩
  cases landmark with
  | token first =>
    obtain ⟨rest, here⟩ := gap_begins skipped
    rcases scanned : scanToken first rest with ⟨length, shape⟩
    cases shape with
    | whole kind => exact ⟨_, _, .whole skipped here scanned⟩
    | cutOff kind cause => exact ⟨_, _, .cutOff skipped here scanned⟩
    | invalid flaw => exact ⟨_, _, .invalid skipped here scanned⟩
  | lineEnd length => exact ⟨_, _, .lineEnd skipped⟩
  | openComment length => exact ⟨_, _, .openComment skipped⟩
  | nulInComment length => exact absurd skipped (gap_clean sound.clean)
  | endOfInput =>
    cases armed : lexer.armed with
    | true => exact ⟨_, _, .inserted skipped armed⟩
    | false => exact ⟨_, _, .ended skipped armed⟩

private theorem accept_reads {lexer after : Lexer} {step : LexStep} {stop : Nat} {first : Char} {rest : List Char}
    (skipped : gap lexer.armed 0 0 lexer.rest = (stop, .token first)) (here : lexer.rest.drop stop = first :: rest)
    (accepted : (lexer.skip stop).accept (scanToken first rest) = (.ok step, after)) : lexer.Reads step after := by
  rcases scanned : scanToken first rest with ⟨length, shape⟩
  rw [scanned] at accepted
  cases shape with
  | whole kind =>
    cases accepted
    exact .whole skipped here scanned
  | invalid flaw =>
    cases accepted
    exact .invalid skipped here scanned
  | cutOff kind cause =>
    by_cases empty : ((lexer.skip stop).skip length).rest.isEmpty = true
    · simp only [accept, if_pos empty] at accepted
      cases accepted
      exact .cutOff skipped here scanned
    · simp only [accept, if_neg empty] at accepted
      cases accepted

/-- Without an error a lexer takes one of these steps, of any text. -/
theorem Reads.of_next {lexer after : Lexer} {step : LexStep} (answered : lexer.next = (.ok step, after)) :
    lexer.Reads step after := by
  rcases advanced : lexer.advance with ⟨result, behind⟩
  by_cases fits : behind.offset ≤ maxOffset
  case neg =>
    simp only [Lexer.next, advanced, if_neg fits] at answered
    cases answered
  simp only [Lexer.next, advanced, if_pos fits] at answered
  cases answered
  rcases skipped : gap lexer.armed 0 0 lexer.rest with ⟨stop, landmark⟩
  simp only [Lexer.advance, skipped] at advanced
  cases landmark with
  | token first =>
    obtain ⟨rest, here⟩ := gap_begins skipped
    by_cases nul : first = '\x00'
    · simp only [stepAt, if_pos nul] at advanced
      cases advanced
    by_cases mark : first = byteOrderMark
    · simp only [stepAt, if_neg nul, if_pos mark] at advanced
      cases advanced
    have ahead : (lexer.skip stop).rest = first :: rest := here
    simp only [stepAt, if_neg nul, if_neg mark, ahead, List.drop_one, List.tail_cons] at advanced
    exact accept_reads skipped here advanced
  | lineEnd length =>
    cases advanced
    exact .lineEnd skipped
  | openComment length =>
    cases advanced
    exact .openComment skipped
  | nulInComment length => cases advanced
  | endOfInput =>
    cases armed : lexer.armed with
    | true =>
      have inserts : (lexer.skip stop).armed = true := armed
      simp only [stepAt, if_pos inserts] at advanced
      cases advanced
      exact .inserted skipped armed
    | false =>
      have insertsNot : ¬ (lexer.skip stop).armed = true := Bool.eq_false_iff.mp armed
      simp only [stepAt, if_neg insertsNot] at advanced
      cases advanced
      exact .ended skipped armed

theorem beginsAllowed_of_next {lexer after : Lexer} {step : LexStep} (answered : lexer.next = (.ok step, after)) :
    lexer.BeginsAllowed := by
  intro stop first skipped
  unfold next at answered
  dsimp only at answered
  split at answered
  next =>
    have advanced : lexer.advance.1 = .ok step := congrArg Prod.fst answered
    simp only [advance, skipped, stepAt] at advanced
    split at advanced
    next => cases advanced
    next notNul =>
      split at advanced
      next => cases advanced
      next notMark => exact ⟨notNul, notMark⟩
  next => cases answered

end Lexer

end GoPrompt
