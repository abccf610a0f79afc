import GoPrompt.Lexical.Progress
import GoPrompt.Lexical.Step

/-! The lexer walks over a source text and answers one step at a time. It inserts semicolons: once a
token that may end a statement is read, the lexer is armed, and the next newline, or the end of the
input, gives a semicolon. -/

namespace GoPrompt

structure Lexer where
  source : Nat
  rest : List Char
  offset : Nat
  armed : Bool
  deriving DecidableEq, Repr

namespace Lexer

/-- A lexer at the start of a text, behind a leading byte-order mark if there is one. -/
def ofText (source : Nat) : List Char → Lexer
  | [] => ⟨source, [], 0, false⟩
  | c :: rest =>
    if c = byteOrderMark then ⟨source, rest, byteOrderMark.utf8Size, false⟩ else ⟨source, c :: rest, 0, false⟩

/-- The lexer after the next `length` characters. -/
def skip (lexer : Lexer) (length : Nat) : Lexer :=
  { lexer with
    rest := lexer.rest.drop length
    offset := lexer.offset + byteSize (lexer.rest.take length) }

def arm (lexer : Lexer) (armed : Bool) : Lexer := { lexer with armed := armed }

/-- The span of the next `length` characters. -/
def span (lexer : Lexer) (length : Nat) : Span :=
  Span.ofLength lexer.source lexer.offset (byteSize (lexer.rest.take length))

/-- The token made of the next `length` characters. -/
def token (lexer : Lexer) (kind : TokenKind) (length : Nat) : Token where
  kind := kind
  lexeme :=
    match kind with
    | .semicolon .newline => "\n"
    | .semicolon .endOfInput => ""
    | _ => String.ofList (lexer.rest.take length)
  span := lexer.span length

def malformed (lexer : Lexer) (cause : LexCause) : LexFault := .malformed (cause.diagnostic [] (lexer.span 1))

def invariant (lexer : Lexer) (cause : LexCause) : LexFault := .invariant (cause.diagnostic [] (lexer.span 0))

/-- The diagnostic of a flaw in the literal that starts here. -/
def flawDiagnostic (lexer : Lexer) (flaw : Flaw) : LexDiagnostic :=
  let start := lexer.skip flaw.first
  let length := flaw.last - flaw.first
  flaw.cause.diagnostic (start.rest.take length) (start.span length)

/-- The step for a token that starts here, and the lexer behind it. -/
def accept (lexer : Lexer) (scan : TokenScan) : Except LexFault LexStep × Lexer :=
  let after := lexer.skip scan.length
  match scan.shape with
  | .whole kind => (.ok (.token (lexer.token kind scan.length)), after.arm kind.terminatesLine)
  | .cutOff kind cause =>
    if after.rest.isEmpty then
      let cutoff := cause.cutoff (lexer.rest.take scan.length) (lexer.span scan.length)
      (.ok (.truncated (lexer.token (.literal kind) scan.length) cutoff), after.arm false)
    else (.error (lexer.invariant .cutoffBeforeEnd), after)
  | .invalid flaw => (.ok (.invalid (lexer.token .illegal scan.length) (lexer.flawDiagnostic flaw)), after)

/-- The step for the landmark that the lexer stands at. -/
def stepAt (lexer : Lexer) : Landmark → Except LexFault LexStep × Lexer
  | .token first =>
    if first = '\x00' then (.error (lexer.malformed .nul), lexer)
    else if first = byteOrderMark then (.error (lexer.malformed .byteOrderMark), lexer)
    else lexer.accept (scanToken first (lexer.rest.drop 1))
  | .lineEnd length => (.ok (.token (lexer.token (.semicolon .newline) length)), (lexer.skip length).arm false)
  | .openComment length =>
    let cutoff := CutoffCause.comment.cutoff (lexer.rest.take length) (lexer.span length)
    (.ok (.incomplete cutoff), (lexer.skip length).arm false)
  | .nulInComment length => (.error ((lexer.skip length).malformed .nul), lexer.skip (length + 1))
  | .endOfInput =>
    if lexer.armed then (.ok (.token (lexer.token (.semicolon .endOfInput) 0)), lexer.arm false)
    else (.ok .endOfInput, lexer)

/-- Skips to the next landmark and reads what is there, with offsets of any size. -/
def advance (lexer : Lexer) : Except LexFault LexStep × Lexer :=
  let (length, landmark) := gap lexer.armed 0 0 lexer.rest
  (lexer.skip length).stepAt landmark

/-- The next step. A scan beyond the last offset has no answer, see `LexFault.stalled`. -/
def next (lexer : Lexer) : Except LexFault LexStep × Lexer :=
  let (result, after) := lexer.advance
  if after.offset ≤ maxOffset then (result, after)
  else (.error (.stalled (LexCause.offsetRange.diagnostic [] (lexer.span 0))), lexer)

/-- What is left to do: every step but the last makes it smaller. -/
def remaining (lexer : Lexer) : Nat := 2 * lexer.rest.length + lexer.armed.toNat

theorem remaining_arm_le (lexer : Lexer) (armed : Bool) : (lexer.arm armed).remaining ≤ 2 * lexer.rest.length + 1 := by
  cases armed <;> simp [remaining, arm]

theorem remaining_skip_le (lexer : Lexer) (length : Nat) : (lexer.skip length).remaining ≤ lexer.remaining := by
  simp only [remaining, skip, List.length_drop]
  omega

theorem skip_arm_remaining_lt (lexer : Lexer) (armed : Bool) {length : Nat} (positive : 1 ≤ length)
    (nonempty : lexer.rest ≠ []) : ((lexer.skip length).arm armed).remaining < lexer.remaining := by
  have some := List.length_pos_iff.mpr nonempty
  have := remaining_arm_le (lexer.skip length) armed
  simp only [remaining, skip, List.length_drop] at this ⊢
  omega

theorem skip_remaining_lt (lexer : Lexer) {length : Nat} (positive : 1 ≤ length)
    (nonempty : lexer.rest ≠ []) : (lexer.skip length).remaining < lexer.remaining := by
  have some := List.length_pos_iff.mpr nonempty
  simp only [remaining, skip, List.length_drop]
  omega

theorem accept_remaining_lt (lexer : Lexer) (scan : TokenScan) (positive : 1 ≤ scan.length)
    (nonempty : lexer.rest ≠ []) : (lexer.accept scan).2.remaining < lexer.remaining := by
  unfold accept
  dsimp only
  split
  · exact skip_arm_remaining_lt lexer _ positive nonempty
  · split
    · exact skip_arm_remaining_lt lexer _ positive nonempty
    · exact skip_remaining_lt lexer positive nonempty
  · exact skip_remaining_lt lexer positive nonempty

theorem stepAt_remaining_lt {lexer : Lexer} {landmark : Landmark} (holds : landmark.Holds lexer.rest) {step : LexStep}
    (answered : (lexer.stepAt landmark).1 = .ok step) (more : step.endsInput = false) :
    (lexer.stepAt landmark).2.remaining < lexer.remaining := by
  cases landmark with
  | token first =>
    have nonempty : lexer.rest ≠ [] := by
      rintro empty
      simp [Landmark.Holds, empty] at holds
    simp only [stepAt] at answered ⊢
    split at answered
    · cases answered
    next notNul =>
      split at answered
      · cases answered
      next notMark =>
        rw [if_neg notNul, if_neg notMark]
        exact accept_remaining_lt lexer _ (one_le_scanToken_length _ _) nonempty
  | lineEnd length => exact skip_arm_remaining_lt lexer false holds.2 holds.1
  | openComment length =>
    simp only [stepAt, Except.ok.injEq] at answered
    simp [← answered, LexStep.endsInput] at more
  | nulInComment length => cases answered
  | endOfInput =>
    simp only [stepAt] at answered ⊢
    split at answered
    next armed => simp [armed, remaining, arm]
    · simp only [Except.ok.injEq] at answered
      simp [← answered, LexStep.endsInput] at more

/-- Every token brings the lexer closer to its end. -/
theorem remaining_next_lt {lexer after : Lexer} {step : LexStep} (answered : lexer.next = (.ok step, after))
    (more : step.endsInput = false) : after.remaining < lexer.remaining := by
  unfold next at answered
  rcases scan : lexer.advance with ⟨result, reached⟩
  simp only [scan] at answered
  split at answered
  · obtain ⟨rfl, rfl⟩ := Prod.mk.inj answered
    unfold advance at scan
    rcases found : gap lexer.armed 0 0 lexer.rest with ⟨length, landmark⟩
    simp only [found] at scan
    have holds := (gap_holds lexer.armed 0 0 lexer.rest found).2
    simp only [Nat.zero_add, Nat.sub_zero] at holds
    have smaller := @stepAt_remaining_lt (lexer.skip length) landmark holds step (by rw [scan]) more
    rw [scan] at smaller
    exact Nat.lt_of_lt_of_le smaller (remaining_skip_le lexer length)
  · cases answered

/-- All steps to the end of the input, or to the comment that it cuts off, and the lexer behind them. -/
def steps (lexer : Lexer) : Except LexFault (List LexStep) × Lexer :=
  match _answered : lexer.next with
  | (.error fault, after) => (.error fault, after)
  | (.ok step, after) =>
    if _more : step.endsInput = false then
      let (later, last) := after.steps
      (later.map (step :: ·), last)
    else (.ok (if step = .endOfInput then [] else [step]), after)
termination_by lexer.remaining
decreasing_by exact remaining_next_lt _answered _more

end Lexer

end GoPrompt
