import GoPrompt.Parse.Error
import GoPrompt.Proofs.Lexical.Collected

/-! Lexers that answer alike, one call after the other. Their texts may differ in names, in the values of literals, in
blanks and in comments, and so in the places of all tokens. -/

namespace GoPrompt

/-- A step without the place and the text of its token. -/
inductive StepOutline where
  | token (kind : TokenKind)
  | truncated (kind : TokenKind) (construct : OpenConstruct)
  | invalid (kind : TokenKind)
  | incomplete (construct : OpenConstruct)
  | endOfInput
  deriving DecidableEq, Repr

namespace StepOutline

def kind? : StepOutline → Option TokenKind
  | token kind | truncated kind _ | invalid kind => some kind
  | incomplete _ | endOfInput => none

def construct? : StepOutline → Option OpenConstruct
  | truncated _ construct | incomplete construct => some construct
  | token _ | invalid _ | endOfInput => none

end StepOutline

namespace LexStep

def outline : LexStep → StepOutline
  | .token read => .token read.kind
  | .truncated read cutoff => .truncated read.kind cutoff.construct
  | .invalid read _ => .invalid read.kind
  | .incomplete cutoff => .incomplete cutoff.construct
  | .endOfInput => .endOfInput

private theorem outline_kind? (step : LexStep) : step.outline.kind? = step.token?.map (·.kind) := by cases step <;> rfl

private theorem outline_construct? (step : LexStep) : step.outline.construct? = step.cutoff?.map (·.construct) := by
  cases step <;> rfl

variable {step step' : LexStep}

theorem kind_of_outline (same : step.outline = step'.outline) :
    step.token?.map (·.kind) = step'.token?.map (·.kind) := by
  rw [← outline_kind?, ← outline_kind?, same]

theorem construct_of_outline (same : step.outline = step'.outline) :
    step.cutoff?.map (·.construct) = step'.cutoff?.map (·.construct) := by
  rw [← outline_construct?, ← outline_construct?, same]

end LexStep

namespace Lexer

/-- The answer to one of the calls that are made one after the other, also when some of them fail. -/
def answerAt : Nat → Lexer → Except LexFault LexStep
  | 0, lexer => lexer.next.1
  | number + 1, lexer => lexer.next.2.answerAt number

/-- An answer without places and texts. -/
def answerOutline : Except LexFault LexStep → Except ParseErrorKind StepOutline
  | .ok step => .ok step.outline
  | .error fault => .error (ParseError.ofLexFault fault).kind

/-- Lexers with the same kinds of answers up to the first fault, and `beyond` it as well. -/
def InStep (beyond : Prop) (lexer lexer' : Lexer) : Prop :=
  ∀ number, (∀ earlier < number, (lexer.answerAt earlier).isOk = true ∨ beyond) →
    answerOutline (lexer.answerAt number) = answerOutline (lexer'.answerAt number)

section

variable {beyond : Prop} {lexer lexer' last : Lexer} {steps : List LexStep}

theorem InStep.first (inStep : lexer.InStep beyond lexer') : answerOutline lexer.next.1 = answerOutline lexer'.next.1 :=
  inStep 0 nofun

theorem InStep.later (inStep : lexer.InStep beyond lexer') (goesOn : lexer.next.1.isOk = true ∨ beyond) :
    lexer.next.2.InStep beyond lexer'.next.2 := by
  intro number before
  refine inStep (number + 1) fun earlier less => ?_
  cases earlier with
  | zero => exact goesOn
  | succ earlier => exact before earlier (Nat.lt_of_succ_lt_succ less)

private theorem answerAt_of_stays {answer : Except LexFault LexStep} (stays : lexer.next = (answer, lexer))
    (number : Nat) :
    lexer.answerAt number = answer := by
  induction number with
  | zero => exact congrArg Prod.fst stays
  | succ number ih =>
    show lexer.next.2.answerAt number = answer
    rw [stays]
    exact ih

/-- What the lexer answers when it is called again and again: its steps, and then that the input has ended. -/
theorem Collects.answerAt (collects : lexer.Collects steps last) (number : Nat) :
    lexer.answerAt number = .ok (steps[number]?.getD .endOfInput) := by
  -- A lexer that has come to the end of the input stays there.
  have stays : ∀ {lexer last : Lexer} {step : LexStep}, lexer.next = (.ok step, last) → step.endsInput = true →
      last.next = (.ok .endOfInput, last) := by
    intro lexer last step answered ends
    obtain ⟨empty, unarmed⟩ := (Reads.of_next answered).ends ends
    exact next_at_end empty unarmed (offset_le_of_next answered)
  induction collects generalizing number with
  | @ended lexer last answered | @comment lexer last _ answered =>
    cases number with
    | zero => exact congrArg Prod.fst answered
    | succ number =>
      show lexer.next.2.answerAt number = _
      rw [answered]
      exact answerAt_of_stays (stays answered rfl) number
  | @more lexer _ _ _ _ answered _ _ ih =>
    cases number with
    | zero => exact congrArg Prod.fst answered
    | succ number =>
      show lexer.next.2.answerAt number = _
      rw [answered]
      exact ih number

/-- Lexers that take steps of the same kinds to the ends of their texts are in step. -/
theorem inStep_of_outlines {outlines : List StepOutline}
    (first : lexer.steps.1.toOption.map (·.map LexStep.outline) = some outlines)
    (second : lexer'.steps.1.toOption.map (·.map LexStep.outline) = some outlines) : lexer.InStep beyond lexer' := by
  have outlineAt : ∀ {lexer : Lexer}, lexer.steps.1.toOption.map (·.map LexStep.outline) = some outlines →
      ∀ number, answerOutline (lexer.answerAt number) = .ok (outlines[number]?.getD .endOfInput) := by
    intro lexer same number
    rcases collected : lexer.steps with ⟨result, last⟩
    rw [collected] at same
    cases result with
    | error => cases same
    | ok steps =>
      cases same
      rw [(Collects.of_steps collected).answerAt, List.getElem?_map]
      cases steps[number]? <;> rfl
  intro number _
  rw [outlineAt first, outlineAt second]

end

end Lexer

end GoPrompt
