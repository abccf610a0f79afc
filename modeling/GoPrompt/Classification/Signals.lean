import GoPrompt.Parse.Parser

/-! From the signals of a parse to the answer that a prompt acts on. Exactly three combinations of the
signals are consistent, one for each answer; every other combination is a fault of the parser and not
a property of the text. -/

namespace GoPrompt

structure Signals where
  /-- The grammar ran past the end of the text. -/
  reachedEnd : Bool
  /-- A token was rejected before the end of the text. -/
  mismatch : Bool
  /-- The text reduced to exactly one statement. -/
  wellFormed : Bool
  deriving DecidableEq, Repr

namespace Signals

def ofReport (report : Report) : Signals :=
  match report.verdict with
  | .complete _ => ⟨report.observedEnd, false, true⟩
  | .needMoreInput _ => ⟨report.observedEnd, false, false⟩
  | .syntaxError error => ⟨error.kind = .unexpectedEndOfInput, true, false⟩

def text (signals : Signals) : String :=
  s!"ParseOutcome \x7b reached_end_of_input: {signals.reachedEnd}, " ++
    s!"saw_mismatch_before_eof: {signals.mismatch}, tree_is_well_formed_statement: {signals.wellFormed} \x7d"

end Signals

inductive Answer where
  | complete | needMoreInput | syntaxError
  deriving DecidableEq, Repr

/-- Faults of the classification itself. What the host may do to it, a panic within the grammar or a parsing thread that
cannot be started, is left out: parsing is total here and runs in no thread of its own. -/
inductive InternalFault where
  | conflictingSignals (signals : Signals)
  | invalidClassification
  | parser (error : ParseError)
  deriving DecidableEq, Repr

namespace InternalFault

def message : InternalFault → String
  | .conflictingSignals signals => "contradictory parse signals: " ++ signals.text
  | .invalidClassification => "classification cannot be both EOF-pending and a syntax error"
  | .parser error => "parser fault: " ++ error.message

end InternalFault

namespace Answer

/-- The answer that two flags stand for. -/
def ofFlags (isEof isSyntaxError : Bool) : Except InternalFault Answer :=
  match isEof, isSyntaxError with
  | false, false => .ok .complete
  | true, false => .ok .needMoreInput
  | false, true => .ok .syntaxError
  | true, true => .error .invalidClassification

def isEof : Answer → Bool
  | .needMoreInput => true
  | .complete | .syntaxError => false

def isSyntaxError : Answer → Bool
  | .syntaxError => true
  | .complete | .needMoreInput => false

def text : Answer → String
  | .complete => "complete"
  | .needMoreInput => "need-more-input"
  | .syntaxError => "syntax-error"

end Answer

namespace Signals

def areConflicting (signals : Signals) : Bool :=
  (signals.reachedEnd && signals.mismatch) || (signals.wellFormed && signals.mismatch) ||
    (signals.wellFormed && !signals.reachedEnd) ||
    (!signals.reachedEnd && !signals.mismatch && !signals.wellFormed)

def answer (signals : Signals) : Except InternalFault Answer :=
  if signals.areConflicting then .error (.conflictingSignals signals)
  else Answer.ofFlags (signals.reachedEnd && !signals.wellFormed && !signals.mismatch) signals.mismatch

end Signals

end GoPrompt
