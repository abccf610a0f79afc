import GoPrompt.Source.LineIndex

/-! What the parser reports about a text, and the list that keeps the first of its reports. -/

namespace GoPrompt

inductive DiagnosticKind where
  | lexer | parser
  deriving DecidableEq, Repr

/-- What the parser saw where it found the problem. -/
inductive Offending where
  | token (source : String)
  | endOfInput
  deriving DecidableEq, Repr

structure Diagnostic where
  kind : DiagnosticKind
  message : String
  span : Span
  position : Position
  offending : Offending
  deriving DecidableEq, Repr

namespace Diagnostic

def text (diagnostic : Diagnostic) : String := diagnostic.position.text ++ ": " ++ diagnostic.message

end Diagnostic

/-- Diagnostics in the order of their reports, and the most that are kept. -/
structure Collector where
  diagnostics : List Diagnostic := []
  limit : Option Nat := none
  deriving DecidableEq, Repr

namespace Collector

def isSaturated (collector : Collector) : Bool :=
  collector.limit.any fun limit => decide (limit ≤ collector.diagnostics.length)

def report (collector : Collector) (diagnostic : Diagnostic) : Collector :=
  if collector.isSaturated then collector
  else { collector with diagnostics := collector.diagnostics ++ [diagnostic] }

def reset (collector : Collector) : Collector := { collector with diagnostics := [] }

end Collector

end GoPrompt
