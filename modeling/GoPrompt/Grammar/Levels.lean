import GoPrompt.Parse.Basic
import GoPrompt.Statement.Kind

/-! Every construct that can contain itself is read one nesting level deeper. The grammar functions
therefore do not call each other in circles: each takes, as `Deeper`, the readers of the level below
it. -/

namespace GoPrompt.Grammar

/-- Where an expression stands. In the header of a control clause a brace after a type name opens the
body of the clause, and everywhere else that of a composite literal. -/
inductive Place where
  | header | free
  deriving DecidableEq, Repr

/-- Where a statement stands: imports and function declarations belong at the prompt only. -/
inductive Context where
  | topLevel | block
  deriving DecidableEq, Repr

/-- The readers of the constructs that start a level of their own. -/
structure Deeper where
  expression : Place → Parse Expression
  unary : Place → Parse Expression
  type : Parse Shape
  literalValue : Parse Unit
  statement : Context → Parse Statement
  ifStatement : Parse Unit

/-- Fails at a level beyond the limit. The depth is not given back. -/
def beyondLimit {α : Type} (limit : Nat) : Parse α := do
  modify fun state => { state with depth := state.depth + 1 }
  let token ← Parse.peek 0
  throw (.rejected (.nestingLimitExceeded limit (token.map (·.span))))

/-- The readers where no level is left. -/
def Deeper.none (limit : Nat) : Deeper where
  expression _ := beyondLimit limit
  unary _ := beyondLimit limit
  type := beyondLimit limit
  literalValue := beyondLimit limit
  statement _ := beyondLimit limit
  ifStatement := beyondLimit limit

end GoPrompt.Grammar
