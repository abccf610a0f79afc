import GoPrompt.Source.Span

/-! The kinds of statements that can stand at the prompt, and the shapes of expressions as far as the
grammar has to tell them apart. No syntax tree is kept: for an answer it is enough to know that a
text reduces to a statement, and to which kind. -/

namespace GoPrompt

inductive DeclarationKind where
  | import | const | var | type | func | method
  deriving DecidableEq, Repr

inductive StatementKind where
  | declaration (kind : DeclarationKind)
  | expression | send | incDec | assignment | shortVarDecl | go | defer | return | break | continue | goto | fallthrough
  | block | if | switch | typeSwitch | select | for | labeled
  deriving DecidableEq, Repr

namespace StatementKind

def name : StatementKind → String
  | .declaration .import => "import declaration"
  | .declaration .const => "const declaration"
  | .declaration .var => "var declaration"
  | .declaration .type => "type declaration"
  | .declaration .func => "function declaration"
  | .declaration .method => "method declaration"
  | .expression => "expression statement"
  | .send => "send statement"
  | .incDec => "increment statement"
  | .assignment => "assignment"
  | .shortVarDecl => "short variable declaration"
  | .go => "go statement"
  | .defer => "defer statement"
  | .return => "return statement"
  | .break => "break statement"
  | .continue => "continue statement"
  | .goto => "goto statement"
  | .fallthrough => "fallthrough statement"
  | .block => "block"
  | .if => "if statement"
  | .switch => "switch statement"
  | .typeSwitch => "type switch statement"
  | .select => "select statement"
  | .for => "for statement"
  | .labeled => "labeled statement"

end StatementKind

/-- A complete statement; its span leaves out the semicolon behind it. -/
structure Statement where
  kind : StatementKind
  span : Span
  deriving DecidableEq, Repr

inductive Shape where
  | identifier
  /-- A selector on an identifier, as in `pkg.Name`. -/
  | qualifiedName
  /-- An array, slice, map or struct type that stands as an operand. -/
  | literalType
  /-- The guard `x.(type)` of a type switch. -/
  | typeGuard
  | other
  deriving DecidableEq, Repr

namespace Shape

/-- Whether the body of a composite literal may follow. -/
def takesLiteralBody : Shape → Bool
  | .identifier | .qualifiedName | .literalType => true
  | .typeGuard | .other => false

def isTypeName : Shape → Bool
  | .identifier | .qualifiedName => true
  | .literalType | .typeGuard | .other => false

end Shape

structure Expression where
  shape : Shape
  span : Span
  deriving DecidableEq, Repr

end GoPrompt
