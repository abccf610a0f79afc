import GoPrompt.Report.Json
import GoPrompt.Report.Tags

/-! The documents that report a classification, or why there is none. -/

namespace GoPrompt

def Span.document (span : Span) : Json :=
  .object [("source_id", .number span.source), ("start", .number span.start), ("end", .number span.stop)]

def Position.document (position : Position) : Json :=
  .object [("line", .number position.line), ("column", .number position.column)]

def Offending.document : Offending → Json
  | .token source => .object [("Token", .string source)]
  | .endOfInput => .string "EndOfInput"

def Diagnostic.document (diagnostic : Diagnostic) : Json :=
  .object
    [("kind", .string diagnostic.kind.tag), ("message", .string diagnostic.message), ("span", diagnostic.span.document),
      ("position", diagnostic.position.document), ("offending", diagnostic.offending.document)]

def StatementKind.document : StatementKind → Json
  | .declaration kind => .object [("Declaration", .string kind.tag)]
  | .expression => .string "Expression"
  | .send => .string "Send"
  | .incDec => .string "IncDec"
  | .assignment => .string "Assignment"
  | .shortVarDecl => .string "ShortVarDecl"
  | .go => .string "Go"
  | .defer => .string "Defer"
  | .return => .string "Return"
  | .break => .string "Break"
  | .continue => .string "Continue"
  | .goto => .string "Goto"
  | .fallthrough => .string "Fallthrough"
  | .block => .string "Block"
  | .if => .string "If"
  | .switch => .string "Switch"
  | .typeSwitch => .string "TypeSwitch"
  | .select => .string "Select"
  | .for => .string "For"
  | .labeled => .string "Labeled"

def Classification.document (classification : Classification) : Json :=
  let answer := classification.answer
  .object
    [("is_eof", .bool answer.isEof), ("is_syntax_error", .bool answer.isSyntaxError), ("verdict", .string answer.tag),
      ("statement", .ofOption StatementKind.document classification.statement),
      ("pending", .ofOption (fun reason => .string reason.tag) classification.pending),
      ("tokens_scanned", .number classification.tokensScanned),
      ("diagnostics", .list (classification.diagnostics.map Diagnostic.document))]

/-- The place of a diagnostic of the lexer. Here, and in every other document about an error, the members
come in the order of their names. -/
def Span.errorDocument (span : Span) : Json :=
  .object [("end", .number span.stop), ("source_id", .number span.source), ("start", .number span.start)]

def LexDiagnostic.document (diagnostic : LexDiagnostic) : Json :=
  .object
    [("code", .string diagnostic.code.tag), ("message", .string diagnostic.message),
      ("near_text", .ofOption .string diagnostic.nearText), ("span", diagnostic.span.errorDocument),
      ("suggestion", .ofOption .string diagnostic.suggestion)]

def ClassifyError.document (error : ClassifyError) : Json :=
  .object
    [("diagnostic", .ofOption LexDiagnostic.document error.diagnostic?), ("error", .string error.tag),
      ("message", .string error.message)]

end GoPrompt
