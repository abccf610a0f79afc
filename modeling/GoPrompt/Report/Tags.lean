import GoPrompt.Classification.Basic

/-! The names by which documents refer to kinds of things. Unlike the descriptions for readers they are
meant to be compared, and each thing has one of its own. -/

namespace GoPrompt

namespace DiagnosticCode

def tag : DiagnosticCode → String
  | unterminatedString => "UnterminatedString"
  | unterminatedRawString => "UnterminatedRawString"
  | unterminatedRune => "UnterminatedRune"
  | unterminatedComment => "UnterminatedComment"
  | incompleteNumber => "IncompleteNumber"
  | newlineInString => "NewlineInString"
  | newlineInRune => "NewlineInRune"
  | emptyRune => "EmptyRune"
  | runeTooLong => "RuneTooLong"
  | invalidEscape => "InvalidEscape"
  | invalidDigit => "InvalidDigit"
  | misplacedSeparator => "MisplacedSeparator"
  | malformedNumber => "MalformedNumber"
  | invalidCharacter => "InvalidCharacter"
  | nulCharacter => "NulCharacter"
  | misplacedByteOrderMark => "MisplacedByteOrderMark"
  | invalidEncoding => "InvalidEncoding"
  | internalInvariant => "InternalInvariant"

end DiagnosticCode

namespace OpenConstruct

def tag (construct : OpenConstruct) : String := construct.code.tag

end OpenConstruct

namespace PendingReason

def tag : PendingReason → String
  | emptyInput => "EmptyInput"
  | cutOff construct => construct.tag
  | unclosedParen => "UnclosedParen"
  | unclosedBracket => "UnclosedBracket"
  | unclosedBrace => "UnclosedBrace"
  | trailingOperator => "TrailingOperator"
  | trailingComma => "TrailingComma"
  | incompleteStatement => "IncompleteStatement"

end PendingReason

namespace DiagnosticKind

def tag : DiagnosticKind → String
  | lexer => "Lexer"
  | parser => "Parser"

end DiagnosticKind

namespace Answer

def tag : Answer → String
  | complete => "complete"
  | needMoreInput => "need_more_input"
  | syntaxError => "syntax_error"

end Answer

namespace DeclarationKind

def tag : DeclarationKind → String
  | .import => "Import"
  | .const => "Const"
  | .var => "Var"
  | .type => "Type"
  | .func => "Func"
  | .method => "Method"

end DeclarationKind

namespace ClassifyError

/-- Whether the text or the program is to blame. -/
def tag (error : ClassifyError) : String := if error.isMalformed then "malformed_input" else "internal_fault"

end ClassifyError

end GoPrompt
