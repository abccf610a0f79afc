import GoPrompt.Lexical.Diagnostic
import GoPrompt.Token.Kind

/-! Why a text that is right so far needs more input. -/

namespace GoPrompt

inductive PendingReason where
  | emptyInput
  | cutOff (construct : OpenConstruct)
  | unclosedParen | unclosedBracket | unclosedBrace
  | trailingOperator | trailingComma
  | incompleteStatement
  deriving DecidableEq, Repr

namespace PendingReason

def ofOpenDelimiter? : Operator → Option PendingReason
  | .leftParen => some .unclosedParen
  | .leftBracket => some .unclosedBracket
  | .leftBrace => some .unclosedBrace
  | _ => none

/-- Whether an operand has to follow the operator. -/
def expectsOperand (operator : Operator) : Bool :=
  decide (0 < operator.precedence) || operator.isAssignment ||
    [.define, .arrow, .period, .not, .colon].contains operator

def ofLastToken : Option TokenKind → PendingReason
  | none => .emptyInput
  | some (.operator .comma) => .trailingComma
  | some (.operator operator) => if expectsOperand operator then .trailingOperator else .incompleteStatement
  | some _ => .incompleteStatement

def describe : PendingReason → String
  | .emptyInput => "empty input"
  | .cutOff .string => "unterminated string literal"
  | .cutOff .rawString => "unterminated raw string literal"
  | .cutOff .rune => "unterminated rune literal"
  | .cutOff .comment => "unterminated block comment"
  | .cutOff .number => "incomplete numeric literal"
  | .unclosedParen => "unclosed `(`"
  | .unclosedBracket => "unclosed `[`"
  | .unclosedBrace => "unclosed `\x7b`"
  | .trailingOperator => "operator needs an operand"
  | .trailingComma => "list continues after `,`"
  | .incompleteStatement => "incomplete statement"

end PendingReason

end GoPrompt
