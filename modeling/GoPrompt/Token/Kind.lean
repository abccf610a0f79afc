/-! The kinds of tokens of the Go language, with what the grammar and the insertion of semicolons ask
of each: its precedence as a binary operator, and whether a newline after it ends the statement. -/

namespace GoPrompt

inductive Keyword where
  | break | case | chan | const | continue | default | defer | else | fallthrough | for | func | go | goto | if | import
  | interface | map | package | range | return | select | struct | switch | type | var
  deriving DecidableEq, Repr

namespace Keyword

def all : List Keyword :=
  [.break, .case, .chan, .const, .continue, .default, .defer, .else, .fallthrough, .for, .func, .go, .goto, .if,
    .import, .interface, .map, .package, .range, .return, .select, .struct, .switch, .type, .var]

def lexeme : Keyword → String
  | .break => "break"
  | .case => "case"
  | .chan => "chan"
  | .const => "const"
  | .continue => "continue"
  | .default => "default"
  | .defer => "defer"
  | .else => "else"
  | .fallthrough => "fallthrough"
  | .for => "for"
  | .func => "func"
  | .go => "go"
  | .goto => "goto"
  | .if => "if"
  | .import => "import"
  | .interface => "interface"
  | .map => "map"
  | .package => "package"
  | .range => "range"
  | .return => "return"
  | .select => "select"
  | .struct => "struct"
  | .switch => "switch"
  | .type => "type"
  | .var => "var"

/-- The keyword that a word spells, if it spells one. -/
def ofLexeme? (word : String) : Option Keyword := all.find? fun keyword => keyword.lexeme == word

def terminatesLine : Keyword → Bool
  | .break | .continue | .fallthrough | .return => true
  | _ => false

theorem mem_all (keyword : Keyword) : keyword ∈ all := by cases keyword <;> decide

theorem lexeme_of_ofLexeme? {word : String} {keyword : Keyword} (found : ofLexeme? word = some keyword) :
    keyword.lexeme = word := by
  simpa using List.find?_some found

theorem ofLexeme?_lexeme (keyword : Keyword) : ofLexeme? keyword.lexeme = some keyword := by
  cases keyword <;> decide

end Keyword

inductive LiteralKind where
  | int | float | imaginary | rune | string
  deriving DecidableEq, Repr

/-- Operators and punctuation, except the semicolon. -/
inductive Operator where
  | add | sub | mul | quo | rem | and | or | xor | shl | shr | andNot
  | addAssign | subAssign | mulAssign | quoAssign | remAssign | andAssign | orAssign | xorAssign | shlAssign | shrAssign
  | andNotAssign
  | logicalAnd | logicalOr | arrow | inc | dec | eql | lss | gtr | assign | not | neq | leq | geq | define | ellipsis
  | leftParen | leftBracket | leftBrace | comma | period | rightParen | rightBracket | rightBrace | colon | tilde
  deriving DecidableEq, Repr

namespace Operator

def spelling : Operator → List Char
  | .add => ['+']
  | .sub => ['-']
  | .mul => ['*']
  | .quo => ['/']
  | .rem => ['%']
  | .and => ['&']
  | .or => ['|']
  | .xor => ['^']
  | .shl => ['<', '<']
  | .shr => ['>', '>']
  | .andNot => ['&', '^']
  | .addAssign => ['+', '=']
  | .subAssign => ['-', '=']
  | .mulAssign => ['*', '=']
  | .quoAssign => ['/', '=']
  | .remAssign => ['%', '=']
  | .andAssign => ['&', '=']
  | .orAssign => ['|', '=']
  | .xorAssign => ['^', '=']
  | .shlAssign => ['<', '<', '=']
  | .shrAssign => ['>', '>', '=']
  | .andNotAssign => ['&', '^', '=']
  | .logicalAnd => ['&', '&']
  | .logicalOr => ['|', '|']
  | .arrow => ['<', '-']
  | .inc => ['+', '+']
  | .dec => ['-', '-']
  | .eql => ['=', '=']
  | .lss => ['<']
  | .gtr => ['>']
  | .assign => ['=']
  | .not => ['!']
  | .neq => ['!', '=']
  | .leq => ['<', '=']
  | .geq => ['>', '=']
  | .define => [':', '=']
  | .ellipsis => ['.', '.', '.']
  | .leftParen => ['(']
  | .leftBracket => ['[']
  | .leftBrace => ['{']
  | .comma => [',']
  | .period => ['.']
  | .rightParen => [')']
  | .rightBracket => [']']
  | .rightBrace => ['}']
  | .colon => [':']
  | .tilde => ['~']

def lexeme (operator : Operator) : String := String.ofList operator.spelling

/-- Every operator, the longer spellings first. -/
def longestFirst : List Operator :=
  [.shlAssign, .shrAssign, .andNotAssign, .ellipsis, .shl, .shr, .andNot, .addAssign, .subAssign, .mulAssign,
    .quoAssign, .remAssign, .andAssign, .orAssign, .xorAssign, .logicalAnd, .logicalOr, .arrow, .inc, .dec,
    .eql, .neq, .leq, .geq, .define, .add, .sub, .mul, .quo, .rem, .and, .or, .xor, .lss, .gtr, .assign, .not,
    .leftParen, .leftBracket, .leftBrace, .comma, .period, .rightParen, .rightBracket, .rightBrace, .colon,
    .tilde]

/-- How tightly a binary operator binds, from one to five; zero for every other operator. -/
def precedence : Operator → Nat
  | .logicalOr => 1
  | .logicalAnd => 2
  | .eql | .neq | .lss | .leq | .gtr | .geq => 3
  | .add | .sub | .or | .xor => 4
  | .mul | .quo | .rem | .shl | .shr | .and | .andNot => 5
  | _ => 0

def isAssignment : Operator → Bool
  | .assign | .addAssign | .subAssign | .mulAssign | .quoAssign | .remAssign | .andAssign | .orAssign | .xorAssign
  | .shlAssign | .shrAssign | .andNotAssign => true
  | _ => false

def terminatesLine : Operator → Bool
  | .inc | .dec | .rightParen | .rightBracket | .rightBrace => true
  | _ => false

def isOpener : Operator → Bool
  | .leftParen | .leftBracket | .leftBrace => true
  | _ => false

def isCloser : Operator → Bool
  | .rightParen | .rightBracket | .rightBrace => true
  | _ => false

theorem mem_longestFirst (operator : Operator) : operator ∈ longestFirst := by cases operator <;> decide

theorem precedence_le (operator : Operator) : operator.precedence ≤ 5 := by cases operator <;> decide

end Operator

/-- Where a semicolon comes from: it is written, or inserted at a newline or at the end of the input. -/
inductive SemicolonKind where
  | explicit | newline | endOfInput
  deriving DecidableEq, Repr

inductive TokenKind where
  | identifier
  | keyword (keyword : Keyword)
  | literal (literal : LiteralKind)
  | operator (operator : Operator)
  | semicolon (origin : SemicolonKind)
  /-- Text that no continuation turns into a token. -/
  | illegal
  deriving DecidableEq, Repr

namespace TokenKind

/-- Whether a newline after the token inserts a semicolon. -/
def terminatesLine : TokenKind → Bool
  | .identifier | .literal _ => true
  | .keyword word => word.terminatesLine
  | .operator symbol => symbol.terminatesLine
  | .semicolon _ | .illegal => false

def operator? : TokenKind → Option Operator
  | .operator symbol => some symbol
  | _ => none

end TokenKind

end GoPrompt
