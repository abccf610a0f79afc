import GoPrompt.Lexical.Quoted
import GoPrompt.Unicode.Letters

/-! Reading one token, or the stretch of blanks, newlines and comments in front of one. Lengths count
characters; nothing here depends on where in the source the text stands. -/

namespace GoPrompt

def byteOrderMark : Char := '\uFEFF'

def isNameStart (c : Char) : Bool := Unicode.isAlphabetic c || c == '_'

def continuesName (c : Char) : Bool := Unicode.isAlphanumeric c || c == '_'

inductive TokenShape where
  | whole (kind : TokenKind)
  | cutOff (kind : LiteralKind) (cause : CutoffCause)
  | invalid (flaw : Flaw)
  deriving DecidableEq, Repr

structure TokenScan where
  length : Nat
  shape : TokenShape
  deriving DecidableEq, Repr

def LiteralScan.toTokenScan (scan : LiteralScan) : TokenScan where
  length := scan.length
  shape :=
    match scan.outcome with
    | .complete kind => .whole (.literal kind)
    | .cutOff kind cause => .cutOff kind cause
    | .invalid flaw => .invalid flaw

def nameKind (name : List Char) : TokenKind :=
  (Keyword.ofLexeme? (String.ofList name)).elim .identifier .keyword

def startsNumber (first : Char) (rest : List Char) : Bool :=
  first.isDigit || (first == '.' && rest.head?.any Char.isDigit)

/-- The longest operator that the text starts with. -/
def operator? (text : List Char) : Option Operator :=
  Operator.longestFirst.find? fun operator => operator.spelling.isPrefixOf text

/-- Reads the token that starts with the character `first`. -/
def scanToken (first : Char) (rest : List Char) : TokenScan :=
  let text := first :: rest
  if isNameStart first then
    let name := first :: rest.takeWhile continuesName
    ⟨name.length, .whole (nameKind name)⟩
  else if startsNumber first rest then (Number.scan text).toTokenScan
  else if first = Quoted.doubleQuote then (Quoted.scanString text).toTokenScan
  else if first = Quoted.backquote then (Quoted.scanRawString text).toTokenScan
  else if first = Quoted.singleQuote then (Quoted.scanRune text).toTokenScan
  else if first = ';' then ⟨1, .whole (.semicolon .explicit)⟩
  else
    match operator? text with
    | some operator => ⟨operator.spelling.length, .whole (.operator operator)⟩
    | none => ⟨1, .invalid ⟨0, 1, .character first⟩⟩

inductive CommentEnd where
  | closed (spansLines : Bool)
  | nul
  | endOfInput
  deriving DecidableEq, Repr

/-- Reads on up to the end of a block comment of which `length` characters are already read;
`spansLines` says whether a newline was among them. Returns the length before the character that ends
the reading, or with the closing mark. -/
def blockComment (length : Nat) (spansLines : Bool) : List Char → Nat × CommentEnd
  | [] => (length, .endOfInput)
  | '*' :: '/' :: _ => (length + 2, .closed spansLines)
  | c :: rest =>
    if c = '\x00' then (length, .nul) else blockComment (length + 1) (spansLines || c == '\n') rest

/-- What stands behind the text that the lexer skips. -/
inductive Landmark where
  | token (first : Char)
  /-- A newline, or a comment that spans lines, where a semicolon is inserted. -/
  | lineEnd (length : Nat)
  | openComment (length : Nat)
  /-- A block comment with a NUL after `length` characters. -/
  | nulInComment (length : Nat)
  | endOfInput
  deriving DecidableEq, Repr

def isHorizontalBlank (c : Char) : Bool := c == ' ' || c == '\t' || c == '\r'

/-- The length of the text to skip, and what stands behind it. A newline is skipped unless the lexer is
armed to insert a semicolon there. The first `skip` characters belong to a comment that is already
read, and `length` characters are already known to be skipped. -/
def gap (armed : Bool) : Nat → Nat → List Char → Nat × Landmark
  | _, length, [] => (length, .endOfInput)
  | skip + 1, length, _ :: rest => gap armed skip length rest
  | 0, length, c :: rest =>
    if isHorizontalBlank c then gap armed 0 (length + 1) rest
    else if c = '\n' then
      if armed then (length, .lineEnd 1) else gap armed 0 (length + 1) rest
    else if c = '/' ∧ rest.head? = some '/' then
      let line := 1 + (rest.takeWhile (· != '\n')).length
      gap armed (line - 1) (length + line) rest
    else if c = '/' ∧ rest.head? = some '*' then
      match blockComment 2 false (rest.drop 1) with
      | (taken, .closed spansLines) =>
        if spansLines && armed then (length, .lineEnd taken) else gap armed (taken - 1) (length + taken) rest
      | (taken, .nul) => (length, .nulInComment taken)
      | (taken, .endOfInput) => (length, .openComment taken)
    else (length, .token c)

end GoPrompt
