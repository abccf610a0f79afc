import GoPrompt.Grammar.Expression

/-! The abstract syntax of the statements that can stand at a prompt, as one family of trees with an index for
every syntactic category, the kinds of tokens that a tree is written with, and the levels of nesting that it takes.
A tree leaves open how its names and literals are spelled. -/

namespace GoPrompt.Syntax

open Grammar

inductive Direction where
  | both | send | receive
  deriving DecidableEq, Repr

/-- The declarations that can be grouped. -/
inductive Declared where
  | import | const | var | type
  deriving DecidableEq, Repr

namespace Declared

def keyword : Declared → Keyword
  | .import => .import
  | .const => .const
  | .var => .var
  | .type => .type

def kind : Declared → DeclarationKind
  | .import => .import
  | .const => .const
  | .var => .var
  | .type => .type

end Declared

/-- What the clauses of a `switch` or `select` statement choose by. -/
inductive Choice where
  | value | type | communication
  deriving DecidableEq, Repr

inductive Category where
  | type
  /-- The types that can stand in front of the body of a composite literal, where the length of an array may be
  left to the body. -/
  | literalType (bodyFollows : Bool)
  | signature | result | parameter | field | member
  | expression (place : Place)
  | unary (place : Place)
  | primary (place : Place) (shape : Shape)
  | argument | literalValue | element | entry
  /-- The values of a declaration, behind their sign. -/
  | assigned
  | specification (declared : Declared)
  | declaration (declared : Declared)
  | simple (place : Place) (kind : StatementKind)
  /-- A simple statement of any kind in a header. -/
  | action
  /-- A simple statement in front of the condition, tag or guard of a header. -/
  | initial
  /-- The guard of a type switch. -/
  | guard
  /-- The first clause of a loop over a range. -/
  | range
  | block
  /-- A statement of any kind in a block. -/
  | line
  | statement (context : Context) (kind : StatementKind)
  | conditional | otherwise
  /-- What stands between `case` and the colon. -/
  | label (choice : Choice)
  | clause (choice : Choice)
  | list (item : Category)
  | optional (item : Category)
  deriving DecidableEq, Repr

def Category.separator : Category → TokenKind
  | .field | .member | .specification _ | .line | .clause _ => .semicolon .explicit
  | _ => .operator .comma

/-- The shape of a selector on an operand. -/
def selected (base : Shape) : Shape := if base = .identifier then .qualifiedName else .other

inductive Tree : Category → Type where
  | typeName : Tree .type
  | qualifiedType : Tree .type
  | pointer (base : Tree .type) : Tree .type
  | ofLiteralType (type : Tree (.literalType false)) : Tree .type
  | channel (direction : Direction) (element : Tree .type) : Tree .type
  | functionType (signature : Tree .signature) : Tree .type
  | interface (members : Tree (.optional (.list .member))) : Tree .type
  | array {bodyFollows : Bool} (length : Tree (.expression .free)) (element : Tree .type) :
      Tree (.literalType bodyFollows)
  /-- `[...]T` -/
  | openArray (element : Tree .type) : Tree (.literalType true)
  | slice {bodyFollows : Bool} (element : Tree .type) : Tree (.literalType bodyFollows)
  | map {bodyFollows : Bool} (key value : Tree .type) : Tree (.literalType bodyFollows)
  | struct {bodyFollows : Bool} (fields : Tree (.optional (.list .field))) : Tree (.literalType bodyFollows)
  | signature (parameters : Tree (.optional (.list .parameter))) (result : Tree .result) : Tree .signature
  | noResult : Tree .result
  | resultType (type : Tree .type) : Tree .result
  | results (parameters : Tree (.optional (.list .parameter))) : Tree .result
  | parameter (named variadic : Bool) (type : Tree .type) : Tree .parameter
  /-- One name and `more` others, with their type. -/
  | field (more : Nat) (type : Tree .type) (tagged : Bool) : Tree .field
  | embedded (starred qualified tagged : Bool) : Tree .field
  | method (signature : Tree .signature) : Tree .member
  | embeddedType (type : Tree .type) : Tree .member
  | ofUnary {place : Place} (operand : Tree (.unary place)) : Tree (.expression place)
  | binary {place : Place} (left : Tree (.expression place)) (operator : Operator) (binds : operator.precedence ≠ 0)
      (right : Tree (.expression place)) : Tree (.expression place)
  | unary {place : Place} (operator : Operator) (isUnary : isUnary operator = true ∨ operator = .arrow)
      (operand : Tree (.unary place)) : Tree (.unary place)
  | ofPrimary {place : Place} {shape : Shape} (operand : Tree (.primary place shape)) : Tree (.unary place)
  | name {place : Place} : Tree (.primary place .identifier)
  | literal {place : Place} (kind : LiteralKind) : Tree (.primary place .other)
  | parenthesized {place : Place} (inner : Tree (.expression .free)) : Tree (.primary place .other)
  | functionLiteral {place : Place} (signature : Tree .signature) (body : Tree .block) : Tree (.primary place .other)
  | composite {place : Place} (type : Tree (.literalType true)) (value : Tree .literalValue) :
      Tree (.primary place .other)
  /-- A composite literal of a named type; in a header it has to stand in parentheses or brackets. -/
  | compositeNamed {shape : Shape} (isName : shape.isTypeName = true) (type : Tree (.primary .free shape))
      (value : Tree .literalValue) : Tree (.primary .free .other)
  | selector {place : Place} {shape : Shape} (base : Tree (.primary place shape)) :
      Tree (.primary place (selected shape))
  | assertion {place : Place} {shape : Shape} (base : Tree (.primary place shape)) (type : Tree .type) :
      Tree (.primary place .other)
  | index {place : Place} {shape : Shape} (base : Tree (.primary place shape)) (index : Tree (.expression .free)) :
      Tree (.primary place .other)
  | sliced {place : Place} {shape : Shape} (base : Tree (.primary place shape))
      (low high : Tree (.optional (.expression .free))) : Tree (.primary place .other)
  | fullSliced {place : Place} {shape : Shape} (base : Tree (.primary place shape))
      (low : Tree (.optional (.expression .free))) (high capacity : Tree (.expression .free)) :
      Tree (.primary place .other)
  | call {place : Place} {shape : Shape} (base : Tree (.primary place shape))
      (arguments : Tree (.optional (.list .argument))) : Tree (.primary place .other)
  | argument (value : Tree (.expression .free)) (spread : Bool) : Tree .argument
  | literalValue (entries : Tree (.optional (.list .entry))) : Tree .literalValue
  | element (value : Tree (.expression .free)) : Tree .element
  /-- A literal value whose type is left out. -/
  | elided (value : Tree .literalValue) : Tree .element
  | entry (value : Tree .element) : Tree .entry
  | keyed (key value : Tree .element) : Tree .entry
  | importDot : Tree (.specification .import)
  | importSpec (renamed : Bool) : Tree (.specification .import)
  | assigned (values : Tree (.list (.expression .free))) : Tree .assigned
  | constSpec (more : Nat) (type : Tree (.optional .type)) (values : Tree (.optional .assigned)) :
      Tree (.specification .const)
  | varSpec (more : Nat) (type : Tree .type) (values : Tree (.optional .assigned)) :
      Tree (.specification .var)
  | varValues (more : Nat) (values : Tree .assigned) : Tree (.specification .var)
  | typeSpec (isAlias : Bool) (type : Tree .type) : Tree (.specification .type)
  | single {declared : Declared} (item : Tree (.specification declared)) : Tree (.declaration declared)
  | grouped {declared : Declared} (items : Tree (.optional (.list (.specification declared)))) :
      Tree (.declaration declared)
  | expressionStatement {place : Place} (value : Tree (.expression place)) : Tree (.simple place .expression)
  | send {place : Place} (channel value : Tree (.expression place)) : Tree (.simple place .send)
  | increment {place : Place} (operand : Tree (.expression place)) : Tree (.simple place .incDec)
  | decrement {place : Place} (operand : Tree (.expression place)) : Tree (.simple place .incDec)
  | assignment {place : Place} (left : Tree (.list (.expression place))) (operator : Operator)
      (assigns : operator.isAssignment = true) (right : Tree (.list (.expression place))) :
      Tree (.simple place .assignment)
  | definition {place : Place} (left right : Tree (.list (.expression place))) : Tree (.simple place .shortVarDecl)
  | action {kind : StatementKind} (simple : Tree (.simple .header kind)) : Tree .action
  | initial (action : Tree .action) : Tree .initial
  | guard {shape : Shape} (bound : Bool) (operand : Tree (.primary .header shape)) : Tree .guard
  | range (ranged : Tree (.expression .header)) : Tree .range
  | rangeDefining (left : Tree (.list (.expression .header))) (ranged : Tree (.expression .header)) : Tree .range
  | rangeAssigning (left : Tree (.list (.expression .header))) (ranged : Tree (.expression .header)) : Tree .range
  | block (lines : Tree (.optional (.list .line))) : Tree .block
  | line {kind : StatementKind} (statement : Tree (.statement .block kind)) : Tree .line
  | declare {context : Context} {declared : Declared} (allowed : declared = .import → context = .topLevel)
      (declaration : Tree (.declaration declared)) : Tree (.statement context (.declaration declared.kind))
  | functionDeclaration (signature : Tree .signature) (body : Tree (.optional .block)) :
      Tree (.statement .topLevel (.declaration .func))
  | methodDeclaration (receiver : Tree .parameter) (signature : Tree .signature)
      (body : Tree (.optional .block)) : Tree (.statement .topLevel (.declaration .method))
  | simple {context : Context} {kind : StatementKind} (simple : Tree (.simple .free kind)) :
      Tree (.statement context kind)
  | labeled {context : Context} {kind : StatementKind} (statement : Tree (.statement .block kind)) :
      Tree (.statement context .labeled)
  | go {context : Context} (call : Tree (.expression .free)) : Tree (.statement context .go)
  | defer {context : Context} (call : Tree (.expression .free)) : Tree (.statement context .defer)
  | return {context : Context} (values : Tree (.optional (.list (.expression .free)))) :
      Tree (.statement context .return)
  | break {context : Context} (toLabel : Bool) : Tree (.statement context .break)
  | continue {context : Context} (toLabel : Bool) : Tree (.statement context .continue)
  | goto {context : Context} : Tree (.statement context .goto)
  | fallthrough {context : Context} : Tree (.statement context .fallthrough)
  | blockStatement {context : Context} (block : Tree .block) : Tree (.statement context .block)
  | ifStatement {context : Context} (conditional : Tree .conditional) : Tree (.statement context .if)
  | conditional (first : Tree (.optional .initial)) (condition : Tree (.expression .header)) (body : Tree .block)
      (otherwise : Tree (.optional .otherwise)) : Tree .conditional
  | elseIf (conditional : Tree .conditional) : Tree .otherwise
  | elseBlock (block : Tree .block) : Tree .otherwise
  | forEver {context : Context} (body : Tree .block) : Tree (.statement context .for)
  | forCondition {context : Context} (condition : Tree (.expression .header)) (body : Tree .block) :
      Tree (.statement context .for)
  | forClauses {context : Context} (first : Tree (.optional .action))
      (condition : Tree (.optional (.expression .header))) (last : Tree (.optional .action)) (body : Tree .block) :
      Tree (.statement context .for)
  | forRange {context : Context} (range : Tree .range) (body : Tree .block) : Tree (.statement context .for)
  | switch {context : Context} (first : Tree (.optional .initial)) (tag : Tree (.optional (.expression .header)))
      (clauses : Tree (.optional (.list (.clause .value)))) : Tree (.statement context .switch)
  | typeSwitch {context : Context} (first : Tree (.optional .initial)) (guard : Tree .guard)
      (clauses : Tree (.optional (.list (.clause .type)))) : Tree (.statement context .typeSwitch)
  | select {context : Context} (clauses : Tree (.optional (.list (.clause .communication)))) :
      Tree (.statement context .select)
  | values (values : Tree (.list (.expression .free))) : Tree (.label .value)
  | types (types : Tree (.list .type)) : Tree (.label .type)
  | communication {kind : StatementKind} (notCount : kind ≠ .incDec) (simple : Tree (.simple .free kind)) :
      Tree (.label .communication)
  | case {choice : Choice} (label : Tree (.label choice)) (lines : Tree (.optional (.list .line))) :
      Tree (.clause choice)
  | default {choice : Choice} (lines : Tree (.optional (.list .line))) : Tree (.clause choice)
  | one {item : Category} (tree : Tree item) : Tree (.list item)
  | cons {item : Category} (tree : Tree item) (later : Tree (.list item)) : Tree (.list item)
  | absent {item : Category} : Tree (.optional item)
  | present {item : Category} (tree : Tree item) : Tree (.optional item)

/-- One name and `more` others, with commas between them. -/
def nameKinds : Nat → List TokenKind
  | 0 => [.identifier]
  | more + 1 => .identifier :: .operator .comma :: nameKinds more

def kindsIf : Bool → List TokenKind → List TokenKind
  | true, kinds => kinds
  | false, _ => []

def Direction.kinds : Direction → List TokenKind
  | .both => [.keyword .chan]
  | .send => [.keyword .chan, .operator .arrow]
  | .receive => [.operator .arrow, .keyword .chan]

/-- What makes an operand the guard of a type switch. -/
def guardKinds : List TokenKind := [.operator .period, .operator .leftParen, .keyword .type, .operator .rightParen]

namespace Tree

/-- The kinds of tokens that a tree is written with. -/
def kinds {category : Category} : Tree category → List TokenKind
  | typeName => [.identifier]
  | qualifiedType => [.identifier, .operator .period, .identifier]
  | pointer base => .operator .mul :: base.kinds
  | ofLiteralType type => type.kinds
  | channel direction inner => direction.kinds ++ inner.kinds
  | functionType type => .keyword .func :: type.kinds
  | interface members => .keyword .interface :: .operator .leftBrace :: (members.kinds ++ [.operator .rightBrace])
  | array length inner => .operator .leftBracket :: (length.kinds ++ .operator .rightBracket :: inner.kinds)
  | openArray inner => .operator .leftBracket :: .operator .ellipsis :: .operator .rightBracket :: inner.kinds
  | slice inner => .operator .leftBracket :: .operator .rightBracket :: inner.kinds
  | map key value => .keyword .map :: .operator .leftBracket :: (key.kinds ++ .operator .rightBracket :: value.kinds)
  | struct fields => .keyword .struct :: .operator .leftBrace :: (fields.kinds ++ [.operator .rightBrace])
  | signature parameters out => .operator .leftParen :: (parameters.kinds ++ .operator .rightParen :: out.kinds)
  | noResult => []
  | resultType type => type.kinds
  | results parameters => .operator .leftParen :: (parameters.kinds ++ [.operator .rightParen])
  | parameter named variadic type =>
      kindsIf named [.identifier] ++ (kindsIf variadic [.operator .ellipsis] ++ type.kinds)
  | field more type tagged => nameKinds more ++ (type.kinds ++ kindsIf tagged [.literal .string])
  | embedded starred qualified tagged =>
    kindsIf starred [.operator .mul] ++
      (kindsIf qualified [.identifier, .operator .period] ++ .identifier :: kindsIf tagged [.literal .string])
  | method type => .identifier :: type.kinds
  | embeddedType type => type.kinds
  | ofUnary operand => operand.kinds
  | binary left operator _ right => left.kinds ++ .operator operator :: right.kinds
  | unary operator _ operand => .operator operator :: operand.kinds
  | ofPrimary operand => operand.kinds
  | name => [.identifier]
  | literal kind => [.literal kind]
  | parenthesized inner => .operator .leftParen :: (inner.kinds ++ [.operator .rightParen])
  | functionLiteral type body => .keyword .func :: (type.kinds ++ body.kinds)
  | composite type value => type.kinds ++ value.kinds
  | compositeNamed _ type value => type.kinds ++ value.kinds
  | selector base => base.kinds ++ [.operator .period, .identifier]
  | assertion base type =>
      base.kinds ++ .operator .period :: .operator .leftParen :: (type.kinds ++ [.operator .rightParen])
  | index base place => base.kinds ++ .operator .leftBracket :: (place.kinds ++ [.operator .rightBracket])
  | sliced base low high =>
    base.kinds ++ .operator .leftBracket :: (low.kinds ++ .operator .colon :: (high.kinds ++ [.operator .rightBracket]))
  | fullSliced base low high capacity =>
    base.kinds ++ .operator .leftBracket ::
      (low.kinds ++ .operator .colon ::
        (high.kinds ++ .operator .colon :: (capacity.kinds ++ [.operator .rightBracket])))
  | call base arguments => base.kinds ++ .operator .leftParen :: (arguments.kinds ++ [.operator .rightParen])
  | argument value spread => value.kinds ++ kindsIf spread [.operator .ellipsis]
  | literalValue entries => .operator .leftBrace :: (entries.kinds ++ [.operator .rightBrace])
  | element value => value.kinds
  | elided value => value.kinds
  | entry value => value.kinds
  | keyed key value => key.kinds ++ .operator .colon :: value.kinds
  | importDot => [.operator .period, .literal .string]
  | importSpec renamed => kindsIf renamed [.identifier] ++ [.literal .string]
  | assigned list => .operator .assign :: list.kinds
  | constSpec more type list => nameKinds more ++ (type.kinds ++ list.kinds)
  | varSpec more type list => nameKinds more ++ (type.kinds ++ list.kinds)
  | varValues more list => nameKinds more ++ list.kinds
  | typeSpec isAlias type => .identifier :: (kindsIf isAlias [.operator .assign] ++ type.kinds)
  | @single declared item => .keyword declared.keyword :: item.kinds
  | @grouped declared items =>
      .keyword declared.keyword :: .operator .leftParen :: (items.kinds ++ [.operator .rightParen])
  | expressionStatement value => value.kinds
  | send target value => target.kinds ++ .operator .arrow :: value.kinds
  | increment operand => operand.kinds ++ [.operator .inc]
  | decrement operand => operand.kinds ++ [.operator .dec]
  | assignment left operator _ right => left.kinds ++ .operator operator :: right.kinds
  | definition left right => left.kinds ++ .operator .define :: right.kinds
  | action statement => statement.kinds
  | initial first => first.kinds ++ [.semicolon .explicit]
  | guard bound operand => kindsIf bound [.identifier, .operator .define] ++ (operand.kinds ++ guardKinds)
  | range ranged => .keyword .range :: ranged.kinds
  | rangeDefining left ranged => left.kinds ++ .operator .define :: .keyword .range :: ranged.kinds
  | rangeAssigning left ranged => left.kinds ++ .operator .assign :: .keyword .range :: ranged.kinds
  | block lines => .operator .leftBrace :: (lines.kinds ++ [.operator .rightBrace])
  | line statement => statement.kinds
  | declare _ declaration => declaration.kinds
  | functionDeclaration type body => .keyword .func :: .identifier :: (type.kinds ++ body.kinds)
  | methodDeclaration receiver type body =>
    .keyword .func :: .operator .leftParen ::
      (receiver.kinds ++ .operator .rightParen :: .identifier :: (type.kinds ++ body.kinds))
  | simple statement => statement.kinds
  | labeled statement => .identifier :: .operator .colon :: statement.kinds
  | go called => .keyword .go :: called.kinds
  | defer called => .keyword .defer :: called.kinds
  | «return» list => .keyword .return :: list.kinds
  | «break» toLabel => .keyword .break :: kindsIf toLabel [.identifier]
  | «continue» toLabel => .keyword .continue :: kindsIf toLabel [.identifier]
  | goto => [.keyword .goto, .identifier]
  | fallthrough => [.keyword .fallthrough]
  | blockStatement body => body.kinds
  | ifStatement tree => tree.kinds
  | conditional first condition body rest =>
      .keyword .if :: (first.kinds ++ (condition.kinds ++ (body.kinds ++ rest.kinds)))
  | elseIf tree => .keyword .else :: tree.kinds
  | elseBlock body => .keyword .else :: body.kinds
  | forEver body => .keyword .for :: body.kinds
  | forCondition condition body => .keyword .for :: (condition.kinds ++ body.kinds)
  | forClauses first condition after body =>
    .keyword .for ::
      ((first.kinds ++ .semicolon .explicit :: (condition.kinds ++ .semicolon .explicit :: after.kinds)) ++ body.kinds)
  | forRange ranged body => .keyword .for :: (ranged.kinds ++ body.kinds)
  | switch first tag clauses =>
    .keyword .switch ::
      (first.kinds ++ (tag.kinds ++ .operator .leftBrace :: (clauses.kinds ++ [.operator .rightBrace])))
  | typeSwitch first operand clauses =>
    .keyword .switch ::
      (first.kinds ++ (operand.kinds ++ .operator .leftBrace :: (clauses.kinds ++ [.operator .rightBrace])))
  | select clauses => .keyword .select :: .operator .leftBrace :: (clauses.kinds ++ [.operator .rightBrace])
  | values list => list.kinds
  | types list => list.kinds
  | communication _ statement => statement.kinds
  | case label lines => .keyword .case :: (label.kinds ++ .operator .colon :: lines.kinds)
  | default lines => .keyword .default :: .operator .colon :: lines.kinds
  | one tree => tree.kinds
  | @cons item tree later => tree.kinds ++ item.separator :: later.kinds
  | absent => []
  | present tree => tree.kinds

/-- The levels of nesting that reading a tree takes. Every type, unary expression, expression, statement, nested
literal value and `else if` takes one of its own. -/
def depth {category : Category} : Tree category → Nat
  | typeName | qualifiedType => 1
  | pointer type | ofLiteralType type | channel _ type | functionType type | interface type => type.depth + 1
  | array length type => max length.depth type.depth
  | openArray type | slice type | struct type => type.depth
  | map key value => max key.depth value.depth
  | signature parameters out => max parameters.depth out.depth
  | noResult => 0
  | resultType type | results type | parameter _ _ type | field _ type _ | method type | embeddedType type => type.depth
  | embedded _ _ _ => 0
  | ofUnary operand => operand.depth + 1
  | binary left _ _ right => max left.depth right.depth
  | unary _ _ operand => operand.depth + 1
  | ofPrimary operand => operand.depth + 1
  | name | literal _ => 0
  | parenthesized inner => inner.depth
  | functionLiteral type body => max type.depth body.depth
  | composite type value | compositeNamed _ type value => max type.depth value.depth
  | selector base => base.depth
  | assertion base type => max base.depth type.depth
  | index base place => max base.depth place.depth
  | sliced base low high => max base.depth (max low.depth high.depth)
  | fullSliced base low high capacity => max base.depth (max low.depth (max high.depth capacity.depth))
  | call base arguments => max base.depth arguments.depth
  | argument value _ | literalValue value | element value | entry value => value.depth
  | elided value => value.depth + 1
  | keyed key value => max key.depth value.depth
  | importDot | importSpec _ => 0
  | assigned list => list.depth
  | constSpec _ type list => max type.depth list.depth
  | varSpec _ type list => max type.depth list.depth
  | varValues _ list => list.depth
  | typeSpec _ type => type.depth
  | single item => item.depth
  | grouped items => items.depth
  | expressionStatement value | increment value | decrement value => value.depth
  | send left right => max left.depth right.depth
  | assignment left _ _ right | definition left right => max left.depth right.depth
  | action statement => statement.depth
  | initial first => first.depth
  | guard _ operand => operand.depth + 2
  | range ranged => ranged.depth
  | rangeDefining left ranged | rangeAssigning left ranged => max left.depth ranged.depth
  | block lines => lines.depth
  | line statement => statement.depth
  | declare _ declaration => declaration.depth + 1
  | functionDeclaration type body => max type.depth body.depth + 1
  | methodDeclaration receiver type body => max receiver.depth (max type.depth body.depth) + 1
  | simple statement => statement.depth + 1
  | labeled statement => max 2 statement.depth + 1
  | go called | defer called => called.depth + 1
  | «return» list => list.depth + 1
  | «break» _ | «continue» _ | goto | fallthrough => 1
  | blockStatement body | forEver body => body.depth + 1
  | ifStatement tree => tree.depth + 1
  | conditional first condition body rest => max first.depth (max condition.depth (max body.depth rest.depth))
  | elseIf tree => tree.depth + 1
  | elseBlock body => body.depth
  | forCondition condition body => max condition.depth body.depth + 1
  | forClauses first condition after body =>
    max (max first.depth (max condition.depth after.depth)) body.depth + 1
  | forRange ranged body => max ranged.depth body.depth + 1
  | switch first tag clauses => max first.depth (max tag.depth clauses.depth) + 1
  | typeSwitch first operand clauses => max first.depth (max operand.depth clauses.depth) + 1
  | select clauses => clauses.depth + 1
  | values list | types list => list.depth
  | communication _ statement => statement.depth
  | case label lines => max label.depth lines.depth
  | default lines => lines.depth
  | one tree => tree.depth
  | cons tree later => max tree.depth later.depth
  | absent => 0
  | present tree => tree.depth

end Tree

end GoPrompt.Syntax
