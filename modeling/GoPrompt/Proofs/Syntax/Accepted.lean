import GoPrompt.Proofs.Acceptance.Functions
import GoPrompt.Proofs.Syntax.Tree

/-! The words of every tree are read to their end, by the reader of its category, where as many levels are left as the
tree takes. -/

namespace GoPrompt.Syntax

open Grammar

def Declared.item : Declared → Deeper → Parse Unit
  | .import => fun _ => importItem
  | .const => constItem
  | .var => varItem
  | .type => typeItem

/-- The reader of what stands between `case` and the colon. -/
def Choice.label : Choice → Deeper → Parse Unit
  | .value => switchLabel false
  | .type => switchLabel true
  | .communication => Grammar.communication

/-- What it means for kinds of tokens to be read as a category. -/
def Category.Accepts (supply : Supply) : Category → Nat → List TokenKind → Prop
  | .type => IsType supply
  | .literalType bodyFollows => IsLiteralType supply bodyFollows
  | .signature => IsSignature supply
  | .result => IsResult supply
  | .parameter => IsParameter supply
  | .field => IsField supply
  | .member => IsMember supply
  | .expression place => IsExpression supply place
  | .unary place => IsUnary supply place
  | .primary place shape => IsPrimary supply place shape
  | .argument => IsArgument supply
  | .literalValue => IsLiteralValue supply
  | .element => IsElement supply
  | .entry => IsEntry supply
  | .assigned => AreValues supply
  | .specification declared => IsItem supply declared.item
  | .declaration declared => fun level kinds =>
    ∃ later, kinds = .keyword declared.keyword :: later ∧ IsGroup supply declared.item level later
  | .simple place kind => IsSimple supply place kind
  | .action => IsAction supply
  | .initial => IsInitial supply
  | .guard => IsGuard supply
  | .range => IsRange supply
  | .block => IsBlock supply
  | .line => IsLine supply
  | .statement context kind => IsStatement supply context kind
  | .conditional => IsConditional supply
  | .otherwise => IsOtherwise supply
  | .label choice => IsLabel supply choice.label
  | .clause choice => IsClause supply choice.label
  | .list item => fun level => Separated (· = item.separator) (item.Accepts supply level)
  | .optional item => fun level => Optionally (item.Accepts supply level)

variable {supply : Supply} {level higher : Nat} {kinds : List TokenKind}

theorem Category.Accepts.mono {category : Category} (accepts : category.Accepts supply level kinds)
    (le : level ≤ higher) :
    category.Accepts supply higher kinds := by
  induction category generalizing kinds with
  | type => exact IsType.mono accepts le
  | literalType => exact IsLiteralType.mono accepts le
  | signature => exact IsSignature.mono accepts le
  | result => exact IsResult.mono accepts le
  | parameter => exact IsParameter.mono accepts le
  | field => exact IsField.mono accepts le
  | member => exact IsMember.mono accepts le
  | expression => exact IsExpression.mono accepts le
  | unary => exact IsUnary.mono accepts le
  | primary => exact IsPrimary.mono accepts le
  | argument => exact IsArgument.mono accepts le
  | literalValue => exact IsLiteralValue.mono accepts le
  | element => exact IsElement.mono accepts le
  | entry => exact IsEntry.mono accepts le
  | assigned => exact AreValues.mono accepts le
  | specification => exact IsItem.mono accepts le
  | declaration =>
    obtain ⟨later, same, isGroup⟩ := accepts
    exact ⟨later, same, isGroup.mono le⟩
  | simple => exact IsSimple.mono accepts le
  | action => exact IsAction.mono accepts le
  | initial => exact IsInitial.mono accepts le
  | guard => exact IsGuard.mono accepts le
  | range => exact IsRange.mono accepts le
  | block => exact IsBlock.mono accepts le
  | line => exact IsLine.mono accepts le
  | statement => exact IsStatement.mono accepts le
  | conditional => exact IsConditional.mono accepts le
  | otherwise => exact IsOtherwise.mono accepts le
  | label => exact Reads.mono accepts le
  | clause => exact IsClause.mono accepts le
  | list item ih => exact Separated.imp accepts fun _ isItem => ih isItem
  | optional item ih => exact Or.imp_right ih accepts

section words

private theorem isNames_kinds (more : Nat) : IsNames (nameKinds more) := by
  induction more with
  | zero => exact ⟨[], rfl, .nil⟩
  | succ more ih =>
    obtain ⟨later, same, trailing⟩ := ih
    refine ⟨.operator .comma :: ([.identifier] ++ later), ?_, .cons rfl rfl trailing⟩
    rw [nameKinds, same]
    rfl

private theorem isTag_kinds (tagged : Bool) : IsTag (kindsIf tagged [.literal .string]) := by
  cases tagged
  · exact .inl rfl
  · exact .inr rfl

private theorem isQualifier_kinds (qualified : Bool) :
    IsQualifier (kindsIf qualified [.identifier, .operator .period]) := by
  cases qualified
  · exact .inl rfl
  · exact .inr rfl

private theorem isLabel_kinds (labeled : Bool) :
    kindsIf labeled [.identifier] = [] ∨ kindsIf labeled [.identifier] = [.identifier] := by
  cases labeled
  · exact .inl rfl
  · exact .inr rfl

end words

private theorem takesLiteralBody_of_isTypeName {shape : Shape} (isName : shape.isTypeName = true) :
    shape.takesLiteralBody = true := by
  cases shape <;> first | rfl | cases isName

private theorem selected_isValue (base : Shape) : selected base ≠ .literalType ∧ selected base ≠ .typeGuard := by
  unfold selected
  split <;> decide

private theorem simple_accepted {context : Context} {kind : StatementKind}
    (isSimple : IsSimple supply .free kind level kinds) :
    IsStatement supply context kind (level + 1) kinds := by
  by_cases starts : context = .topLevel ∧ kinds.head? = some (.keyword .func)
  · obtain ⟨rfl, starts⟩ := starts
    exact .functionLed isSimple starts
  · exact .simple isSimple fun top func => starts ⟨top, func⟩

private theorem declaration_accepted {context : Context} {declared : Declared}
    (allowed : declared = .import → context = .topLevel)
    (isDeclaration : Category.Accepts supply (.declaration declared) level kinds) :
    IsStatement supply context (.declaration declared.kind) (level + 1) kinds := by
  obtain ⟨later, rfl, isGroup⟩ := isDeclaration
  cases declared with
  | «import» =>
    obtain rfl := allowed rfl
    exact .import isGroup
  | const => exact .const isGroup
  | var => exact .var isGroup
  | type => exact .type isGroup

private theorem communicates {place : Place} {kind : StatementKind} (tree : Tree (.simple place kind))
    (notCount : kind ≠ .incDec) :
    [StatementKind.send, .expression, .shortVarDecl, .assignment].contains kind = true := by
  cases tree <;> first | rfl | exact absurd rfl notCount

private theorem argument_accepted (spread : Bool) (isExpression : IsExpression supply .free level kinds) :
    IsArgument supply level (kinds ++ kindsIf spread [.operator .ellipsis]) := by
  cases spread with
  | false =>
    rw [kindsIf, List.append_nil]
    exact .value isExpression
  | true => exact .spread isExpression

/-- A tree is read to its end where enough levels are left. -/
theorem Tree.accepted {category : Category} (tree : Tree category) :
    category.Accepts supply tree.depth tree.kinds := by
  induction tree with
  | typeName => exact IsType.name
  | qualifiedType => exact IsType.qualified
  | pointer base isBase => exact IsType.pointer isBase
  | ofLiteralType type isType => exact IsType.ofLiteralType isType
  | channel direction element isElement =>
    cases direction with
    | both => exact IsType.chan isElement
    | send => exact IsType.chanSend isElement
    | receive => exact IsType.chanReceive isElement
  | functionType signature isSignature => exact IsType.function isSignature
  | interface members areMembers => exact IsType.interface areMembers
  | array length element isLength isElement => exact IsLiteralType.array isLength isElement
  | openArray element isElement => exact IsLiteralType.openArray isElement
  | slice element isElement => exact IsLiteralType.slice isElement
  | map key value isKey isValue => exact IsLiteralType.map isKey isValue
  | struct fields areFields => exact IsLiteralType.struct areFields
  | signature parameters result areParameters isResult => exact IsSignature.intro areParameters isResult
  | noResult => exact IsResult.none
  | resultType type isType => exact IsResult.type isType
  | results parameters areParameters => exact IsResult.list areParameters
  | parameter named variadic type isType =>
    cases named with
    | false =>
      cases variadic with
      | false => exact IsParameter.type isType
      | true => exact IsParameter.variadic isType
    | true =>
      cases variadic with
      | false => exact IsParameter.named isType
      | true => exact IsParameter.namedVariadic isType
  | field more type tagged isType => exact IsField.names (isNames_kinds more) isType (isTag_kinds tagged)
  | embedded starred qualified tagged =>
    cases starred with
    | false => exact IsField.embedded (isQualifier_kinds qualified) (isTag_kinds tagged)
    | true => exact IsField.embeddedPointer (isQualifier_kinds qualified) (isTag_kinds tagged)
  | method signature isSignature => exact IsMember.method isSignature
  | embeddedType type isType => exact IsMember.type isType
  | ofUnary operand isOperand => exact IsExpression.ofUnary isOperand
  | binary left operator binds right isLeft isRight => exact IsExpression.binary isLeft binds isRight
  | unary operator isUnary operand isOperand => exact IsUnary.unary isUnary isOperand
  | ofPrimary operand isOperand => exact IsUnary.ofPrimary isOperand
  | name => exact IsPrimary.ofOperand .name (by decide)
  | literal kind => exact IsPrimary.ofOperand .ofLiteral (by decide)
  | parenthesized inner isInner => exact IsPrimary.ofOperand (.parenthesized isInner) (by decide)
  | functionLiteral signature body isSignature isBody =>
      exact IsPrimary.ofOperand (.function isSignature isBody) (by decide)
  | composite type value isType isValue => exact IsPrimary.composite isType isValue
  | compositeNamed isName type value isType isValue =>
    exact IsPrimary.append isType (.body ⟨takesLiteralBody_of_isTypeName isName, .inl rfl⟩ isValue) (by decide)
  | @selector _ shape base isBase =>
    exact (IsPrimary.append isBase .selector (selected_isValue shape)).mono (Nat.le_of_eq (Nat.max_zero _))
  | assertion base type isBase isType => exact IsPrimary.append isBase (.assertion isType) (by decide)
  | index base index isBase isIndex => exact IsPrimary.append isBase (.index isIndex) (by decide)
  | sliced base low high isBase isLow isHigh => exact IsPrimary.append isBase (.slice isLow isHigh) (by decide)
  | fullSliced base low high capacity isBase isLow isHigh isCapacity =>
    exact IsPrimary.append isBase (.fullSlice isLow isHigh isCapacity) (by decide)
  | call base arguments isBase areArguments => exact IsPrimary.append isBase (.call areArguments) (by decide)
  | argument value spread isValue => exact argument_accepted spread isValue
  | literalValue entries areEntries => exact IsLiteralValue.intro areEntries
  | element value isValue => exact IsElement.value isValue
  | elided value isValue => exact IsElement.elided isValue
  | entry value isElement => exact IsEntry.value isElement
  | keyed key value isKey isValue => exact IsEntry.keyed isKey isValue
  | importDot => exact IsItem.importAs (.inr rfl)
  | importSpec renamed =>
    cases renamed with
    | false => exact IsItem.import
    | true => exact IsItem.importAs (.inl rfl)
  | assigned values areValues => exact ⟨_, rfl, areValues⟩
  | constSpec more type values isType areValues => exact IsItem.const (isNames_kinds more) isType areValues
  | varSpec more type values isType areValues => exact IsItem.var (isNames_kinds more) isType areValues
  | varValues more values areValues => exact IsItem.varValues (isNames_kinds more) areValues
  | typeSpec isAlias type isType =>
    cases isAlias with
    | false => exact IsItem.type isType
    | true => exact IsItem.typeAlias isType
  | single item isItem => exact ⟨_, rfl, .single isItem⟩
  | @grouped declared items areItems => exact ⟨_, rfl, .grouped areItems⟩
  | expressionStatement value isValue => exact IsSimple.expression isValue
  | send channel value isChannel isValue => exact IsSimple.send isChannel isValue
  | increment operand isOperand => exact IsSimple.count (.inl rfl) isOperand
  | decrement operand isOperand => exact IsSimple.count (.inr rfl) isOperand
  | assignment left operator assigns right areTargets areValues => exact IsSimple.assign assigns areTargets areValues
  | definition left right areTargets areValues => exact IsSimple.define areTargets areValues
  | action simple isSimple => exact ⟨_, isSimple⟩
  | initial action isAction => exact ⟨_, rfl, isAction⟩
  | guard bound operand isOperand =>
    cases bound with
    | false => exact IsGuard.bare isOperand
    | true => exact IsGuard.bound isOperand
  | range ranged isRanged => exact IsRange.bare isRanged
  | rangeDefining left ranged areTargets isRanged => exact IsRange.assigning (.inl rfl) areTargets isRanged
  | rangeAssigning left ranged areTargets isRanged => exact IsRange.assigning (.inr rfl) areTargets isRanged
  | block lines areLines => exact IsBlock.intro areLines
  | line statement isStatement => exact ⟨_, isStatement⟩
  | declare allowed declaration isDeclaration => exact declaration_accepted allowed isDeclaration
  | functionDeclaration signature body isSignature isBody => exact IsStatement.function isSignature isBody
  | methodDeclaration receiver signature body isReceiver isSignature isBody =>
    exact IsStatement.method isReceiver isSignature isBody
  | simple simple isSimple => exact simple_accepted isSimple
  | labeled statement isStatement => exact IsStatement.labeled isStatement
  | go call isCall => exact IsStatement.go isCall
  | defer call isCall => exact IsStatement.defer isCall
  | «return» values areValues => exact IsStatement.return areValues
  | «break» toLabel => exact IsStatement.break (isLabel_kinds toLabel)
  | «continue» toLabel => exact IsStatement.continue (isLabel_kinds toLabel)
  | goto => exact IsStatement.goto
  | fallthrough => exact IsStatement.fallthrough
  | blockStatement block isBlock => exact IsStatement.block isBlock
  | ifStatement conditional isConditional => exact IsStatement.if isConditional
  | conditional first condition body otherwise isFirst isCondition isBody isOtherwise =>
    exact IsConditional.intro isFirst isCondition isBody isOtherwise
  | elseIf conditional isConditional => exact IsOtherwise.chained isConditional
  | elseBlock block isBlock => exact IsOtherwise.block isBlock
  | forEver body isBody =>
    exact IsStatement.mono (IsStatement.for .forever isBody) (show max 0 body.depth + 1 ≤ body.depth + 1 by omega)
  | forCondition condition body isCondition isBody => exact IsStatement.for (.condition isCondition) isBody
  | forClauses first condition last body isFirst isCondition isLast isBody =>
    exact IsStatement.for (.clauses isFirst isCondition isLast) isBody
  | forRange range body isRange isBody => exact IsStatement.for (.range isRange) isBody
  | switch first tag clauses isFirst isTag areClauses =>
    refine IsStatement.switch false isFirst ?_ areClauses
    exact isTag.imp (fun none => ⟨none, rfl⟩) IsSubject.value
  | typeSwitch first guard clauses isFirst isGuard areClauses =>
    exact IsStatement.switch true isFirst (.inr (.guard isGuard)) areClauses
  | select clauses areClauses => exact IsStatement.select areClauses
  | values values areValues => exact IsLabel.values areValues
  | types types areTypes => exact IsLabel.types areTypes
  | communication notCount simple isSimple => exact IsLabel.communication (communicates simple notCount) isSimple
  | case label lines isLabel areLines =>
      exact IsClause.case (Reads.mono isLabel (Nat.le_max_left _ _)) (AreLines.mono areLines (Nat.le_max_right _ _))
  | default lines areLines => exact IsClause.default areLines
  | one tree isItem => exact Separated.one isItem
  | cons tree later isItem areLater =>
    refine Separated.join (Separated.one (Category.Accepts.mono isItem (Nat.le_max_left _ _))) rfl ?_
    exact Separated.imp areLater fun _ isItem => Category.Accepts.mono isItem (Nat.le_max_right _ _)
  | absent => exact .inl rfl
  | present tree isItem => exact .inr isItem

end GoPrompt.Syntax
