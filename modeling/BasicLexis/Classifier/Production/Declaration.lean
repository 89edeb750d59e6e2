import BasicLexis.Classifier.Outcome

set_option autoImplicit false

/-! # Declarations

The productions of the declaration level: lists of declarations, attributes, imports, type names,
member headers, parameters, accessors, enumerations and declarators. -/

namespace BasicLexis.Classifier

/-! ## Lists of declarations -/

namespace DeclarationList

/-- The list belongs to an interface, whose members have no bodies. -/
def inInterface (d : DeclarationList) : Bool := d.scope == .type .Interface

/-- A token that starts no declaration. In the source as a whole it starts a statement; within a
    type or namespace a name starts a field, and anything else is misplaced. -/
def stray (d : DeclarationList) (kind : TokenKind) : Outcome :=
  match d.scope with
  | .unit => .push (.declarations d) (.statement .start)
  | _ =>
    if kind.isName then .push (.declarations d) (.declarators .start)
    else (Outcome.consumePush (.declarations d) .restOfLine).misplacing

/-- The header of a member that was opened with a keyword. -/
def openMember (d : DeclarationList) (kind : Keyword) (body : MemberBody) : Outcome :=
  .consumePush (.declarations d) (.member { kind, body })

/-- A block whose header takes the rest of the line. -/
def openBlock (d : DeclarationList) (block : Frame) : Outcome :=
  { frame := .declarations d, action := .pushBoth block .restOfLine, consumed := true }

/-- The token after `End`: it closes this list, closes one further down, or belongs to an `End`
    statement. -/
def afterEnd (d : DeclarationList) (kind : TokenKind) : Outcome :=
  let frame := Frame.declarations { d with step := .start }
  match kind.keyword? with
  | some word =>
    if frame.closing? = some word then .consumePop frame
    else if isBlockKeyword word then
      ((Outcome.pop frame).misplacing).announcing (.closesBlock word)
    else .push frame .restOfLine
  | none => .push frame .restOfLine

/-- A keyword at the start of a declaration or among its modifiers. -/
def offerKeyword (d : DeclarationList) (word : Keyword) : Outcome :=
  let frame := Frame.declarations d
  let bodiless := d.bodiless || d.inInterface
  match word with
  | .Option | .Inherits | .Implements => .consumePush frame .restOfLine
  | .Imports => .consumePush frame (.imports .start)
  | .Namespace => d.openBlock (.declarations { scope := .space })
  | .Class | .Module | .Structure | .Interface => d.openBlock (.declarations { scope := .type word })
  | .Enum => d.openBlock (.enumBody .start)
  | .Delegate | .Declare | .MustOverride => .consume (.declarations { d with bodiless := true })
  | .Custom => .consume (.declarations { d with custom := true })
  | .Ansi | .Unicode | .Auto => .consume frame
  | .Sub | .Function | .Operator => d.openMember word (if bodiless then .none else .statements)
  | .Property => d.openMember word (if bodiless then .none else .accessors)
  | .Event => d.openMember word (if d.custom then .accessors else .none)
  | .Dim | .Const => .consumePush frame (.declarators .start)
  | .End => .consume (.declarations { d with step := .afterEnd })
  | word => if word.isModifier then .consume frame else d.stray (.keyword word)

/-- Offers a token to a list of declarations. -/
def offer (d : DeclarationList) (kind : TokenKind) : Outcome :=
  match d.step with
  | .afterEnd => d.afterEnd kind
  | .start =>
    match kind with
    | .eol | .colon => .consume (.declarations { d with bodiless := false, custom := false })
    | .less => .consumePush (.declarations d) (.attributeList .start)
    | .keyword word => d.offerKeyword word
    | kind => d.stray kind

end DeclarationList

/-! ## Attributes, imports and type names -/

/-- Offers a token to an attribute list, up to its greater-than sign. -/
def offerAttributeList (step : NameStep) (kind : TokenKind) : Outcome :=
  let frame := Frame.attributeList step
  match step, kind with
  | _, .greater => .consumePop frame
  | _, .eol => .consume frame
  | .start, .comma => .consume frame
  | .start, kind =>
    if kind.isMemberName then .consume (.attributeList .afterName)
    else (Outcome.consume frame).misplacing
  | .afterName, .colon | .afterName, .dot | .afterName, .comma => .consume (.attributeList .start)
  | .afterName, .openParen => .consumePush frame .parens
  | .afterName, _ => (Outcome.consume frame).misplacing

/-- Offers a token to an import: names, or a single XML tag. -/
def offerImports (step : NameStep) (kind : TokenKind) : Outcome :=
  let frame := Frame.imports step
  if kind.isTerminator then .pop frame
  else
    match step, kind with
    | .start, .xmlOpenTag => .push (.imports .afterName) (.xmlLiteral (.new true))
    | .start, kind =>
      if kind.isMemberName then .consume (.imports .afterName)
      else (Outcome.consume frame).misplacing
    | .afterName, .dot | .afterName, .assign | .afterName, .comma => .consume (.imports .start)
    | .afterName, .openParen => .consumePush frame (.skipParens 1)
    | .afterName, _ => (Outcome.consume frame).misplacing

/-- Offers a token to a type name. -/
def offerTypeName (step : NameStep) (kind : TokenKind) : Outcome :=
  let frame := Frame.typeName step
  match step, kind with
  | .start, .keyword .New => .consumeReplace frame (.newObject .type)
  | .start, .less => .consumePush frame (.attributeList .start)
  | .start, kind =>
    if kind.isMemberName then .consume (.typeName .afterName)
    else (Outcome.pop frame).misplacing
  | .afterName, .dot => .consume (.typeName .start)
  | .afterName, .openParen => .consumePush frame (.skipParens 1)
  | .afterName, .question => .consume frame
  | .afterName, _ => .pop frame

/-! ## Members -/

namespace MemberHeader

/-- A token after the name of a member. -/
def afterName (m : MemberHeader) (kind : TokenKind) : Outcome :=
  let frame := Frame.member m
  match kind with
  | .openParen => .consume (.member { m with step := .openParen })
  | .keyword .As => .consumePush frame (.typeName .start)
  | .keyword .Lib | .keyword .Alias | .literalString => .consume frame
  | .keyword .Handles | .keyword .Implements => .consume (.member { m with step := .clause })
  | .assign => .consumePush frame .continuedExpression
  | .eol | .colon =>
    match m.body with
    | .none => .pop frame
    | .statements => .replace frame (.statementBlock m.kind [])
    | .accessors => .replace frame (.accessors { owner := m.kind })
  | _ => (Outcome.consume frame).misplacing

/-- Offers a token to the header of a member. -/
def offer (m : MemberHeader) (kind : TokenKind) : Outcome :=
  let named := Frame.member { m with step := .afterName }
  match m.step with
  | .name => if kind.isTerminator then (Outcome.retry named).misplacing else .consume named
  | .openParen =>
    match kind with
    | .keyword .Of => .consumePush named (.skipParens 1)
    | .closeParen => .consume named
    | _ => .push named (.parameters .start)
  | .clause =>
    match kind with
    | .dot | .comma => .consume (.member m)
    | kind => if kind.isMemberName then .consume (.member m) else .retry named
  | .afterName => m.afterName kind

end MemberHeader

/-- Offers a token to a list of parameters, up to its closing parenthesis. -/
def offerParameters (step : NameStep) (kind : TokenKind) : Outcome :=
  let frame := Frame.parameters step
  match step, kind with
  | _, .closeParen => .consumePop frame
  | _, .eol => .consume frame
  | .start, .comma => .consume frame
  | .start, .less => .consumePush frame (.attributeList .start)
  | .start, .keyword .Optional | .start, .keyword .ByVal => .consume frame
  | .start, .keyword .ByRef | .start, .keyword .ParamArray => .consume frame
  | .afterName, .openParen => .consumePush frame (.skipParens 1)
  | .afterName, .question => .consume frame
  | .afterName, .keyword .As => .consumePush frame (.typeName .start)
  | .afterName, .assign => .consumePush frame .continuedExpression
  | .afterName, .comma => .consume (.parameters .start)
  | _, .colon => (Outcome.pop frame).misplacing
  | .start, kind =>
    if kind.isMemberName then .consume (.parameters .afterName)
    else (Outcome.consume frame).misplacing
  | .afterName, _ => (Outcome.consume frame).misplacing

namespace AccessorList

/-- The token after `End`. A list without accessors belongs to an automatic property, so the end of
    the enclosing type is no mistake there. -/
def afterEnd (a : AccessorList) (kind : TokenKind) : Outcome :=
  let frame := Frame.accessors { a with step := .start }
  match kind.keyword? with
  | some word =>
    if word = a.owner then .consumePop frame
    else if isBlockKeyword word then
      let outcome := (Outcome.pop frame).announcing (.closesBlock word)
      if a.seenAccessor then outcome.misplacing else outcome
    else (Outcome.retry frame).misplacing
  | none => (Outcome.retry frame).misplacing

/-- A token that is no accessor. Before the first accessor it starts the next declaration. -/
def stray (a : AccessorList) : Outcome :=
  if a.seenAccessor then (Outcome.consumePush (.accessors a) .restOfLine).misplacing
  else .pop (.accessors a)

/-- Offers a token to a list of accessors. -/
def offer (a : AccessorList) (kind : TokenKind) : Outcome :=
  let frame := Frame.accessors a
  match a.step with
  | .afterEnd => a.afterEnd kind
  | .start =>
    match kind with
    | .eol | .colon => .consume frame
    | .less => .consumePush frame (.attributeList .start)
    | .keyword .End => .consume (.accessors { a with step := .afterEnd })
    | .keyword word =>
      if a.accepts word then
        .consumePush (.accessors { a with seenAccessor := true })
          (.member { kind := word, body := .statements, step := .afterName })
      else
        match word with
        | .Public | .Private | .Protected | .Friend => .consume frame
        | _ => a.stray
    | _ => a.stray

end AccessorList

/-- Offers a token to the members of an enumeration. -/
def offerEnumBody (step : EnumStep) (kind : TokenKind) : Outcome :=
  let frame := Frame.enumBody step
  match step, kind with
  | .afterEnd, kind =>
    let frame := Frame.enumBody .start
    match kind.keyword? with
    | some .Enum => .consumePop frame
    | some word =>
      if isBlockKeyword word then
        ((Outcome.pop frame).misplacing).announcing (.closesBlock word)
      else (Outcome.retry frame).misplacing
    | none => (Outcome.retry frame).misplacing
  | _, .eol | _, .colon => .consume (.enumBody .start)
  | .start, .less => .consumePush frame (.attributeList .start)
  | .start, .keyword .End => .consume (.enumBody .afterEnd)
  | .start, kind =>
    if kind.isMemberName then .consume (.enumBody .afterName)
    else (Outcome.consumePush frame .restOfLine).misplacing
  | .afterName, .assign => .consumePush frame .continuedExpression
  | .afterName, _ => (Outcome.consumePush frame .restOfLine).misplacing

/-- Offers a token to the declarators of variables. -/
def offerDeclarators (step : NameStep) (kind : TokenKind) : Outcome :=
  let frame := Frame.declarators step
  match step, kind with
  | .start, .eol => .consume frame
  | .start, kind =>
    if kind.keyword?.any Keyword.isModifier then .consume frame
    else if kind.isName then .consume (.declarators .afterName)
    else (Outcome.pop frame).misplacing
  | .afterName, .question => .consume frame
  | .afterName, .openParen => .consumePush frame .parens
  | .afterName, .keyword .As => .consumePush frame (.typeName .start)
  | .afterName, .assign => .consumePush frame .continuedExpression
  | .afterName, .comma => .consume (.declarators .start)
  | .afterName, _ => .pop frame

/-! ## Text that is passed over -/

/-- Offers a token to the rest of a line. -/
def offerRestOfLine (kind : TokenKind) : Outcome :=
  if kind.isTerminator then .pop .restOfLine else .consume .restOfLine

/-- Offers a token to text in parentheses, `depth` of which are open. -/
def offerSkipParens (depth : Nat) (kind : TokenKind) : Outcome :=
  match kind with
  | .openParen => .consume (.skipParens (depth + 1))
  | .closeParen =>
    if depth ≤ 1 then .consumePop (.skipParens depth) else .consume (.skipParens (depth - 1))
  | _ => .consume (.skipParens depth)

end BasicLexis.Classifier
