import BasicLexis.Classifier.Outcome

set_option autoImplicit false

/-! # Expressions

An expression alternates between operands and what may follow them: member accesses, arguments and
binary operators. Where an operand is expected, a less-than sign opens an XML literal. -/

namespace BasicLexis.Classifier

/-- Keywords before an operand. -/
def isOperandModifier : Keyword → Bool
  | .Not | .AddressOf | .Await | .TypeOf | .Async | .Iterator => true
  | _ => false

/-- Keywords that are operands of their own. -/
def isOperandKeyword : Keyword → Bool
  | .Me | .MyBase | .MyClass | .True | .False | .Nothing | .Global | .If | .CType => true
  | .DirectCast | .TryCast | .GetType => true
  | word => word.isPrimitiveType || word.isConversion || word.isContextual

/-- The tokens before a member name. -/
def isAccess : TokenKind → Bool
  | .dot | .exclamation | .dotAt | .tripleDot => true
  | _ => false

/-- The tokens with which the scanner begins an XML literal in place of an operand. -/
def startsXmlLiteral : TokenKind → Bool
  | .xmlOpenTag | .xmlInstructionStart | .xmlComment | .xmlCData => true
  | _ => false

/-- What a token makes of an expression that waits for an operand: the next step, whether the token
    is used up, and the part that it opens. `none` if no operand starts with the token. -/
def operandStep? (kind : TokenKind) : Option (ExpressionStep × Bool × Option Frame) :=
  match kind with
  | .minus | .plus => some (.operand, true, none)
  | .identifier => some (.suffix, true, none)
  | .openParen => some (.suffix, true, some .parens)
  | .openBrace => some (.suffix, true, some .braces)
  | .keyword .New => some (.suffix, true, some (.newObject .type))
  | .keyword .Sub => some (.suffix, true, some (.lambda { kind := .Sub }))
  | .keyword .Function => some (.suffix, true, some (.lambda { kind := .Function }))
  | .keyword .From => some (.suffix, true, some (.query { clause := .From }))
  | .keyword .Aggregate => some (.suffix, true, some (.query { clause := .Aggregate }))
  | .keyword .GetXmlNamespace => some (.suffix, true, some (.xmlNamespace .open_))
  | .keyword word =>
    if isOperandModifier word then some (.operand, true, none)
    else if isOperandKeyword word then some (.suffix, true, none)
    else none
  | kind =>
    if kind.isLiteral then some (.suffix, true, none)
    else if isAccess kind then some (.memberName, true, none)
    else if startsXmlLiteral kind then some (.suffix, false, some (.xmlLiteral (.new false)))
    else none

namespace Expression

/-- A token where an operand is expected. A line end is passed over if the expression has begun or
    may begin on the next line. -/
def offerOperand (e : Expression) (kind : TokenKind) : Outcome :=
  if kind = .eol then
    if e.started || e.continued then .consume (.expression e)
    else (Outcome.pop (.expression e)).misplacing
  else
    let outcome :=
      match operandStep? kind with
      | some (step, consumed, child) =>
        { frame := .expression { e with step, started := true }
          action := child.elim .stay .push
          consumed : Outcome }
      | none => (Outcome.pop (.expression { e with started := true })).misplacing
    { outcome with startsExpression := !e.started }

/-- A token after an operand. -/
def offerSuffix (e : Expression) (kind : TokenKind) : Outcome :=
  if isAccess kind then .consume (.expression { e with step := .memberName })
  else if kind = .question then .consume (.expression e)
  else if kind = .openParen then .consumePush (.expression e) .parens
  else if kind.isBinaryOperator || kind.isAssignment || kind == .colonAssign then
    .consume (.expression { e with step := .operand })
  else .pop (.expression e)

/-- A token where the name of a member is expected. -/
def offerMemberName (e : Expression) (kind : TokenKind) : Outcome :=
  let named := Frame.expression { e with step := .suffix }
  if kind = .xmlOpenTag then .push named (.xmlLiteral (.new true))
  else if kind.isMemberName then .consume named
  else (Outcome.pop (.expression e)).misplacing

/-- Offers a token to an expression. -/
def offer (e : Expression) (kind : TokenKind) : Outcome :=
  match e.step with
  | .operand => e.offerOperand kind
  | .suffix => e.offerSuffix kind
  | .memberName => e.offerMemberName kind

end Expression

/-- Offers a token to a group. The word `Of` after the opening parenthesis makes it a list of type
    arguments; `To` separates the bounds of an array. -/
def Group.offer (g : Group) (kind : TokenKind) : Outcome :=
  let frame := Frame.group g
  if kind = g.close then .consumePop frame
  else
    match g.step, kind with
    | _, .eol => .consume frame
    | .item, .comma => .consume frame
    | .item, kind =>
      if kind = .keyword .Of ∧ g.close = .closeParen then .consumeReplace frame (.skipParens 1)
      else .push (.group { g with step := .afterItem }) .continuedExpression
    | .afterItem, .comma => .consume (.group { g with step := .item })
    | .afterItem, .keyword .To => .consumePush frame .continuedExpression
    | .afterItem, _ => (Outcome.pop frame).misplacing

/-- Offers a token to the creation of an object. -/
def offerNew (step : NewStep) (kind : TokenKind) : Outcome :=
  let frame := Frame.newObject step
  match step, kind with
  | .type, .keyword .With => .consume (.newObject .initializer)
  | .type, kind =>
    if kind.isMemberName then .consume (.newObject .afterType) else (Outcome.pop frame).misplacing
  | .afterType, .dot => .consume (.newObject .type)
  | .afterType, .question => .consume frame
  | .afterType, .openParen | .afterArguments, .openParen =>
    .consumePush (.newObject .afterArguments) .parens
  | .afterType, .openBrace | .afterArguments, .openBrace | .initializer, .openBrace =>
    .consumePush (.newObject .done) .braces
  | .afterType, .keyword .With | .afterType, .keyword .From => .consume (.newObject .initializer)
  | .afterArguments, .keyword .With | .afterArguments, .keyword .From =>
    .consume (.newObject .initializer)
  | .initializer, .eol => .consume frame
  | .initializer, _ => (Outcome.pop frame).misplacing
  | _, _ => .pop frame

/-- Offers a token to a lambda. After its parameters follow the type of its result, statements on
    further lines, or its body on the same line. -/
def Lambda.offer (l : Lambda) (kind : TokenKind) : Outcome :=
  let frame := Frame.lambda l
  match l.step, kind with
  | .parameters, .openParen =>
    .consumePush (.lambda { l with step := .afterParameters }) (.parameters .start)
  | .parameters, _ => .retry (.lambda { l with step := .afterParameters })
  | .afterParameters, .keyword .As => .consumePush frame (.typeName .start)
  | .afterParameters, .eol => .replace frame (.statementBlock l.kind [])
  | .afterParameters, _ =>
    if l.kind = .Function then .replace frame .newExpression
    else .replace frame (.statement .lambdaBody)

end BasicLexis.Classifier
