import BasicLexis.Classifier.Outcome

set_option autoImplicit false

/-! # Blocks

The statements that contain others: conditionals, selections, blocks with a head expression, loops
and exception handling. A block stands between its parts; each part is a frame on top of it. -/

namespace BasicLexis.Classifier

/-- The statements of one branch of a conditional. -/
def branch : Frame := .statementBlock .If [.ElseIf, .Else]

/-- Offers a token to a conditional. -/
def offerIf (step : IfStep) (kind : TokenKind) : Outcome :=
  let frame := Frame.ifBlock step
  match step, kind with
  | .then_, .keyword .Then => .consume (.ifBlock .afterThen)
  | .then_, .eol => .retry (.ifBlock .afterThen)
  | .then_, _ => (Outcome.consume frame).misplacing
  | .afterThen, .eol => .push (.ifBlock .body) branch
  | .afterThen, _ => .push (.ifBlock .singleLineBody) (.statementLine [.Else])
  | .body, .keyword .ElseIf => .consumePush (.ifBlock .then_) .newExpression
  | .body, .keyword .Else => .consume (.ifBlock .afterElse)
  | .body, _ => .pop frame
  | .afterElse, .keyword .If => .consumePush (.ifBlock .then_) .newExpression
  | .afterElse, _ => .push (.ifBlock .body) branch
  | .singleLineBody, .keyword .Else => .consumePush (.ifBlock .done) (.statementLine [])
  | .singleLineBody, _ => .pop frame
  | .condition, _ | .done, _ => .pop frame

/-- The comparison operators of a `Case Is` item. -/
def isRelation : TokenKind → Bool
  | .less | .greater | .lessEqual | .greaterEqual | .notEqual | .assign => true
  | _ => false

/-- Offers a token to a selection. -/
def offerSelect (step : SelectStep) (kind : TokenKind) : Outcome :=
  let frame := Frame.selectBlock step
  match step, kind with
  | .afterSelect, .keyword .Case => .consume (.selectBlock .subject)
  | .afterSelect, _ => .retry (.selectBlock .subject)
  | .clauses, .eol | .clauses, .colon => .consume frame
  | .clauses, .keyword .Case => .consume (.selectBlock .caseItems)
  | .clauses, .keyword .End => .consume (.selectBlock .afterEnd)
  | .clauses, _ => (Outcome.consume frame).misplacing
  | .afterEnd, .keyword .Select => .consumePop frame
  | .afterEnd, kind =>
    match kind.keyword? with
    | some word =>
      if isBlockKeyword word then
        ((Outcome.pop frame).misplacing).announcing (.closesBlock word)
      else (Outcome.retry (.selectBlock .clauses)).misplacing
    | none => (Outcome.retry (.selectBlock .clauses)).misplacing
  | .caseItems, .keyword .Else => .consume (.selectBlock .caseBody)
  | .caseItems, .keyword .Is => .consume (.selectBlock .caseRelation)
  | .caseItems, _ => .push (.selectBlock .afterCaseItem) .newExpression
  | .caseRelation, kind =>
    if isRelation kind then .consumePush (.selectBlock .afterCaseItem) .newExpression
    else (Outcome.retry (.selectBlock .afterCaseItem)).misplacing
  | .afterCaseItem, .keyword .To => .consumePush frame .newExpression
  | .afterCaseItem, .comma => .consume (.selectBlock .caseItems)
  | .afterCaseItem, _ => .retry (.selectBlock .caseBody)
  | .body, .keyword .Case => .consume (.selectBlock .caseItems)
  | .body, _ => .pop frame
  | .subject, _ | .caseBody, _ => .retry frame

/-- Offers a token to a block with a head expression. -/
def HeadedBlock.offer (b : HeadedBlock) (kind : TokenKind) : Outcome :=
  let frame := Frame.headedBlock b
  match b.step, kind with
  | .resourceTail, .keyword .As => .consumePush frame (.typeName .start)
  | .resourceTail, .assign => .consumePush frame .continuedExpression
  | .resourceTail, .comma => .consume (.headedBlock { b with step := .head })
  | .resourceTail, _ => .retry (.headedBlock { b with step := .bodyStart })
  | .body, .keyword .Wend => if b.kind = .While then .consumePop frame else .pop frame
  | _, _ => .pop frame

/-- A loop condition starts with this token. -/
def isLoopCondition : TokenKind → Bool
  | .keyword .While | .keyword .Until => true
  | _ => false

/-- Offers a token to a `Do` loop. -/
def offerDo (step : DoStep) (kind : TokenKind) : Outcome :=
  let frame := Frame.doBlock step
  match step, kind with
  | .head, kind =>
    if isLoopCondition kind then .consumePush (.doBlock .bodyStart) .newExpression
    else .retry (.doBlock .bodyStart)
  | .body, .keyword .Loop => .consume (.doBlock .tail)
  | .tail, kind =>
    if isLoopCondition kind then .consumePush (.doBlock .done) .newExpression else .pop frame
  | _, _ => .pop frame

/-- Offers a token to a `For` loop. A comma after a variable of `Next` closes the loop around this
    one as well. -/
def offerFor (step : ForStep) (kind : TokenKind) : Outcome :=
  let frame := Frame.forBlock step
  match step, kind with
  | .head, .keyword .Each => .consume frame
  | .head, _ => .push (.forBlock .control) .newExpression
  | .control, .keyword .To | .control, .keyword .Step | .control, .keyword .In =>
    .consumePush frame .newExpression
  | .control, .keyword .As => .consumePush frame (.typeName .start)
  | .control, .assign => .consumePush frame .continuedExpression
  | .control, .eol | .control, .colon => .push (.forBlock .body) (.statementsUntil [.Next])
  | .control, _ => (Outcome.consume frame).misplacing
  | .body, .keyword .Next => .consume (.forBlock .nextVariables)
  | .body, _ => .pop frame
  | .nextVariables, .comma => (Outcome.consumePop frame).announcing .closesOuterLoop
  | .nextVariables, .dot => .consume frame
  | .nextVariables, kind => if kind.isName then .consume frame else .pop frame

/-- Offers a token to a `Try` block. -/
def offerTry (step : TryStep) (kind : TokenKind) : Outcome :=
  let frame := Frame.tryBlock step
  match step, kind with
  | .body, .keyword .Catch => .consume (.tryBlock .catchHead)
  | .body, .keyword .Finally => .consume (.tryBlock .bodyStart)
  | .catchHead, .keyword .As => .consumePush frame (.typeName .start)
  | .catchHead, .keyword .When => .consumePush frame .newExpression
  | .catchHead, .eol | .catchHead, .colon => .retry (.tryBlock .bodyStart)
  | .catchHead, kind =>
    if kind.isName then .consume frame else (Outcome.consume frame).misplacing
  | _, _ => .pop frame

end BasicLexis.Classifier
