import BasicLexis.Classifier.Outcome

set_option autoImplicit false

/-! # Statements

Lists of statements, and the choice of a production for each statement by its first token. -/

namespace BasicLexis.Classifier

namespace StatementList

/-- The token after `End`: it closes this list, closes one further down, or follows an `End`
    statement. -/
def afterEnd (s : StatementList) (kind : TokenKind) : Outcome :=
  let frame := Frame.statements { s with step := .afterStatement }
  match kind.keyword? with
  | some word =>
    if s.closing = some word then .consumePop frame
    else if isBlockKeyword word then
      ((Outcome.pop frame).misplacing).announcing (.closesBlock word)
    else .retry frame
  | none => .retry frame

/-- A token at the start of a line or after a statement. -/
def betweenStatements (s : StatementList) (kind : TokenKind) : Outcome :=
  let frame := Frame.statements s
  if kind = .eol ∧ s.singleLine then .pop frame
  else if kind = .eol ∨ kind = .colon then .consume (.statements { s with step := .start })
  else if s.stopsAt kind then .pop frame
  else if kind = .keyword .EndIf ∧ s.closing = some .If then .consumePop frame
  else if s.step = .afterStatement then
    (Outcome.consume (.statements { s with step := .skip })).misplacing
  else if kind = .keyword .End then .consume (.statements { s with step := .afterEnd })
  else .push (.statements { s with step := .afterStatement }) (.statement .start)

/-- Offers a token to a list of statements. -/
def offer (s : StatementList) (kind : TokenKind) : Outcome :=
  match s.step with
  | .afterEnd => s.afterEnd kind
  | .skip =>
    if kind.isTerminator then .retry (.statements { s with step := .afterStatement })
    else .consume (.statements s)
  | .start | .afterStatement => s.betweenStatements kind

end StatementList

/-- The production that a statement with the given first keyword goes on with, the keyword itself
    being used up. `none` for keywords that start an expression. -/
def statementAfter? (word : Keyword) : Option Frame :=
  match word with
  | .Dim | .Const | .Static => some (.declarators .start)
  | .If => some (.ifBlock .condition)
  | .Select => some (.selectBlock .afterSelect)
  | .While | .With | .SyncLock | .Using => some (.headedBlock { kind := word })
  | .Do => some (.doBlock .head)
  | .For => some (.forBlock .head)
  | .Try => some (.tryBlock .bodyStart)
  | .Return | .Throw | .Yield => some .optionalExpression
  | .Exit | .Continue | .GoTo | .GoSub | .Resume | .Stop | .On => some .restOfLine
  | .Error => some .newExpression
  | .Erase | .AddHandler | .RemoveHandler | .RaiseEvent | .Call => some (.expressionList .item)
  | _ => none

/-- Keywords that cannot start a statement: they belong to a block that is not open, or to a
    declaration. -/
def isForeignToStatements : Keyword → Bool
  | .Else | .ElseIf | .EndIf | .Case | .Catch | .Finally | .Loop | .Next | .Wend | .Class => true
  | .Module | .Structure | .Interface | .Namespace | .Enum | .Property | .Event => true
  | .Operator | .Imports | .Inherits | .Implements => true
  | _ => false

/-- Offers the first token to a statement. A member header cannot stand where a statement is
    expected, except that it starts a lambda in the body of another one. -/
def offerStatement (step : StatementStep) (kind : TokenKind) : Outcome :=
  let frame := Frame.statement step
  match step, kind with
  | .afterReDim, .keyword .Preserve => .consume frame
  | .afterReDim, _ => .replace frame (.expressionList .item)
  | _, .keyword .ReDim => .consume (.statement .afterReDim)
  | _, .keyword word =>
    match statementAfter? word with
    | some next => .consumeReplace frame next
    | none =>
      if isForeignToStatements word
          || (step == .start && (word == .Sub || word == .Function)) then
        (Outcome.consumeReplace frame .restOfLine).misplacing
      else .replace frame .newExpression
  | _, _ => .replace frame .newExpression

/-- Offers a token to an expression that may be absent. -/
def offerOptionalExpression (kind : TokenKind) : Outcome :=
  if kind.isTerminator || kind == .keyword .Else then .pop .optionalExpression
  else .replace .optionalExpression .newExpression

/-- Offers a token to a list of expressions, after one of them. -/
def offerExpressionList (step : ListStep) (kind : TokenKind) : Outcome :=
  if kind = .comma then .consume (.expressionList .item) else .pop (.expressionList step)

end BasicLexis.Classifier
