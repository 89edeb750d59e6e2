import BasicLexis.Classifier.Outcome

set_option autoImplicit false

/-! # Queries

A query is a sequence of clauses. A line end may stand between two of them, so after a line end only
the next token tells whether the query, and with it the statement, was over. -/

namespace BasicLexis.Classifier

/-- The keywords that continue a query on a new line. -/
def startsQueryClause : Keyword → Bool
  | .Where | .Select | .Distinct | .Skip | .Take | .Let | .Order | .Group | .Join | .Into => true
  | .From | .Aggregate => true
  | _ => false

/-- The clauses whose items declare range variables. -/
def declaresRangeVariables : Keyword → Bool
  | .From | .Join | .Aggregate | .Let => true
  | _ => false

/-- The tokens that close what is around a query, so that a line end before them did not end the
    statement. -/
def closesAroundQuery : TokenKind → Bool
  | .closeParen | .closeBrace | .xmlExpressionEnd | .comma => true
  | _ => false

namespace Query

/-- The keyword of a clause, or a word within one. -/
def offerClauseKeyword (q : Query) (word : Keyword) : Outcome :=
  let frame := Frame.query q
  match word with
  | .Where | .On | .Equals | .By => .consumePush frame .continuedExpression
  | .Select | .Into => .consumePush (.query { q with clause := word }) .continuedExpression
  | .Distinct | .Ascending | .Descending => .consume frame
  | .Skip | .Take => .consume (.query { q with step := .skipOrTake })
  | .Let | .From | .Aggregate | .Join => .consume (.query ⟨.rangeVariable, word⟩)
  | .Order => .consume (.query ⟨.orderBy, word⟩)
  | .Group => .consume (.query ⟨.groupHead, word⟩)
  | _ => .pop frame

/-- A token between the clauses of a query or their items. -/
def offerClause (q : Query) (kind : TokenKind) : Outcome :=
  let frame := Frame.query q
  match kind with
  | .comma =>
    if declaresRangeVariables q.clause then .consume (.query { q with step := .rangeVariable })
    else .consumePush frame .continuedExpression
  | .eol => .consume (.query { q with step := .maybeContinued })
  | .keyword word => q.offerClauseKeyword word
  | _ => .pop frame

/-- Offers a token to a query. -/
def offer (q : Query) (kind : TokenKind) : Outcome :=
  let frame := Frame.query q
  let clauses := Frame.query { q with step := .clauses }
  match q.step with
  | .rangeVariable =>
    if kind.isName then .consume (.query { q with step := .afterRangeVariable })
    else (Outcome.pop frame).misplacing
  | .afterRangeVariable =>
    match kind with
    | .keyword .As => .consumePush frame (.typeName .start)
    | .keyword .In | .assign => .consumePush clauses .continuedExpression
    | _ => (Outcome.retry clauses).misplacing
  | .orderBy =>
    if kind = .keyword .By then .consumePush clauses .continuedExpression
    else (Outcome.retry clauses).misplacing
  | .groupHead =>
    match kind with
    | .keyword .By => .consumePush clauses .continuedExpression
    | .keyword .Join => .consume (.query ⟨.rangeVariable, .Join⟩)
    | _ => .push clauses .continuedExpression
  | .skipOrTake =>
    if kind = .keyword .While then .consumePush clauses .continuedExpression
    else .push clauses .continuedExpression
  | .maybeContinued =>
    if kind.keyword?.any startsQueryClause then .retry clauses
    else if closesAroundQuery kind then .pop frame
    else (Outcome.pop frame).announcing .endsStatement
  | .clauses => q.offerClause kind

end Query

end BasicLexis.Classifier
