import BasicLexis.Classifier.Hints
import BasicLexis.Token.Kind

set_option autoImplicit false

/-! # Productions in progress

The classifier follows the token stream through a coarse grammar of the language. A frame is one
production of that grammar that has been begun and not yet finished; it remembers only how far the
production has come, never tokens. The frames in progress form a stack, innermost production on
top. -/

namespace BasicLexis

/-- The kind of region that a token stands in. -/
inductive Context where
  | global | type | member | body | attributes | xml | identifierExpected
  deriving DecidableEq, Repr

namespace Context

/-- A context as messages show it. -/
def render : Context → String
  | global => "global"
  | type => "type"
  | member => "member"
  | body => "body"
  | attributes => "attribute"
  | xml => "XML"
  | identifierExpected => "identifier"

/-- The name of a context in listings. -/
def name : Context → String
  | global => "Global"
  | type => "Type"
  | member => "Member"
  | body => "Body"
  | attributes => "Attribute"
  | xml => "Xml"
  | identifierExpected => "IdentifierExpected"

end Context

namespace Classifier

/-! ## Declarations -/

/-- What a list of declarations belongs to. -/
inductive Scope where
  /-- The source as a whole. -/
  | unit
  /-- A namespace. -/
  | space
  /-- A class, module, structure or interface, named by its keyword. -/
  | type (kind : Keyword)
  deriving DecidableEq, Repr

/-- Where a list that is read line by line stands. -/
inductive LineStep where
  | start
  /-- After the keyword `End`. -/
  | afterEnd
  deriving DecidableEq, Repr

/-- Before a name or after it, in productions built around one. -/
inductive NameStep where
  | start | afterName
  deriving DecidableEq, Repr

/-- A list of declarations. -/
structure DeclarationList where
  /-- What the list belongs to. -/
  scope : Scope
  /-- Where the list stands. -/
  step : LineStep := .start
  /-- A word on this line says that the member has no body. -/
  bodiless : Bool := false
  /-- The word `Custom` stands on this line. -/
  custom : Bool := false
  deriving DecidableEq, Repr

/-- What follows the header of a member. -/
inductive MemberBody where
  | none | statements | accessors
  deriving DecidableEq, Repr

/-- Where the header of a member stands. -/
inductive MemberStep where
  | name | afterName
  /-- After an opening parenthesis. -/
  | openParen
  /-- Within the names of a `Handles` or `Implements` clause. -/
  | clause
  deriving DecidableEq, Repr

/-- The header of a method, operator, property, event, external declaration or accessor. -/
structure MemberHeader where
  /-- The keyword that the member was opened with. -/
  kind : Keyword
  /-- What follows the header. -/
  body : MemberBody
  /-- Where the header stands. -/
  step : MemberStep := .name
  deriving DecidableEq, Repr

/-- The accessors of a property or custom event. -/
structure AccessorList where
  /-- `Property` or `Event`. -/
  owner : Keyword
  /-- Where the list stands. -/
  step : LineStep := .start
  /-- At least one accessor has been read. -/
  seenAccessor : Bool := false
  deriving DecidableEq, Repr

/-- The accessors that a list takes. -/
def AccessorList.accepts (a : AccessorList) (word : Keyword) : Bool :=
  match a.owner, word with
  | .Property, .Get | .Property, .Set => true
  | .Property, _ => false
  | _, .AddHandler | _, .RemoveHandler | _, .RaiseEvent => true
  | _, _ => false

/-- Where the members of an enumeration stand. -/
inductive EnumStep where
  | start | afterName | afterEnd
  deriving DecidableEq, Repr

/-! ## Statements -/

/-- Where a list of statements stands. -/
inductive StatementsStep where
  | start | afterStatement | afterEnd
  /-- The rest of a malformed statement is passed over. -/
  | skip
  deriving DecidableEq, Repr

/-- A list of statements, which ends with `End` and its keyword, or before a word that belongs to
    the enclosing block. -/
structure StatementList where
  /-- The keyword that closes the list after `End`. -/
  closing : Option Keyword := none
  /-- The words at which the list ends and the enclosing block goes on. -/
  stops : List Keyword := []
  /-- The list ends with its line. -/
  singleLine : Bool := false
  /-- Where the list stands. -/
  step : StatementsStep := .start
  deriving DecidableEq, Repr

/-- The list ends before a token of this kind. -/
def StatementList.stopsAt (s : StatementList) (kind : TokenKind) : Bool :=
  kind.keyword?.any s.stops.contains

/-- Where a statement stands. -/
inductive StatementStep where
  | start
  /-- The statement is the body of a lambda. -/
  | lambdaBody
  | afterReDim
  deriving DecidableEq, Repr

/-- Where a conditional stands. -/
inductive IfStep where
  | condition | then_ | afterThen | body | afterElse | singleLineBody | done
  deriving DecidableEq, Repr

/-- Where a selection stands. -/
inductive SelectStep where
  | afterSelect | subject | clauses | afterEnd | caseItems | caseRelation | afterCaseItem
  | caseBody | body
  deriving DecidableEq, Repr

/-- Where a block with a head expression stands. -/
inductive BlockStep where
  | head
  /-- After a resource of a `Using` block. -/
  | resourceTail
  | bodyStart | body
  deriving DecidableEq, Repr

/-- A `While`, `With`, `SyncLock` or `Using` block. -/
structure HeadedBlock where
  /-- The keyword of the block. -/
  kind : Keyword
  /-- Where the block stands. -/
  step : BlockStep := .head
  deriving DecidableEq, Repr

/-- Where a `Do` loop stands. -/
inductive DoStep where
  | head | bodyStart | body | tail | done
  deriving DecidableEq, Repr

/-- Where a `For` loop stands. -/
inductive ForStep where
  | head | control | body
  /-- Within the variables after `Next`. -/
  | nextVariables
  deriving DecidableEq, Repr

/-- Where a `Try` block stands. -/
inductive TryStep where
  | bodyStart | body | catchHead
  deriving DecidableEq, Repr

/-- Where a list of expressions stands. -/
inductive ListStep where
  | item | afterItem
  deriving DecidableEq, Repr

/-! ## Expressions -/

/-- Where an expression stands. -/
inductive ExpressionStep where
  | operand | suffix | memberName
  deriving DecidableEq, Repr

/-- An expression. -/
structure Expression where
  /-- Where the expression stands. -/
  step : ExpressionStep := .operand
  /-- At least one token has been read. -/
  started : Bool := false
  /-- A line end before the first operand continues the line. -/
  continued : Bool := false
  deriving DecidableEq, Repr

/-- Expressions in brackets, with commas between them. -/
structure Group where
  /-- The closing bracket. -/
  close : TokenKind
  /-- Where the group stands. -/
  step : ListStep := .item
  deriving DecidableEq, Repr

/-- Where the creation of an object stands. -/
inductive NewStep where
  | type | afterType | afterArguments
  /-- After `With` or `From`, before the opening brace. -/
  | initializer
  | done
  deriving DecidableEq, Repr

/-- Where a lambda stands. -/
inductive LambdaStep where
  | parameters | afterParameters
  deriving DecidableEq, Repr

/-- A lambda. -/
structure Lambda where
  /-- `Sub` or `Function`. -/
  kind : Keyword
  /-- Where the lambda stands. -/
  step : LambdaStep := .parameters
  deriving DecidableEq, Repr

/-- Where a query stands. -/
inductive QueryStep where
  | rangeVariable | afterRangeVariable | clauses | orderBy | groupHead | skipOrTake
  /-- After a line end; the keyword of a clause continues the query. -/
  | maybeContinued
  deriving DecidableEq, Repr

/-- A query. -/
structure Query where
  /-- Where the query stands. -/
  step : QueryStep := .rangeVariable
  /-- The clause whose items a comma continues. -/
  clause : Keyword
  deriving DecidableEq, Repr

/-- Where a `GetXmlNamespace` expression stands. -/
inductive XmlNamespaceStep where
  | open_ | name | close
  deriving DecidableEq, Repr

/-- An XML literal, followed through its markup tokens. -/
structure XmlLiteral where
  /-- How many elements are open. It starts below zero for a single tag, which then closes the
      literal. It changes by one with a tag, so that a counter of 32 bits agrees with it as long as
      fewer than `2 ^ 31 - 1` tags are told. -/
  level : Int := 0
  /-- Within an opening tag or processing instruction. -/
  inTag : Bool := false
  /-- Within a closing tag. -/
  inCloseTag : Bool := false
  /-- The last piece of markup was a comment. -/
  wasComment : Bool := false
  /-- The last piece of markup was a processing instruction. -/
  wasInstruction : Bool := false
  /-- Within an embedded expression. -/
  inExpression : Bool := false
  /-- At least one token has been read. -/
  started : Bool := false
  deriving DecidableEq, Repr

namespace XmlLiteral

/-- A literal that is about to start. -/
def new (singleTag : Bool) : XmlLiteral := { level := if singleTag then -1 else 0 }

/-- The literal has started and nothing of it is open. -/
def isComplete (x : XmlLiteral) : Bool :=
  x.started && x.level ≤ 0 && !x.inTag && !x.inCloseTag && !x.wasComment && !x.wasInstruction
    && !x.inExpression

end XmlLiteral

/-! ## Frames -/

/-- A production in progress. -/
inductive Frame where
  /-- The bottom of the stack, on which a source starts anew. -/
  | bottom
  | declarations (list : DeclarationList)
  | attributeList (step : NameStep)
  | imports (step : NameStep)
  /-- Everything up to the end of the statement. -/
  | restOfLine
  /-- Everything up to the parenthesis that closes an opening one already read. A depth of 32 bits
      agrees with this one as long as fewer than `2 ^ 32 - 1` opening parentheses are told. -/
  | skipParens (depth : Nat)
  | typeName (step : NameStep)
  | member (header : MemberHeader)
  | parameters (step : NameStep)
  | accessors (list : AccessorList)
  | enumBody (step : EnumStep)
  | declarators (step : NameStep)
  | statements (list : StatementList)
  | statement (step : StatementStep)
  | ifBlock (step : IfStep)
  | selectBlock (step : SelectStep)
  | headedBlock (block : HeadedBlock)
  | doBlock (step : DoStep)
  | forBlock (step : ForStep)
  | tryBlock (step : TryStep)
  /-- An expression that may be absent. -/
  | optionalExpression
  | expressionList (step : ListStep)
  | expression (e : Expression)
  | group (g : Group)
  | newObject (step : NewStep)
  | lambda (l : Lambda)
  | query (q : Query)
  | xmlNamespace (step : XmlNamespaceStep)
  | xmlLiteral (x : XmlLiteral)
  deriving DecidableEq, Repr

namespace Frame

/-- An expression on its own line. -/
def newExpression : Frame := .expression {}

/-- An expression after a token that allows a line break. -/
def continuedExpression : Frame := .expression { continued := true }

/-- Expressions in parentheses. -/
def parens : Frame := .group { close := .closeParen }

/-- Expressions in braces. -/
def braces : Frame := .group { close := .closeBrace }

/-- A list of statements that ends with `End` and its keyword, or before a stop. -/
def statementBlock (closing : Keyword) (stops : List Keyword) : Frame :=
  .statements { closing := some closing, stops }

/-- A list of statements that ends before a stop. -/
def statementsUntil (stops : List Keyword) : Frame := .statements { stops }

/-- A list of statements that ends with its line or before a stop. -/
def statementLine (stops : List Keyword) : Frame := .statements { stops, singleLine := true }

/-- The context that a frame opens. -/
def context? : Frame → Option Context
  | declarations { scope := .type _, .. } => some .type
  | declarations _ => some .global
  | enumBody _ => some .type
  | member _ | accessors _ => some .member
  | statements _ => some .body
  | attributeList _ => some .attributes
  | xmlLiteral _ => some .xml
  | _ => none

/-- The keyword that closes a frame after `End`. -/
def closing? : Frame → Option Keyword
  | declarations { scope := .space, .. } => some .Namespace
  | declarations { scope := .type kind, .. } => some kind
  | statements list => list.closing
  | enumBody _ => some .Enum
  | accessors list => some list.owner
  | _ => none

/-- Frames that read statements or declarations line by line. -/
def isStatementList : Frame → Bool
  | bottom | declarations _ | statements _ | enumBody _ | accessors _ => true
  | _ => false

/-- A statement list at the start of a line again; other frames stay as they are. -/
def restartLine : Frame → Frame
  | declarations list => declarations { scope := list.scope }
  | statements list => statements { list with step := .start }
  | enumBody _ => enumBody .start
  | accessors list => accessors { list with step := .start }
  | frame => frame

/-- The frame waits for the name that is being declared. -/
def expectsDeclaredName : Frame → Bool
  | declarators .start | parameters .start => true
  | member { step := .name, .. } => true
  | query { step := .rangeVariable, .. } => true
  | _ => false

/-- How the next token is to be read while this frame waits for it. -/
def hints : Frame → Hints
  | expression { step := .operand, .. } => { xmlMayStart := true }
  | expression { step := .memberName, .. } => { singleTagNext := true }
  | group { step := .item, .. } => { xmlMayStart := true }
  | optionalExpression => { xmlMayStart := true }
  | statement .lambdaBody => { xmlMayStart := true }
  | lambda { step := .afterParameters, .. } => { xmlMayStart := true }
  | selectBlock .caseItems => { xmlMayStart := true }
  | imports .start => { singleTagNext := true }
  | xmlNamespace .name => { xmlNameNext := true }
  | _ => {}

end Frame

end Classifier

end BasicLexis
