import BasicLexis.Classifier.Production.Block
import BasicLexis.Classifier.Production.Declaration
import BasicLexis.Classifier.Production.Expression
import BasicLexis.Classifier.Production.Markup
import BasicLexis.Classifier.Production.Query
import BasicLexis.Classifier.Production.Statement
import BasicLexis.Log.Event
import BasicLexis.Token.Basic

set_option autoImplicit false

/-! # The classifier's stack

The classifier is a pushdown automaton over the frames. A token is offered to the top frame; unless
that frame uses it up, it is offered to whatever frame is on top afterwards. Without a token, frames
that can go on by themselves do so until one waits, and that frame says how the next token is to be
read.

Nothing stops the classifier. A token that does not fit is recorded as an error and passed on or
dropped, and the stack recovers with the next statement. Both the depth of the stack and the number
of moves for one token are bounded. -/

namespace BasicLexis

/-- What is wrong with a token. -/
inductive ClassifierErrorKind where
  /-- The token does not fit the production on top of the stack. -/
  | unexpectedToken
  /-- A bound on the stack or on the moves was reached. -/
  | limitExceeded
  deriving DecidableEq, Repr

/-- A token that the classifier could not place. -/
structure ClassifierError where
  /-- Where the token starts. -/
  location : Location
  /-- What the token is. -/
  found : TokenKind
  /-- The context that it was found in. -/
  context : Context
  /-- What is wrong with it. -/
  kind : ClassifierErrorKind
  deriving DecidableEq, Repr

namespace ClassifierError

/-- The code of an error. -/
def code (e : ClassifierError) : Code :=
  match e.kind with
  | .unexpectedToken => .unexpectedToken
  | .limitExceeded => .limitExceeded

/-- The wording of an error. -/
def render (e : ClassifierError) : String :=
  match e.kind with
  | .unexpectedToken =>
    e.location.render ++ ": unexpected " ++ e.found.render ++ " in " ++ e.context.render ++ " context"
  | .limitExceeded => e.location.render ++ ": classifier limit exceeded at " ++ e.found.render

end ClassifierError

/-- A region that a frame opened: a list of declarations or statements, a member, attributes or an
    XML literal. -/
structure Block where
  /-- The kind of region. -/
  context : Context
  /-- Where the latest expression of the region started. -/
  lastExpression : Option Location := none
  deriving DecidableEq, Repr

/-- The state of the classifier. -/
structure Classifier where
  /-- The productions in progress, innermost first. -/
  stack : List Classifier.Frame := [.bottom]
  /-- The regions that the frames opened, innermost first. -/
  blocks : List Block := []
  /-- The errors so far, in order. -/
  errors : Array ClassifierError := #[]
  /-- The keyword after an `End` that closes a frame further down. -/
  pendingEnd : Option Keyword := none
  /-- The loop around the one just closed is to be closed as well. -/
  pendingNext : Bool := false
  /-- The statement at hand is over; frames end up to the nearest list of statements. -/
  endStatement : Bool := false
  /-- Where the latest token started. -/
  lastLocation : Location := .start
  deriving DecidableEq, Repr

namespace Classifier

/-! ## What a frame does on its own -/

namespace Frame

/-- The move of a frame that goes on without a token. `none` for a frame that waits for one. -/
def epsilon? : Frame → Option Outcome
  | bottom => some (.push bottom (declarations { scope := .unit }))
  | ifBlock .condition => some (.push (ifBlock .then_) newExpression)
  | ifBlock .done => some (.pop (ifBlock .done))
  | selectBlock .subject => some (.push (selectBlock .clauses) newExpression)
  | selectBlock .caseBody => some (.push (selectBlock .body) (statementBlock .Select [.Case]))
  | headedBlock ⟨kind, .head⟩ =>
    let next := if kind = .Using then BlockStep.resourceTail else .bodyStart
    some (.push (headedBlock ⟨kind, next⟩) newExpression)
  | headedBlock ⟨kind, .bodyStart⟩ =>
    let stops := if kind = .While then [.Wend] else []
    some (.push (headedBlock ⟨kind, .body⟩) (statementBlock kind stops))
  | doBlock .bodyStart => some (.push (doBlock .body) (statementsUntil [.Loop]))
  | doBlock .done => some (.pop (doBlock .done))
  | tryBlock .bodyStart => some (.push (tryBlock .body) (statementBlock .Try [.Catch, .Finally]))
  | expressionList .item => some (.push (expressionList .afterItem) newExpression)
  | newObject .done => some (.pop (newObject .done))
  | _ => none

/-- What a frame makes of a token that it waits for. -/
def offer : Frame → TokenKind → Outcome
  | bottom, _ => .push bottom (declarations { scope := .unit })
  | declarations list, kind => list.offer kind
  | attributeList step, kind => offerAttributeList step kind
  | imports step, kind => offerImports step kind
  | restOfLine, kind => offerRestOfLine kind
  | skipParens depth, kind => offerSkipParens depth kind
  | typeName step, kind => offerTypeName step kind
  | member header, kind => header.offer kind
  | parameters step, kind => offerParameters step kind
  | accessors list, kind => list.offer kind
  | enumBody step, kind => offerEnumBody step kind
  | declarators step, kind => offerDeclarators step kind
  | statements list, kind => list.offer kind
  | statement step, kind => offerStatement step kind
  | ifBlock step, kind => offerIf step kind
  | selectBlock step, kind => offerSelect step kind
  | headedBlock block, kind => block.offer kind
  | doBlock step, kind => offerDo step kind
  | forBlock step, kind => offerFor step kind
  | tryBlock step, kind => offerTry step kind
  | optionalExpression, kind => offerOptionalExpression kind
  | expressionList step, kind => offerExpressionList step kind
  | expression e, kind => e.offer kind
  | group g, kind => g.offer kind
  | newObject step, kind => offerNew step kind
  | lambda l, kind => l.offer kind
  | query q, kind => q.offer kind
  | xmlNamespace step, kind => offerXmlNamespace step kind
  | xmlLiteral x, kind => x.offer kind

end Frame

/-! ## The state -/

/-- The context of the next token. -/
def context (c : Classifier) : Context :=
  if c.stack.head?.any Frame.expectsDeclaredName then .identifierExpected
  else (c.blocks.head?.map (·.context)).getD .global

/-- How many frames are on the stack. -/
def depth (c : Classifier) : Nat := c.stack.length

/-- Keeps an error, up to the bound on their number. -/
def record (c : Classifier) (e : ClassifierError) : Classifier :=
  if c.errors.size < Limits.maxRecordedErrors then { c with errors := c.errors.push e } else c

/-- Records that a token is misplaced. -/
def recordMisplaced (c : Classifier) (t : Token) : Classifier :=
  c.record ⟨t.start, t.kind, c.context, .unexpectedToken⟩

/-- Records that a bound was reached. -/
def recordLimit (c : Classifier) (found : TokenKind) : Classifier :=
  c.record ⟨c.lastLocation, found, c.context, .limitExceeded⟩

/-- Puts a frame on top of the stack, without regard to its context. -/
def putBack (c : Classifier) (frame : Frame) : Classifier := { c with stack := frame :: c.stack }

/-- Opens a frame. Beyond the greatest depth the frame is refused. -/
def push (c : Classifier) (frame : Frame) : Classifier × Bool :=
  if Limits.maxFrameDepth ≤ c.stack.length then (c.recordLimit .eof, false)
  else
    let blocks :=
      match frame.context? with
      | some context => { context } :: c.blocks
      | none => c.blocks
    ({ c with stack := frame :: c.stack, blocks }, true)

/-- Ends the frame that was taken off the stack. -/
def discard (c : Classifier) (frame : Frame) : Classifier :=
  if frame.context?.isSome then { c with blocks := c.blocks.tail } else c

/-- Carries out an action on the frame that was taken off the stack. The second component is false
    if a frame was refused. -/
def apply (c : Classifier) (frame : Frame) (action : Action) : Classifier × Bool :=
  match action with
  | .stay => (c.putBack frame, true)
  | .push child => (c.putBack frame).push child
  | .pushBoth first second =>
    match (c.putBack frame).push first with
    | (c, true) => c.push second
    | refused => refused
  | .pop => (c.discard frame, true)
  | .replace next => (c.discard frame).push next

/-- Carries out an announcement. -/
def announce (c : Classifier) : Option Signal → Classifier
  | some (.closesBlock word) => { c with pendingEnd := some word }
  | some .closesOuterLoop => { c with pendingNext := true }
  | some .endsStatement => { c with endStatement := true }
  | none => c

/-- Notes where an expression of the innermost region started. -/
def noteExpression (c : Classifier) (location : Location) : Classifier :=
  match c.blocks with
  | block :: rest => { c with blocks := { block with lastExpression := some location } :: rest }
  | [] => c

/-! ## Recovery -/

/-- The outcome that the state imposes on the top frame before the frame sees the token: at the end
    of the source everything ends; after a mismatched `End` frames end up to the one it closes; after
    `Next` with several variables the loop around is closed; and after the end of a statement frames
    end up to the nearest list. `none` if the frame itself is to decide, in which case it may have
    been put back to the start of a line. -/
def recover (c : Classifier) (frame : Frame) (kind : TokenKind) :
    Classifier × Frame × Option Outcome :=
  if kind = .eof then
    if frame = .bottom then
      ({ c with pendingEnd := none, pendingNext := false, endStatement := false }, frame,
        some (.consume frame))
    else (c, frame, some (.pop frame))
  else
    match c.pendingEnd with
    | some word =>
      if frame = .bottom then ({ c with pendingEnd := none }, frame, some (.consume frame))
      else if frame.closing? = some word then
        ({ c with pendingEnd := none }, frame, some (.consumePop frame))
      else (c, frame, some (.pop frame))
    | none =>
      let imposed :=
        if c.pendingNext then
          match frame with
          | .forBlock .body =>
            some ({ c with pendingNext := false }, Outcome.retry (.forBlock .nextVariables))
          | .statements list =>
            if list.stops.contains .Next then some (c, Outcome.pop frame) else none
          | frame => if frame.isStatementList then none else some (c, .pop frame)
        else none
      match imposed with
      | some (c, outcome) => (c, frame, some outcome)
      | none =>
        let c := { c with pendingNext := false }
        if c.endStatement then
          if frame.isStatementList then ({ c with endStatement := false }, frame.restartLine, none)
          else (c, frame, some (.pop frame))
        else (c, frame, none)

/-! ## Moves -/

/-- The answer to a token, or to the request to wait for one. -/
structure Reply where
  /-- The classifier afterwards. -/
  state : Classifier
  /-- How the next token is to be read. -/
  hints : Hints := {}
  /-- What there is to log. -/
  events : List LogEvent := []

/-- The effects of an outcome on the state, the frame being off the stack. -/
def perform (c : Classifier) (t : Token) (o : Outcome) : Classifier × Bool :=
  let c := if o.startsExpression then c.noteExpression t.start else c
  let c := if o.misplaced then c.recordMisplaced t else c
  (c.announce o.signal).apply o.frame o.action

/-- The note that the bound on moves was reached. -/
def stepLimitEvent : LogEvent :=
  (LogEvent.debug "Classifier step limit reached").withContext "steps"
    (toString (Limits.maxEpsilonSteps + 1))

/-- Offers a token to the stack until it is used up or refused, with at most `fuel` moves. -/
def offerToken : Nat → Classifier → Token → Reply
  | 0, c, t => { state := c.recordLimit t.kind, events := [stepLimitEvent] }
  | fuel + 1, c, t =>
    match c.stack with
    | [] => offerToken fuel (c.putBack .bottom) t
    | frame :: below =>
      let (c, frame, imposed) := recover { c with stack := below } frame t.kind
      let outcome := imposed.getD ((frame.epsilon?).getD (frame.offer t.kind))
      match c.perform t outcome with
      | (c, accepted) =>
        if outcome.consumed || !accepted then { state := c } else offerToken fuel c t

/-- Lets frames go on by themselves until one waits, with at most `fuel` moves. -/
def settle : Nat → Classifier → Reply
  | 0, c => { state := c.recordLimit .eof, events := [stepLimitEvent] }
  | fuel + 1, c =>
    match c.stack with
    | [] => settle fuel (c.putBack .bottom)
    | frame :: below =>
      match frame.epsilon? with
      | none => { state := c, hints := frame.hints }
      | some outcome =>
        match { c with stack := below }.apply outcome.frame outcome.action with
        | (c, true) => settle fuel c
        | (c, false) => { state := c }

/-- Takes a token, or without one settles and tells how the next token is to be read. -/
def inform (c : Classifier) (t : Option Token) : Reply :=
  match t with
  | some t => offerToken Limits.maxEpsilonSteps { c with lastLocation := t.start } t
  | none => settle Limits.maxEpsilonSteps c

end Classifier

end BasicLexis
