import BasicLexis.Classifier.Frame

set_option autoImplicit false

/-! # Outcomes of a step

When the top frame is offered a token it changes its own state and says what happens to the stack
and to the token. It may also find the token misplaced, or announce something that concerns the
frames below. The outcome is plain data: recording errors and moving frames is the business of the
stack. -/

namespace BasicLexis.Classifier

/-- What happens to the stack. -/
inductive Action where
  /-- The frame stays on top. -/
  | stay
  /-- The frame stays, and another goes on top of it. -/
  | push (child : Frame)
  /-- The frame stays, and two others go on top of it, the second uppermost. -/
  | pushBoth (first second : Frame)
  /-- The frame is finished. -/
  | pop
  /-- The frame is finished, and another takes its place. -/
  | replace (next : Frame)
  deriving DecidableEq, Repr

/-- An announcement to the frames below. -/
inductive Signal where
  /-- `End` and this keyword were read, which close a frame further down. -/
  | closesBlock (word : Keyword)
  /-- The loop around the one just closed is closed as well. -/
  | closesOuterLoop
  /-- The statement at hand is over. -/
  | endsStatement
  deriving DecidableEq, Repr

/-- The outcome of offering a token to a frame. -/
structure Outcome where
  /-- The frame after the step. -/
  frame : Frame
  /-- What happens to the stack. -/
  action : Action
  /-- The token was used up; otherwise it is offered to the new top frame. -/
  consumed : Bool
  /-- The token does not fit the production. -/
  misplaced : Bool := false
  /-- An announcement to the frames below. -/
  signal : Option Signal := none
  /-- The token starts an expression. -/
  startsExpression : Bool := false
  deriving DecidableEq, Repr

namespace Outcome

/-- The token is used up and the frame goes on. -/
def consume (frame : Frame) : Outcome := { frame, action := .stay, consumed := true }

/-- The token is used up and a part of the production starts. -/
def consumePush (frame child : Frame) : Outcome :=
  { frame, action := .push child, consumed := true }

/-- The token is used up and the production is finished. -/
def consumePop (frame : Frame) : Outcome := { frame, action := .pop, consumed := true }

/-- The token is used up and another production takes the place of this one. -/
def consumeReplace (frame next : Frame) : Outcome :=
  { frame, action := .replace next, consumed := true }

/-- A part of the production starts with the token. -/
def push (frame child : Frame) : Outcome := { frame, action := .push child, consumed := false }

/-- The production is finished before the token. -/
def pop (frame : Frame) : Outcome := { frame, action := .pop, consumed := false }

/-- Another production takes the place of this one and starts with the token. -/
def replace (frame next : Frame) : Outcome :=
  { frame, action := .replace next, consumed := false }

/-- The frame is offered the token again in its new state. -/
def retry (frame : Frame) : Outcome := { frame, action := .stay, consumed := false }

/-- The same outcome, with the token reported as misplaced. -/
def misplacing (o : Outcome) : Outcome := { o with misplaced := true }

/-- The same outcome with an announcement. -/
def announcing (o : Outcome) (signal : Signal) : Outcome := { o with signal := some signal }

end Outcome

/-- The keywords that may follow `End` to close a block. -/
def isBlockKeyword : Keyword → Bool
  | .If | .Sub | .Function | .Select | .While | .With | .SyncLock | .Using | .Try => true
  | .Property | .Get | .Set | .Operator | .Event | .AddHandler | .RemoveHandler => true
  | .RaiseEvent | .Class | .Module | .Structure | .Interface | .Enum | .Namespace => true
  | _ => false

end BasicLexis.Classifier
