import BasicLexis.Piece.Progress
import BasicLexis.Scanner.Steering

set_option autoImplicit false

/-! # The scanner

A scanner produces the tokens of a source one at a time. Each token is told to the classifier, or to
whatever else steers the scanner, before the next one is read, because what came before decides
whether a less-than sign opens an XML literal.

The stream ends with a line end and an end marker. The line end is added if the source does not end
with one, and the end marker repeats. -/

namespace BasicLexis

/-- The state of a scanner that is steered by a `σ`. -/
structure Scanner (σ : Type) where
  /-- What steers the scanner. -/
  steering : σ
  /-- How the next token is to be read. -/
  hints : Hints
  /-- How many of the tokens that could not be placed are in the journal. -/
  errorsSeen : Nat := 0
  /-- The place in the source. -/
  reader : Reader
  /-- The XML literals that are open. -/
  mode : XmlMode := {}
  /-- The latest token that was read ends a line, or none was read yet. -/
  freshLine : Bool := true
  /-- Tokens that were read together with an earlier one and wait for their turn. -/
  queue : List Token := []
  /-- The kind of the latest token that was produced. -/
  last : Option TokenKind := none
  /-- Where the end marker stands, once it was produced. -/
  ended : Option Location := none
  /-- The words that make a comment a tag comment. -/
  tags : List String
  /-- What there is to note about the source so far. -/
  journal : Journal := #[]
  /-- What was read so far takes an addition that overflows. -/
  overflowed : Bool := false

namespace Scanner

variable {σ : Type}

/-! ## Reading -/

/-- What the reading of the next piece depends on. -/
def setting (s : Scanner σ) : Setting := ⟨s.hints, s.freshLine, s.tags⟩

/-- The scanner after a piece. -/
def accept (s : Scanner σ) (piece : Piece) (mode : XmlMode) : Scanner σ :=
  { s with
    reader := piece.rest
    mode
    queue := s.queue ++ piece.queued.toList
    freshLine :=
      match piece.token with
      | some token => token.kind == .eol
      | none => s.freshLine
    journal := s.journal.appendList piece.entries
    overflowed := s.overflowed || piece.overflow }

/-- The token for the end of the source: first a line end, unless the latest token is one, then the
    end marker. -/
def endToken (s : Scanner σ) : Token :=
  let location := s.reader.location
  if s.last = some .eol then .endMarker location else .lineEnd location location

/-- Reads one piece. The token is `none` for a piece without one. -/
def step (s : Scanner σ) : Option Token × Scanner σ :=
  match s.mode.trailing? s.reader with
  | some piece => (piece.token, s.accept piece s.mode)
  | none =>
    let mode := s.mode.leave
    match s.reader.read? with
    | none =>
      let token := s.endToken
      (some token, { s with mode, freshLine := token.kind == .eol })
    | some (c, r) =>
      let (piece, mode) := Piece.next s.setting mode c s.reader r
      (piece.token, s.accept piece mode)

/-- A piece without a token takes some of the source. -/
theorem length_step {s s' : Scanner σ} (h : s.step = (none, s')) :
    s'.reader.rest.length < s.reader.rest.length := by
  unfold step at h
  split at h
  · next piece trailing =>
    obtain ⟨-, rfl⟩ := Prod.mk.inj h
    exact XmlMode.length_of_trailing? trailing
  · dsimp only at h
    split at h
    · cases h
    · next c r read =>
      obtain ⟨-, rfl⟩ := Prod.mk.inj h
      exact Piece.length_next read

/-- Reads pieces up to the next token. -/
def lex (s : Scanner σ) : Token × Scanner σ :=
  match _h : s.step with
  | (some token, s') => (token, s')
  | (none, s') => lex s'
termination_by s.reader.rest.length
decreasing_by exact length_step _h

/-- The next token, of those that wait for their turn or else of the source. -/
def advance (s : Scanner σ) : Token × Scanner σ :=
  match s.queue with
  | token :: queue => (token, { s with queue })
  | [] => s.lex

/-! ## Producing tokens -/

/-- Enters the tokens that could not be placed and that are not in the journal yet. -/
def noteMisplaced [Steering σ] (s : Scanner σ) : Scanner σ :=
  let errors := Steering.errors s.steering
  { s with
    journal := s.journal ++ (errors.extract s.errorsSeen).map .misplaced
    errorsSeen := errors.size }

/-- Tells a token to what steers the scanner, and asks how the next one is to be read. -/
def tell [Steering σ] (s : Scanner σ) (token : Token) : Scanner σ :=
  let taken := Steering.inform s.steering (some token)
  let asked := Steering.inform taken.state none
  noteMisplaced { s with
    steering := asked.state
    hints := asked.hints
    journal := s.journal.appendList ((taken.events ++ asked.events).map .event)
    last := some token.kind
    ended := if token.isEof then some token.start else none }

/-- Produces the next token. After the end of the source this is the end marker. -/
def produce [Steering σ] (s : Scanner σ) : Token × Scanner σ :=
  match s.ended with
  | some location => (.endMarker location, s)
  | none =>
    let (token, s) := s.advance
    (token, s.tell token)

/-- A scanner at the start of a source. -/
def start [Steering σ] (steering : σ) (tags : List String) (source : List Char) : Scanner σ :=
  let asked := Steering.inform steering none
  { steering := asked.state
    hints := asked.hints
    reader := .ofText source
    tags
    journal := (asked.events.map .event).toArray }

end Scanner

end BasicLexis
