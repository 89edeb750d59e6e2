import BasicLexis.Piece.Basic

set_option autoImplicit false

/-! # XML literals

An XML literal is read by rules of its own, from the less-than sign that opens it until its
outermost element is closed. A frame keeps what is open in a literal. An embedded expression, between
`<%=` and `%>`, is read by the rules of ordinary source, and may hold literals itself, so the frames
form a stack. -/

namespace BasicLexis

/-- What is open in an XML literal. -/
structure MarkupFrame where
  /-- How many elements are open. It starts below zero for a single tag, which then closes the
      literal. It changes by one with a tag, so that a counter of 32 bits agrees with it in every
      source with fewer than `2 ^ 31 - 1` tags. -/
  level : Int := 0
  /-- Within an opening tag or processing instruction. -/
  inTag : Bool := false
  /-- Within a closing tag. -/
  inCloseTag : Bool := false
  /-- The last piece of markup was a comment. -/
  wasComment : Bool := false
  /-- The last piece of markup was a processing instruction. -/
  wasInstruction : Bool := false
  deriving DecidableEq, Repr

namespace MarkupFrame

/-- A literal that is about to start. -/
def new (singleTag : Bool) : MarkupFrame := { level := if singleTag then -1 else 0 }

/-- Nothing of the literal is open. -/
def isComplete (f : MarkupFrame) : Bool :=
  f.level ≤ 0 && !f.inTag && !f.inCloseTag && !f.wasComment && !f.wasInstruction

end MarkupFrame

/-- A piece of a literal and what is open after it. -/
structure MarkupPiece where
  /-- The piece. -/
  piece : Piece
  /-- What is open after it. -/
  frame : MarkupFrame
  /-- The literal goes on; otherwise the piece opened an embedded expression. -/
  goesOn : Bool := true

namespace Piece

/-! ## Sections -/

/-- How many characters precede the first occurrence of `close`. -/
def lengthBefore? (close : List Char) : List Char → Nat → Option Nat
  | [], _ => none
  | c :: cs, n => if close.isPrefixOf (c :: cs) then some n else lengthBefore? close cs (n + 1)

/-- The rest of a comment or character data section, up to and including `close`. The text of the
    token is what stands between the marks. -/
def sectionTo (kind : TokenKind) (close : List Char) (start r : Reader) : Piece :=
  match lengthBefore? close r.rest 0 with
  | some n => word kind start (r.skipMany (n + close.length)) (r.rest.take n) []
  | none =>
    let rest := r.skipWhile fun _ => true
    word kind start rest r.rest [problem rest.location .unterminatedXmlSection]

/-- A comment, `<!--...-->`, or character data, `<![CDATA[...]]>`, after the exclamation mark. Any
    other section is reported and read as a comment up to the next greater-than sign. -/
def markupSection (start r : Reader) : Piece :=
  match r.eatText? ['-', '-'] with
  | some r => sectionTo .xmlComment ['-', '-', '>'] start r
  | none =>
    match r.eatText? ['[', 'C', 'D', 'A', 'T', 'A', '['] with
    | some r => sectionTo .xmlCData [']', ']', '>'] start r
    | none =>
      let (text, stop) := r.readWhile (· != '>')
      word .xmlComment start (stop.eatOptional '>') text
        [problem start.location .malformedXmlSection]

/-! ## Tags -/

/-- The markup that starts with a less-than sign, after that sign. -/
def afterAngle (f : MarkupFrame) (start r : Reader) : MarkupPiece :=
  match r.peek with
  | some '/' => { piece := symbol .xmlOpenEndTag start r.skip, frame := { f with inCloseTag := true } }
  | some '?' =>
    { piece := symbol .xmlInstructionStart start r.skip, frame := { f with inTag := true } }
  | some '!' =>
    let piece := markupSection start r.skip
    { piece, frame := { f with wasComment := piece.token.any (·.kind == .xmlComment) } }
  | _ =>
    match r.eatText? ['%', '='] with
    | some rest => { piece := symbol .xmlExpressionStart start rest, frame := f, goesOn := false }
    | none =>
      { piece := symbol .xmlOpenTag start r
        frame := { f with
          level := f.level + 1, inTag := true, wasComment := false, wasInstruction := false } }

/-- The inside of an attribute value, from the upcoming characters, their position and location on.
    Line ends belong to the value and are reported. `content` and `found` are in reverse. -/
def attributeFrom (quote : Char) :
    List Char → Nat → Location → List Char → List Entry → List Char × List Entry × Reader
  | [], n, l, content, found =>
    (content.reverse, (problem l .unterminatedString :: found).reverse, ⟨[], n, l⟩)
  | c :: cs, n, l, content, found =>
    let l' := l.after c cs.head?
    if c = quote then (content.reverse, found.reverse, ⟨cs, n + 1, l'⟩)
    else if Text.isLineEnd c then
      attributeFrom quote cs (n + 1) l' (c :: content) (problem l .newlineInString :: found)
    else attributeFrom quote cs (n + 1) l' (c :: content) found

/-- An attribute value, after its opening quote. -/
def attributeValue (quote : Char) (start r : Reader) : Piece :=
  let (content, entries, rest) := attributeFrom quote r.rest r.position r.location [] []
  literal .literalString start rest (.string (String.ofList content)) .stringLiteral entries

/-- A piece of a tag. The character `c` was read, and `r` is the place after it. -/
def inTag (f : MarkupFrame) (c : Char) (start r : Reader) : MarkupPiece :=
  if c = '/' ∧ r.peek = some '>' then
    { piece := symbol .xmlCloseEmptyTag start r.skip
      frame := { f with inTag := false, level := f.level - 1 } }
  else if c = '?' ∧ r.peek = some '>' then
    { piece := symbol .xmlInstructionEnd start r.skip
      frame := { f with inTag := false, wasInstruction := true } }
  else if c = '>' then
    { piece := symbol .xmlCloseTag start r
      frame := { level := if f.inCloseTag then f.level - 1 else f.level } }
  else if c = '=' then { piece := symbol .assign start r, frame := f }
  else if c = '\x22' ∨ c = '\x27' then { piece := attributeValue c start r, frame := f }
  else if Text.isMarkupBlank c then { piece := { rest := r }, frame := f }
  else
    let stop := r.skipWhile Text.isMarkupNameChar
    { piece := word .identifier start stop (start.textTo stop) [], frame := f }

/-- A piece of a literal. The character `c` was read, and `r` is the place after it. Outside of tags,
    everything up to the next less-than sign is content. -/
def markup (f : MarkupFrame) (c : Char) (start r : Reader) : MarkupPiece :=
  if c = '<' then afterAngle f start r
  else if f.inTag || f.inCloseTag then inTag f c start r
  else
    let stop := r.skipWhile (· != '<')
    { piece := word .xmlContent start stop (start.textTo stop) [], frame := f }

end Piece

/-! ## The stack of literals -/

/-- The XML literals that are open. -/
structure XmlMode where
  /-- The next piece belongs to the innermost literal, by the rules of XML. -/
  active : Bool := false
  /-- What is open in each literal, innermost first. -/
  literals : List MarkupFrame := []
  deriving DecidableEq, Repr

namespace XmlMode

/-- The literal at hand is complete. -/
def isComplete (m : XmlMode) : Bool := m.active && m.literals.head?.any MarkupFrame.isComplete

/-- A comment or character data that follows a complete literal, possibly after whitespace, still
    belongs to it. -/
def trailing? (m : XmlMode) (r : Reader) : Option Piece :=
  if m.isComplete then
    let start := r.skipWhile Text.isMarkupBlank
    (start.eatText? ['<', '!']).map (Piece.markupSection start)
  else none

/-- Leaves the literal at hand if it is complete. -/
def leave (m : XmlMode) : XmlMode :=
  if m.isComplete then { active := false, literals := m.literals.tail } else m

/-- Goes back to the literal around an embedded expression, if there is one. -/
def resume (m : XmlMode) : XmlMode := { m with active := !m.literals.isEmpty }

/-- Opens a literal, after its less-than sign. -/
def enter (m : XmlMode) (singleTag : Bool) (start r : Reader) : Piece × XmlMode :=
  let first := Piece.afterAngle (.new singleTag) start r
  (first.piece, { active := first.goesOn, literals := first.frame :: m.literals })

/-- A piece of the literal at hand. The character `c` was read, and `r` is the place after it. -/
def read (m : XmlMode) (c : Char) (start r : Reader) : Piece × XmlMode :=
  match m.literals with
  | frame :: outer =>
    let next := Piece.markup frame c start r
    (next.piece, { active := next.goesOn, literals := next.frame :: outer })
  | [] => (Piece.word .xmlContent start r [c] [], { m with active := false })

end XmlMode

end BasicLexis
