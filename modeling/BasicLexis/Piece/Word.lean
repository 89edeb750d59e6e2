import BasicLexis.Piece.Comment

set_option autoImplicit false

/-! # Names and keywords

A word starts with a letter or an underscore. It may end in a type character, and is then always a
name. Otherwise it is a keyword if it spells one in any case, and the keyword `Rem` starts a
comment. Any word between brackets is a name. Where the classifier expects an XML name, the rules of
XML decide how far the name goes, and no keyword is recognized. -/

namespace BasicLexis.Piece

/-- Reports a name that is too long. -/
def checkNameLength (start : Reader) (name : List Char) : List Entry :=
  if Limits.maxIdentifierLength < name.length then
    [problem start.location (.identifierTooLong name.length)]
  else []

/-- The end of a word. -/
structure WordEnd where
  /-- The place after the word. -/
  rest : Reader
  /-- The type character that the word ends with. -/
  mark : Option Char := none
  /-- The exclamation mark after the word that accesses a member by name. -/
  access : Option Token := none

/-- Reads the type character after a word. A percent sign before a greater-than sign closes an
    embedded expression instead, and an exclamation mark before a name accesses a member. -/
def wordEnd (r : Reader) : WordEnd :=
  match r.peek with
  | some c =>
    if Text.isTypeMark c then
      let next := r.peekAt 1
      if c = '%' ∧ next = some '>' then { rest := r }
      else if c == '!' && next.any (fun d => d == '_' || d == '[' || Text.isAlphabetic d) then
        { rest := r.skip, access := some (.symbol .exclamation r.location r.skip.location) }
      else { rest := r.skip, mark := some c }
    else { rest := r }
  | none => { rest := r }

/-- A name whose first character was read; `r` is the place after it. -/
def name (s : Setting) (start r : Reader) : Piece :=
  if s.hints.xmlNameNext then
    let stop := r.skipWhile Text.isMarkupNameChar
    word .identifier start stop (start.textTo stop) []
  else
    let stop := r.skipWhile Text.isWordChar
    let tail := wordEnd stop
    let text := start.textTo stop ++ tail.mark.toList
    { word .identifier start tail.rest text (checkNameLength start text) with
      queued := tail.access }

/-- A word whose first letter was read: a keyword, a comment after `Rem`, or a name. -/
def letters (s : Setting) (start r : Reader) : Piece :=
  if s.hints.xmlNameNext then name s start r
  else
    let stop := r.skipWhile Text.isWordChar
    let tail := wordEnd stop
    match tail.mark, Keyword.ofWord? (start.textTo stop) with
    | none, some .Rem => { comment s false start tail.rest with queued := tail.access }
    | none, some keyword =>
      { word (.keyword keyword) start tail.rest (start.textTo stop) [] with queued := tail.access }
    | _, _ => name s start r

/-- A name in brackets, after the opening bracket. -/
def bracketed (start r : Reader) : Piece :=
  let missing :=
    if r.peekIs Text.isWordChar then [] else [problem r.location .identifierExpected]
  let (text, stop) := r.readWhile Text.isWordChar
  let (rest, unclosed) :=
    match stop.eat? ']' with
    | some rest => (rest, [])
    | none => (stop, [problem stop.location .unterminatedEscapedIdentifier])
  word .identifier start rest text (missing ++ unclosed ++ checkNameLength start text)

end BasicLexis.Piece
