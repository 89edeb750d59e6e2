import BasicLexis.Calendar.Gregorian
import BasicLexis.Piece.Basic

set_option autoImplicit false

/-! # Strings, characters, dates and directives

A string stands between quotation marks, of which a doubled one inside stands for a single one. With
the letter `c` right after it, it is a character. A date stands between number signs; a number sign
that no digit follows starts a directive. Line ends are not allowed inside strings and dates: they
are reported, left out, and the literal goes on. -/

namespace BasicLexis

/-- How a kind of literal is enclosed. -/
structure Enclosure where
  /-- The character that closes the literal. -/
  close : Char
  /-- A doubled closing character stands for itself. -/
  doubles : Bool
  /-- What is reported for a line end inside. -/
  lineEnd : Problem

namespace Enclosure

/-- The inside of an enclosed literal. -/
structure Inside where
  /-- The characters that the literal stands for. -/
  content : List Char
  /-- The literal is closed. -/
  closed : Bool
  /-- The line ends inside. -/
  found : List Diagnostic
  /-- The place after the literal. -/
  rest : Reader

/-- Reads the inside of a literal from the upcoming characters, their position and location on.
    `content` and `found` are what was read so far, in reverse. -/
def readFrom (e : Enclosure) :
    List Char → Nat → Location → List Char → List Diagnostic → Inside
  | [], n, l, content, found => ⟨content.reverse, false, found.reverse, ⟨[], n, l⟩⟩
  | c :: cs, n, l, content, found =>
    if c = e.close then
      match cs with
      | d :: ds =>
        if e.doubles ∧ d = c then
          readFrom e ds (n + 2) ((l.after c (some d)).after d ds.head?) (c :: content) found
        else ⟨content.reverse, true, found.reverse, ⟨d :: ds, n + 1, l.after c (some d)⟩⟩
      | [] => ⟨content.reverse, true, found.reverse, ⟨[], n + 1, l.after c none⟩⟩
    else if c = '\r' then
      match cs with
      | d :: ds =>
        if d = '\n' then
          readFrom e ds (n + 2) ((l.after c (some d)).after d ds.head?) content
            (⟨l, e.lineEnd⟩ :: found)
        else readFrom e (d :: ds) (n + 1) (l.after c (some d)) content (⟨l, e.lineEnd⟩ :: found)
      | [] => readFrom e [] (n + 1) (l.after c none) content (⟨l, e.lineEnd⟩ :: found)
    else if c = '\n' then
      readFrom e cs (n + 1) (l.after c cs.head?) content (⟨l, e.lineEnd⟩ :: found)
    else readFrom e cs (n + 1) (l.after c cs.head?) (c :: content) found

/-- Reads the inside of a literal up to its end. -/
def read (e : Enclosure) (r : Reader) : Inside := e.readFrom r.rest r.position r.location [] []

/-- Strings and characters. -/
def string : Enclosure := ⟨'\x22', true, .newlineInString⟩

/-- Dates. -/
def date : Enclosure := ⟨'#', false, .newlineInDate⟩

end Enclosure

namespace Piece

/-- A character literal with the given content. -/
def character (start rest : Reader) (content : List Char) (entries : List Entry) : Piece :=
  match content with
  | [c] => literal .literalCharacter start rest (.char c) .charLiteral entries
  | content =>
    literal .literalCharacter start rest (.char (content.head?.getD '\x00')) .charLiteral
      (entries ++ [problem start.location .invalidCharacterLiteral])

/-- A string or character literal, after its opening quotation mark. -/
def string (start r : Reader) : Piece :=
  let inside := Enclosure.string.read r
  let stop := inside.rest
  let unclosed := if inside.closed then [] else [problem stop.location .unterminatedString]
  let size := inside.content.length
  let tooLarge :=
    if Limits.maxStringSize < size then [problem start.location (.stringTooLarge size)] else []
  let entries := inside.found.map .problem ++ unclosed ++ tooLarge
  if inside.closed && stop.peekIs (fun c => c == 'c' || c == 'C') then
    character start stop.skip inside.content entries
  else
    literal .literalString start stop (.string (String.ofList inside.content)) .stringLiteral
      entries

/-- A date literal, after its opening number sign and the whitespace that follows. -/
def date (start r : Reader) : Piece :=
  let inside := Enclosure.date.read r
  let stop := inside.rest
  let unclosed := if inside.closed then [] else [problem stop.location .unterminatedDate]
  let entries := inside.found.map .problem ++ unclosed
  match Moment.ofText? inside.content with
  | some moment => literal .literalDate start stop (.date moment) .dateTimeLiteral entries
  | none =>
    let text := String.ofList (Text.trim inside.content)
    literal .literalDate start stop (.date .default) .dateTimeLiteral
      (entries ++ [problem start.location (.invalidDate text)])

/-- A directive, after its number sign and the whitespace that follows. -/
def directive (s : Setting) (start r : Reader) : Piece :=
  let (name, stop) := r.readWhile Text.isWordChar
  let (line, rest) := stop.readLine
  let argument := Text.trim line
  let last := start.location.right (1 + name.length + argument.length)
  endOfLine s.freshLine last rest
    [.trivia (.directive
      { name := String.ofList ('#' :: name)
        argument := String.ofList argument
        span := ⟨start.location, last⟩ })]

/-- A date or a directive, after its number sign. -/
def numberSign (s : Setting) (start r : Reader) : Piece :=
  let r := r.skipWhile Text.isInlineBlank
  if r.peekIs Text.isDigit then date start r else directive s start r

end Piece

end BasicLexis
