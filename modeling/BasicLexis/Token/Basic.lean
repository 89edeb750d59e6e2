import BasicLexis.Source.Location
import BasicLexis.Token.Kind
import BasicLexis.Token.Literal

set_option autoImplicit false

/-! # Tokens

A token is a piece of the source with its kind, where it stands, its text, and for a literal the
value and the way of writing. -/

namespace BasicLexis

/-- A token of a source text. -/
structure Token where
  /-- What the token is. -/
  kind : TokenKind
  /-- The location of its first character. -/
  start : Location
  /-- The location right after its last character. -/
  stop : Location
  /-- Its text. -/
  text : String
  /-- The value of a literal. -/
  value : LiteralValue := .none
  /-- How a literal is written. -/
  format : LiteralFormat := .none
  deriving DecidableEq, Repr

namespace Token

/-- A token whose text follows from its kind. -/
def symbol (kind : TokenKind) (start stop : Location) : Token :=
  { kind, start, stop, text := kind.symbol?.getD "" }

/-- A line end without any text. -/
def lineEnd (start stop : Location) : Token := { kind := .eol, start, stop, text := "" }

/-- The token that marks the end of a stream. -/
def endMarker (location : Location) : Token :=
  { kind := .eof, start := location, stop := location, text := "" }

/-- The stretch of source that a token takes. -/
def span (t : Token) : Span := ⟨t.start, t.stop⟩

/-- The token ends the stream. -/
def isEof (t : Token) : Bool := t.kind == .eof

/-- A token as one line: location, kind and, unless it ends a line or the source, its text. -/
def render (t : Token) : String :=
  let head := t.start.render ++ " " ++ t.kind.render
  match t.kind with
  | .eol | .eof => head
  | _ => head ++ " " ++ Text.quoted t.text

end Token

end BasicLexis
