import BasicLexis.Classifier.Hints
import BasicLexis.Journal
import BasicLexis.Number.Numeral
import BasicLexis.Source.Reach

set_option autoImplicit false

/-! # Pieces of source

The source is read piece by piece. A piece is a token, or whitespace, a comment or another stretch
without a token; in either case it says where the next piece starts and what there is to note about
the stretch.

Some tokens can only be told from the character that follows them, and that character is then a
token of its own, which waits for its turn: the dot after `1.` and the exclamation mark in `a!b`. -/

namespace BasicLexis

/-- What a stretch of source gives. -/
structure Piece where
  /-- The place after the stretch. -/
  rest : Reader
  /-- The token that the stretch is. -/
  token : Option Token := none
  /-- A further token, which follows the first. -/
  queued : Option Token := none
  /-- What there is to note about the stretch, in order. -/
  entries : List Entry := []
  /-- Reading the stretch takes an addition that overflows. -/
  overflow : Bool := false

/-- What the reading of a piece depends on, besides the text. -/
structure Setting where
  /-- How the classifier wants the next token to be read. -/
  hints : Hints
  /-- No token precedes the piece on its line. -/
  freshLine : Bool
  /-- The words that make a comment a tag comment. -/
  tags : List String

namespace Piece

/-- A token whose text follows from its kind. -/
def symbol (kind : TokenKind) (start rest : Reader) : Piece :=
  { rest, token := some (.symbol kind start.location rest.location) }

/-- A token with the given text. -/
def word (kind : TokenKind) (start rest : Reader) (text : List Char) (entries : List Entry) :
    Piece :=
  { rest, entries
    token := some
      { kind, start := start.location, stop := rest.location, text := String.ofList text } }

/-- A literal. Its text is the whole stretch. -/
def literal (kind : TokenKind) (start rest : Reader) (value : LiteralValue)
    (format : LiteralFormat) (entries : List Entry) : Piece :=
  { rest, entries, token := some (Numeral.literal start rest kind value format) }

/-- The end of a line that started with tokens; nothing if no token precedes it on the line. -/
def endOfLine (freshLine : Bool) (start : Location) (rest : Reader) (entries : List Entry) : Piece :=
  { rest, entries
    token := if freshLine then none else some (.lineEnd start rest.location) }

/-- A problem as an entry. -/
def problem (location : Location) (problem : Problem) : Entry := .problem ⟨location, problem⟩

/-- A numeric literal. -/
def ofNumeral (numeral : Numeral) : Piece :=
  { rest := numeral.rest
    token := some numeral.token
    queued := numeral.dot
    entries := numeral.diagnostics.map .problem
    overflow := numeral.overflow }

end Piece

end BasicLexis
