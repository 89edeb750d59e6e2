import BasicLexis.Piece.Enclosed
import BasicLexis.Piece.Layout
import BasicLexis.Piece.Markup
import BasicLexis.Piece.Operator

set_option autoImplicit false

/-! # Pieces of ordinary source

The first character of a piece decides what it is. A less-than sign opens an XML literal if the
classifier says that one may start, and is an operator otherwise. -/

namespace BasicLexis

namespace Setting

/-- A less-than sign may open an XML literal. -/
def xmlMayStart (s : Setting) : Bool := s.hints.xmlMayStart || s.hints.singleTagNext

end Setting

namespace Piece

/-- The note that no further XML literal is opened inside so many others. -/
def nestingLimit (depth : Nat) : Entry :=
  .event ((LogEvent.debug "XML nesting limit reached, '<' read as operator").withContext "depth"
    (toString depth))

/-- A piece that no XML literal is involved in. The character `c` was read, and `r` is the place
    after it. -/
def plain (s : Setting) (c : Char) (start r : Reader) : Piece :=
  if Text.isBlank c then blank s c start r
  else if c = '_' then underscore s start r
  else if c = '#' then numberSign s start r
  else if c = '[' then bracketed start r
  else if c = '\x22' then string start r
  else if Text.isCommentQuote c then comment s true start r
  else if Text.isAlphabetic c then letters s start r
  else operator c start r

/-- A piece of ordinary source, also where XML literals and embedded expressions begin and end. The
    character `c` was read, and `r` is the place after it. -/
def standard (s : Setting) (m : XmlMode) (c : Char) (start r : Reader) : Piece × XmlMode :=
  if c = '%' ∧ r.peek = some '>' then (symbol .xmlExpressionEnd start r.skip, m.resume)
  else if c = '<' ∧ s.xmlMayStart then
    if m.literals.length < Limits.maxXmlNesting then m.enter s.hints.singleTagNext start r
    else
      let less := operator c start r
      ({ less with entries := nestingLimit m.literals.length :: less.entries }, m)
  else (plain s c start r, m)

/-- The next piece, outside or inside an XML literal. -/
def next (s : Setting) (m : XmlMode) (c : Char) (start r : Reader) : Piece × XmlMode :=
  if m.active then m.read c start r
  else if Numeral.startsAt start then (ofNumeral (Numeral.scan start), m)
  else standard s m c start r

end Piece

end BasicLexis
