set_option autoImplicit false

/-! # Locations and spans

A location is a line and a column, both counted from one; a column counts characters. Locations
are ordered as they follow each other in a text: by line, then by column. A span is the stretch
from one location up to, and not including, another. -/

namespace BasicLexis

/-- A position in a source text. Line and column are unbounded; counters of 32 bits agree with them
    in every text of fewer than `2 ^ 32 - 1` characters, where neither can go beyond the length of
    the text by more than one. -/
structure Location where
  /-- The line, counted from one. -/
  line : Nat
  /-- The column in characters, counted from one. -/
  column : Nat
  deriving DecidableEq, Repr

namespace Location

/-- The first character of a text. -/
def start : Location := ⟨1, 1⟩

instance : Inhabited Location := ⟨start⟩

/-- Earlier in the text: on an earlier line, or further left on the same line. -/
instance : LT Location :=
  ⟨fun a b => a.line < b.line ∨ (a.line = b.line ∧ a.column < b.column)⟩

instance : LE Location :=
  ⟨fun a b => a.line < b.line ∨ (a.line = b.line ∧ a.column ≤ b.column)⟩

instance (a b : Location) : Decidable (a < b) :=
  inferInstanceAs (Decidable (a.line < b.line ∨ (a.line = b.line ∧ a.column < b.column)))

instance (a b : Location) : Decidable (a ≤ b) :=
  inferInstanceAs (Decidable (a.line < b.line ∨ (a.line = b.line ∧ a.column ≤ b.column)))

/-- The start of the following line. -/
def nextLine (l : Location) : Location := ⟨l.line + 1, 1⟩

/-- The location `count` characters to the right on the same line. -/
def right (l : Location) (count : Nat) : Location := ⟨l.line, l.column + count⟩

/-- The location after a character. A line feed ends a line, and so does a carriage return that no
    line feed follows. -/
def after (l : Location) (c : Char) (following : Option Char) : Location :=
  if c = '\n' ∨ (c = '\r' ∧ following ≠ some '\n') then l.nextLine else l.right 1

/-- A location as `line:column`. -/
def render (l : Location) : String := toString l.line ++ ":" ++ toString l.column

end Location

/-- The stretch of text from `start` up to, and not including, `stop`. -/
structure Span where
  /-- Where the stretch begins. -/
  start : Location
  /-- The location right after its last character. -/
  stop : Location
  deriving DecidableEq, Repr

namespace Span

/-- The location lies within the span. -/
def contains (s : Span) (l : Location) : Bool := s.start ≤ l && l < s.stop

/-- The span begins and ends on the same line. -/
def isSingleLine (s : Span) : Bool := s.start.line == s.stop.line

/-- A span as `line:column-column` on one line, and with both locations otherwise. -/
def render (s : Span) : String :=
  if s.isSingleLine then s.start.render ++ "-" ++ toString s.stop.column
  else s.start.render ++ "-" ++ s.stop.render

end Span

end BasicLexis
