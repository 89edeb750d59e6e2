import BasicLexis.Source.Location
import BasicLexis.Text.Split

set_option autoImplicit false

/-! # Lines of a source text

A line index cuts a text at its line feeds, drops the carriage returns at the end of each line, and
shows a problem under the line that it occurred on. -/

namespace BasicLexis

/-- The text without the carriage returns at its end. -/
def dropTrailingReturns (line : List Char) : List Char :=
  (line.reverse.dropWhile (· == '\r')).reverse

/-- The lines of a source text. -/
structure LineIndex where
  /-- The lines in order, without their line ends. -/
  lines : Array String

namespace LineIndex

/-- The lines of a text. -/
def ofText (text : String) : LineIndex :=
  ⟨((Text.split '\n' text.toList).map (String.ofList ∘ dropTrailingReturns)).toArray⟩

/-- The line with the given number, counted from one. -/
def line? (index : LineIndex) (number : Nat) : Option String :=
  if number = 0 then none else index.lines[number - 1]?

/-- How many lines the text has; an empty text has one. -/
def count (index : LineIndex) : Nat := index.lines.size

/-- `count` blanks. -/
def blanks (count : Nat) : String := String.ofList (List.replicate count ' ')

/-- A message with its location, the line it refers to, and a caret under the column. -/
def renderProblem (index : LineIndex) (at_ : Location) (message : String) : String :=
  let head := "Error: " ++ message ++ "\n  --> " ++ at_.render ++ "\n"
  match index.line? at_.line with
  | none => head
  | some line =>
    let number := toString at_.line
    let margin := "   " ++ blanks number.length
    head ++ margin ++ " |\n"
      ++ number ++ " | " ++ line ++ "\n"
      ++ margin ++ " | " ++ blanks (at_.column - 1) ++ "^\n"

end LineIndex

end BasicLexis
