set_option autoImplicit false

/-! # Hints on the next token

Whether a less-than sign opens an XML literal or compares two values, and whether a name is an XML
name, depends on what came before. These hints tell the scanner how to read the next token. -/

namespace BasicLexis

/-- How the next token is to be read. -/
structure Hints where
  /-- An operand may start here, so a less-than sign opens an XML literal. -/
  xmlMayStart : Bool := false
  /-- The next name is an XML name. -/
  xmlNameNext : Bool := false
  /-- An XML literal here is a single tag: that of an import or of a member access. -/
  singleTagNext : Bool := false
  deriving DecidableEq, Repr

end BasicLexis
