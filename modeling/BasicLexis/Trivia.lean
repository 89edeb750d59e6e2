import BasicLexis.Source.Location

set_option autoImplicit false

/-! # Trivia

Comments, directives and blank lines carry no tokens. They are recorded beside the token stream, in
the order of the source, and so are the comments that contain one of the tag words that a reader of
the source looks for, such as `TODO`. -/

namespace BasicLexis

/-- The two styles of comments. -/
inductive CommentStyle where
  | singleLine
  /-- A comment that starts with three quotes. -/
  | documentation
  deriving DecidableEq, Repr

/-- The name of a style. -/
def CommentStyle.name : CommentStyle → String
  | singleLine => "SingleLine"
  | documentation => "Documentation"

/-- A comment. -/
structure Comment where
  /-- How it is introduced. -/
  style : CommentStyle
  /-- The text after the quotes or the keyword, up to the end of the line. -/
  text : String
  /-- No token precedes the comment on its line. -/
  startsLine : Bool
  /-- The stretch from the introducing quote or keyword to the end of the line. -/
  span : Span
  deriving DecidableEq, Repr

/-- A directive, which starts with a number sign. -/
structure Directive where
  /-- Its name with the number sign. -/
  name : String
  /-- The rest of its line without the whitespace around it. -/
  argument : String
  /-- The stretch from the number sign, as long as name and argument together. -/
  span : Span
  deriving DecidableEq, Repr

/-- A part of the source that carries no tokens. -/
inductive Trivia where
  | comment (comment : Comment)
  | directive (directive : Directive)
  | blankLine (location : Location)
  deriving DecidableEq, Repr

namespace Trivia

/-- Where a piece of trivia starts. -/
def location : Trivia → Location
  | comment c => c.span.start
  | directive d => d.span.start
  | blankLine l => l

/-- The piece of trivia is a comment. -/
def isComment : Trivia → Bool
  | comment _ => true
  | _ => false

/-- The piece of trivia is a directive. -/
def isDirective : Trivia → Bool
  | directive _ => true
  | _ => false

end Trivia

/-- A comment that contains a tag word. -/
structure TagComment where
  /-- The tag word. -/
  tag : String
  /-- The text after it, up to the end of the line. -/
  text : String
  /-- No token precedes the comment on its line. -/
  startsLine : Bool
  /-- The stretch from the tag word to the end of the line. -/
  span : Span
  deriving DecidableEq, Repr

end BasicLexis
