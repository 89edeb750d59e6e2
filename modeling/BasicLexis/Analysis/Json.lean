import BasicLexis.Analysis
import BasicLexis.Log.Json

set_option autoImplicit false

/-! # Analyses in JSON

The result of an analysis as one object. -/

namespace BasicLexis

/-- A span as an object. -/
def Span.toJson (s : Span) : Json := .object [("start", s.start.toJson), ("end", s.stop.toJson)]

/-- A kind by its name; a keyword as an object. -/
def TokenKind.toJson : TokenKind → Json
  | .keyword word => .object [("Keyword", .string word.name)]
  | kind => .string kind.name

namespace LiteralValue

/-- The content of a value; nothing for a token without one. -/
def content? : LiteralValue → Option Json
  | none => Option.none
  | single bits => some (.single bits)
  | double bits => some (.double bits)
  | decimal d => some (.string d.render)
  | wrapped mantissa => some (.string (wrapped mantissa).render)
  | date m => some (.string m.renderIso)
  | char c => some (.string (String.ofList [c]))
  | string s => some (.string s)
  | value => value.toInt?.map .integer

/-- A value with the name of its type. -/
def toJson (value : LiteralValue) : Json :=
  .object (("type", .string value.typeName) :: value.content?.toList.map fun c => ("value", c))

end LiteralValue

/-- A token as an object. -/
def Token.toJson (t : Token) : Json :=
  .object [
    ("kind", t.kind.toJson),
    ("start", t.start.toJson),
    ("end", t.stop.toJson),
    ("text", .string t.text),
    ("value", t.value.toJson),
    ("format", .string t.format.name)]

/-- A diagnostic as an object. -/
def Diagnostic.toJson (d : Diagnostic) : Json :=
  .object [
    ("location", d.location.toJson),
    ("code", .string d.code.text),
    ("message", .string d.message)]

/-- A piece of trivia as an object under the name of its sort. -/
def Trivia.toJson : Trivia → Json
  | comment c =>
    .object [("Comment", .object [
      ("kind", .string c.style.name),
      ("text", .string c.text),
      ("starts_line", .bool c.startsLine),
      ("span", c.span.toJson)])]
  | directive d =>
    .object [("Directive", .object [
      ("name", .string d.name),
      ("argument", .string d.argument),
      ("span", d.span.toJson)])]
  | blankLine l => .object [("BlankLine", l.toJson)]

/-- A tag comment as an object. -/
def TagComment.toJson (c : TagComment) : Json :=
  .object [
    ("tag", .string c.tag),
    ("text", .string c.text),
    ("starts_line", .bool c.startsLine),
    ("span", c.span.toJson)]

/-- The name of a sort of classifier errors. -/
def ClassifierErrorKind.name : ClassifierErrorKind → String
  | unexpectedToken => "UnexpectedToken"
  | limitExceeded => "LimitExceeded"

/-- A misplaced token as an object. -/
def ClassifierError.toJson (e : ClassifierError) : Json :=
  .object [
    ("location", e.location.toJson),
    ("found", e.found.toJson),
    ("context", .string e.context.name),
    ("kind", .string e.kind.name)]

/-- Metrics as an object. -/
def Metrics.toJson (m : Metrics) : Json :=
  .object [
    ("total_tokens", .nat m.total),
    ("keyword_tokens", .nat m.keywords),
    ("identifier_tokens", .nat m.identifiers),
    ("literal_tokens", .nat m.literals),
    ("operator_tokens", .nat m.operators),
    ("xml_tokens", .nat m.xml),
    ("line_count", .nat m.lines),
    ("max_identifier_length", .nat m.longestIdentifier),
    ("max_string_length", .nat m.longestString),
    ("comment_count", .nat m.comments),
    ("directive_count", .nat m.directives),
    ("diagnostic_count", .nat m.diagnostics),
    ("classifier_error_count", .nat m.misplaced),
    ("kind_counts", .object (m.kinds.map fun (name, count) => (name, .nat count)))]

/-- An analysis as an object. -/
def Analysis.toJson (a : Analysis) : Json :=
  .object [
    ("tokens", .array (a.tokens.toList.map Token.toJson)),
    ("diagnostics", .array (a.diagnostics.toList.map Diagnostic.toJson)),
    ("specials", .array (a.trivia.toList.map Trivia.toJson)),
    ("tag_comments", .array (a.tagComments.toList.map TagComment.toJson)),
    ("classifier_errors", .array (a.misplaced.toList.map ClassifierError.toJson)),
    ("metrics", a.metrics.toJson)]

end BasicLexis
