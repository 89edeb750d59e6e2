import BasicLexis.Number.Binary
import BasicLexis.Token.Basic

set_option autoImplicit false

/-! # Metrics of a token stream

How many tokens of each sort a source has, and how long its longest name and string are. -/

namespace BasicLexis

/-- Counts of one source. -/
structure Metrics where
  /-- All tokens. -/
  total : Nat := 0
  /-- Keywords. -/
  keywords : Nat := 0
  /-- Names. -/
  identifiers : Nat := 0
  /-- Literals. -/
  literals : Nat := 0
  /-- Operators and assignments. -/
  operators : Nat := 0
  /-- The markup of XML literals. -/
  xml : Nat := 0
  /-- Line ends. -/
  lines : Nat := 0
  /-- The length of the longest name. -/
  longestIdentifier : Nat := 0
  /-- The length of the longest string literal, quotation marks included. -/
  longestString : Nat := 0
  /-- Comments. -/
  comments : Nat := 0
  /-- Directives. -/
  directives : Nat := 0
  /-- Problems of the text. -/
  diagnostics : Nat := 0
  /-- Tokens that the classifier could not place. -/
  misplaced : Nat := 0
  /-- Counts by the name of the kind, in increasing order of the names. -/
  kinds : List (String × Nat) := []
  deriving DecidableEq, Repr

namespace Metrics

/-- Counts one more under a name. -/
def increment (name : String) : List (String × Nat) → List (String × Nat)
  | [] => [(name, 1)]
  | (key, count) :: rest =>
    if name = key then (key, count + 1) :: rest
    else if name < key then (name, 1) :: (key, count) :: rest
    else (key, count) :: increment name rest

/-- The name under which a kind is counted. -/
def kindName : TokenKind → String
  | .keyword word => word.spelling
  | kind => kind.name

/-- Counts a token by the group that its kind belongs to. -/
def countGroup (m : Metrics) (t : Token) : Metrics :=
  match t.kind with
  | .keyword _ => { m with keywords := m.keywords + 1 }
  | .identifier =>
    { m with
      identifiers := m.identifiers + 1
      longestIdentifier := max m.longestIdentifier t.text.length }
  | .eol => { m with lines := m.lines + 1 }
  | .literalString =>
    { m with
      literals := m.literals + 1
      longestString := max m.longestString t.text.length }
  | kind =>
    if kind.isLiteral then { m with literals := m.literals + 1 }
    else if kind.isXml then { m with xml := m.xml + 1 }
    else if kind.isBinaryOperator || kind.isAssignment then { m with operators := m.operators + 1 }
    else m

/-- Counts a token. -/
def count (byKind : Bool) (m : Metrics) (t : Token) : Metrics :=
  let m := { m.countGroup t with total := m.total + 1 }
  if byKind then { m with kinds := increment (kindName t.kind) m.kinds } else m

/-- The bits of the percentage of tokens that are keywords, as a number of 64 bits. -/
def keywordRatio (m : Metrics) : UInt64 :=
  UInt64.ofNat ((BinaryFormat.double.round? (m.keywords * 100) m.total).getD 0)

end Metrics

end BasicLexis
