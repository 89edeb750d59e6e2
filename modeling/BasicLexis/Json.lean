import BasicLexis.Number.Shortest
import BasicLexis.Text.Quoted

set_option autoImplicit false

/-! # JSON text

JSON values with their fields in a fixed order, and their two written forms: on one line without
blanks, and on many lines with an indentation of two blanks. -/

namespace BasicLexis

/-- A JSON value. -/
inductive Json where
  | bool (value : Bool)
  | integer (value : Int)
  /-- A number that is written as given. -/
  | real (digits : String)
  | string (text : String)
  | array (items : List Json)
  /-- Fields in the order in which they are written. -/
  | object (fields : List (String × Json))
  deriving Repr

namespace Json

/-! ## Scalars -/

/-- A natural number. -/
def nat (n : Nat) : Json := .integer n

/-- A number of 64 bits. Numbers from 0.00001 up to 10^16 are written without an exponent, and a tie
    between two digits goes to the even one. -/
def double (bits : UInt64) : Json :=
  .real (String.ofList
    ((⟨-5, 15⟩ : ExponentRange).layout (shortestDigits .double .even bits.toNat)))

/-- A number of 32 bits. Numbers from 0.000001 up to 10^13 are written without an exponent, and a tie
    between two digits goes to the even one. -/
def single (bits : UInt32) : Json :=
  .real (String.ofList
    ((⟨-6, 12⟩ : ExponentRange).layout (shortestDigits .single .even bits.toNat)))

/-- A character as it stands in a JSON string: quotation marks, backslashes and control characters
    are escaped. -/
def escapeChar (c : Char) : List Char :=
  if c = '\x22' ∨ c = '\\' then ['\\', c]
  else if c = '\x08' then ['\\', 'b']
  else if c = '\x0c' then ['\\', 'f']
  else if c = '\n' then ['\\', 'n']
  else if c = '\r' then ['\\', 'r']
  else if c = '\t' then ['\\', 't']
  else if c.toNat < 0x20 then
    '\\' :: 'u' :: '0' :: '0' :: ((if c.toNat < 16 then ['0'] else []) ++ Text.hexDigits c.toNat)
  else [c]

/-- A text between quotation marks. -/
def quoted (text : String) : String :=
  String.ofList ('\x22' :: (text.toList.flatMap escapeChar ++ ['\x22']))

/-! ## One line -/

mutual

/-- Writes a value on one line, after `out`. -/
def appendCompact (out : String) : Json → String
  | bool b => out ++ (if b then "true" else "false")
  | integer n => out ++ toString n
  | real digits => out ++ digits
  | string text => out ++ quoted text
  | array items => appendItems true (out ++ "[") items ++ "]"
  | object fields => appendFields true (out ++ "\x7b") fields ++ "\x7d"

/-- Writes the items of an array; `first` if none was written. -/
def appendItems (first : Bool) (out : String) : List Json → String
  | [] => out
  | item :: rest =>
    appendItems false (appendCompact (if first then out else out ++ ",") item) rest

/-- Writes the fields of an object; `first` if none was written. -/
def appendFields (first : Bool) (out : String) : List (String × Json) → String
  | [] => out
  | (key, value) :: rest =>
    appendFields false
      (appendCompact ((if first then out else out ++ ",") ++ quoted key ++ ":") value) rest

end

/-- A value on one line. -/
def compact (value : Json) : String := appendCompact "" value

/-! ## Many lines -/

/-- The start of a line at the given depth. -/
def indent (depth : Nat) : String := "\n" ++ String.ofList (List.replicate (2 * depth) ' ')

mutual

/-- Writes a value on many lines, after `out`. Empty arrays and objects stay on their line. -/
def appendPretty (depth : Nat) (out : String) : Json → String
  | bool b => out ++ (if b then "true" else "false")
  | integer n => out ++ toString n
  | real digits => out ++ digits
  | string text => out ++ quoted text
  | array [] => out ++ "[]"
  | array items => appendPrettyItems (depth + 1) true (out ++ "[") items ++ indent depth ++ "]"
  | object [] => out ++ "\x7b\x7d"
  | object fields =>
    appendPrettyFields (depth + 1) true (out ++ "\x7b") fields ++ indent depth ++ "\x7d"

/-- Writes the items of an array, each on a line of its own. -/
def appendPrettyItems (depth : Nat) (first : Bool) (out : String) : List Json → String
  | [] => out
  | item :: rest =>
    appendPrettyItems depth false
      (appendPretty depth ((if first then out else out ++ ",") ++ indent depth) item) rest

/-- Writes the fields of an object, each on a line of its own. -/
def appendPrettyFields (depth : Nat) (first : Bool) (out : String) : List (String × Json) → String
  | [] => out
  | (key, value) :: rest =>
    appendPrettyFields depth false
      (appendPretty depth ((if first then out else out ++ ",") ++ indent depth ++ quoted key ++ ": ")
        value) rest

end

/-- A value on many lines. -/
def pretty (value : Json) : String := appendPretty 0 "" value

end Json

end BasicLexis
