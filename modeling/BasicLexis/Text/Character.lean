import BasicLexis.Text.Alphabetic
import BasicLexis.Text.Numeric

set_option autoImplicit false

/-! # Character classes

The classes of characters that the lexical grammar speaks of. ASCII characters are classified by
their intervals; all others by the Unicode tables, so that identifiers may be written in any
script. -/

namespace BasicLexis.Text

/-- A character that ends a line, alone or as part of a carriage return and line feed pair. -/
def isLineEnd (c : Char) : Bool := c == '\n' || c == '\r'

/-- Whitespace between tokens, line ends included: the Unicode property `White_Space`. -/
def isBlank (c : Char) : Bool :=
  let n := c.toNat
  (9 ≤ n && n ≤ 13) || n == 32 || n == 0x85 || n == 0xA0 || n == 0x1680
    || (0x2000 ≤ n && n ≤ 0x200A) || n == 0x2028 || n == 0x2029 || n == 0x202F || n == 0x205F
    || n == 0x3000

/-- Whitespace that stays on its line. -/
def isInlineBlank (c : Char) : Bool := isBlank c && !isLineEnd c

/-- Whitespace between the parts of XML markup. -/
def isMarkupBlank (c : Char) : Bool := c == ' ' || c == '\t' || c == '\r' || c == '\n'

/-- An ASCII decimal digit. -/
def isDigit (c : Char) : Bool := '0' ≤ c && c ≤ '9'

/-- An ASCII hexadecimal digit. -/
def isHexDigit (c : Char) : Bool :=
  isDigit c || ('a' ≤ c && c ≤ 'f') || ('A' ≤ c && c ≤ 'F')

/-- An ASCII octal digit. -/
def isOctalDigit (c : Char) : Bool := '0' ≤ c && c ≤ '7'

/-- A letter of any script: the Unicode property `Alphabetic`. -/
def isAlphabetic (c : Char) : Bool :=
  if c.toNat < 128 then ('a' ≤ c && c ≤ 'z') || ('A' ≤ c && c ≤ 'Z')
  else alphabetic.contains c.toNat

/-- A number of any script: the Unicode general categories of numbers. -/
def isNumeric (c : Char) : Bool :=
  if c.toNat < 128 then isDigit c else numeric.contains c.toNat

/-- A letter or number of any script. -/
def isAlphanumeric (c : Char) : Bool := isAlphabetic c || isNumeric c

/-- A character of an identifier after its first one. -/
def isWordChar (c : Char) : Bool := isAlphanumeric c || c == '_'

/-- A character of an XML name after its first one. The colon is among them, so that a qualified
    name is read as one name. -/
def isMarkupNameChar (c : Char) : Bool :=
  let n := c.toNat
  isAlphanumeric c || c == '_' || c == '-' || c == '.' || c == ':' || n == 0xB7
    || (0x300 ≤ n && n ≤ 0x36F) || (0x203F ≤ n && n ≤ 0x2040)

/-- A quote that opens a comment: the apostrophe and its two typographic forms. -/
def isCommentQuote (c : Char) : Bool := c == '\x27' || c == '\u2018' || c == '\u2019'

/-- A type character, which may stand right after a name and fixes its type. -/
def isTypeMark (c : Char) : Bool :=
  c == '%' || c == '&' || c == '@' || c == '!' || c == '#' || c == '$'

/-- The text without the whitespace at both of its ends. -/
def trim (text : List Char) : List Char :=
  ((text.dropWhile isBlank).reverse.dropWhile isBlank).reverse

/-- An ASCII letter in lower case; all other characters unchanged. -/
def lowerLetter (c : Char) : Char :=
  if 'A' ≤ c && c ≤ 'Z' then Char.ofNat (c.toNat + 32) else c

/-- The value of a decimal digit. -/
def digitValue? (c : Char) : Option Nat :=
  if isDigit c then some (c.toNat - '0'.toNat) else none

/-- The value of a hexadecimal digit; also that of a decimal or octal one. -/
def hexDigitValue (c : Char) : Nat :=
  if isDigit c then c.toNat - '0'.toNat
  else if 'a' ≤ c && c ≤ 'f' then c.toNat - 'a'.toNat + 10
  else c.toNat - 'A'.toNat + 10

/-- The number that a digit string spells in the given base. -/
def numeral (base : Nat) (digits : List Char) : Nat :=
  digits.foldl (fun n c => n * base + hexDigitValue c) 0

end BasicLexis.Text
