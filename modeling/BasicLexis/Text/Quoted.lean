import BasicLexis.Text.Visible

set_option autoImplicit false

/-! # Quoted text

Text as reports show it between quotes: line ends, tabs, the null character, backslashes and the
enclosing quote are written with a backslash, and every other character that does not print as
itself by its code point. -/

namespace BasicLexis.Text

/-- The lower-case hexadecimal digits of a number, without leading zeros. -/
def hexDigits (n : Nat) : List Char := Nat.toDigits 16 n

/-- A character as it stands between two `quote` characters. -/
def escapeChar (quote : Char) (c : Char) : List Char :=
  if c == '\x00' then ['\\', '0']
  else if c == '\t' then ['\\', 't']
  else if c == '\r' then ['\\', 'r']
  else if c == '\n' then ['\\', 'n']
  else if c == '\\' || c == quote then ['\\', c]
  else if visible.contains c.toNat then [c]
  else '\\' :: 'u' :: '\x7b' :: (hexDigits c.toNat ++ ['\x7d'])

/-- A text between double quotes. -/
def quoted (text : String) : String :=
  String.ofList ('\x22' :: (text.toList.flatMap (escapeChar '\x22') ++ ['\x22']))

/-- A single character between apostrophes. -/
def quotedChar (c : Char) : String :=
  String.ofList ('\x27' :: (escapeChar '\x27' c ++ ['\x27']))

end BasicLexis.Text
