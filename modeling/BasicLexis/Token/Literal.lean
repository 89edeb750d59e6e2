import BasicLexis.Calendar.Moment
import BasicLexis.Number.Shortest
import BasicLexis.Text.Quoted

set_option autoImplicit false

/-! # Values of literals

A literal token carries the value that its text stands for and the way in which it was written.
Integers have the width and sign of their type; floating-point values are kept as their bits. -/

namespace BasicLexis

/-- How a literal is written. -/
inductive LiteralFormat where
  | none | decimalNumber | hexadecimalNumber | octalNumber | stringLiteral | charLiteral
  | dateTimeLiteral
  deriving DecidableEq, Repr

/-- The name of a way to write literals. -/
def LiteralFormat.name : LiteralFormat → String
  | none => "None"
  | decimalNumber => "DecimalNumber"
  | hexadecimalNumber => "HexadecimalNumber"
  | octalNumber => "OctalNumber"
  | stringLiteral => "StringLiteral"
  | charLiteral => "CharLiteral"
  | dateTimeLiteral => "DateTimeLiteral"

/-- The value of a literal. -/
inductive LiteralValue where
  /-- The token is no literal. -/
  | none
  | int16 (value : Int16)
  | uint16 (value : UInt16)
  | int32 (value : Int32)
  | uint32 (value : UInt32)
  | int64 (value : Int64)
  | uint64 (value : UInt64)
  /-- A floating-point number of 32 bits. -/
  | single (bits : UInt32)
  /-- A floating-point number of 64 bits. -/
  | double (bits : UInt64)
  | decimal (value : Decimal)
  /-- What a program without overflow checks takes for a decimal where the rounding of its digits
      overflows: a mantissa at the greatest scale. -/
  | wrapped (mantissa : Int)
  | date (value : Moment)
  | char (value : Char)
  | string (value : String)
  deriving DecidableEq, Repr

namespace LiteralValue

/-- The value of a decimal literal that is put together from its digits. -/
def ofAssembly? : Decimal.Assembly → Option LiteralValue
  | .decimal value => some (.decimal value)
  | .outOfRange => Option.none
  | .overflow mantissa => mantissa.map .wrapped

/-- The name of the type of a value. -/
def typeName : LiteralValue → String
  | none => "None"
  | int16 _ => "Int16"
  | uint16 _ => "UInt16"
  | int32 _ => "Int32"
  | uint32 _ => "UInt32"
  | int64 _ => "Int64"
  | uint64 _ => "UInt64"
  | single _ => "Single"
  | double _ => "Double"
  | decimal _ => "Decimal"
  | wrapped _ => "Decimal"
  | date _ => "Date"
  | char _ => "Char"
  | string _ => "String"

/-- The integer that an integer literal stands for. -/
def toInt? : LiteralValue → Option Int
  | int16 v => some v.toInt
  | uint16 v => some v.toNat
  | int32 v => some v.toInt
  | uint32 v => some v.toNat
  | int64 v => some v.toInt
  | uint64 v => some v.toNat
  | _ => Option.none

/-- The text that a string literal stands for. -/
def toString? : LiteralValue → Option String
  | string s => some s
  | _ => Option.none

/-- A value as reports show it: numbers in full, without an exponent and with ties between two digits
    going up; characters and strings in quotes; nothing for a token without a value. -/
def render : LiteralValue → String
  | none => ""
  | int16 v => toString v.toInt
  | uint16 v => toString v.toNat
  | int32 v => toString v.toInt
  | uint32 v => toString v.toNat
  | int64 v => toString v.toInt
  | uint64 v => toString v.toNat
  | single bits => String.ofList (shortestDigits .single .up bits.toNat).positional
  | double bits => String.ofList (shortestDigits .double .up bits.toNat).positional
  | decimal d => d.render
  | wrapped mantissa => Decimal.renderScaled mantissa Decimal.maxScale
  | date m => m.render
  | char c => Text.quotedChar c
  | string s => Text.quoted s

end LiteralValue

end BasicLexis
