import BasicLexis.Problem
import BasicLexis.Source.Reader
import BasicLexis.Token.Basic

set_option autoImplicit false

/-! # Numeric literals

Integers are written in decimal, in hexadecimal after `&H` or in octal after `&O`, with an optional
suffix for their type. A decimal number with a fraction, an exponent or a floating suffix is a
floating-point or scaled decimal literal.

The three bases treat their digits differently. Decimal digits are a number, which has to fit its
type. Hexadecimal digits are a bit pattern, which has to fit the width of its type and is then read
with the sign of the type. Octal digits are a number of at most 64 bits, of which the type keeps
the low bits. -/

namespace BasicLexis

/-- The base of an integer literal. -/
inductive Radix where
  | decimal | hexadecimal | octal
  deriving DecidableEq, Repr

namespace Radix

/-- The base as a number. -/
def base : Radix → Nat
  | decimal => 10
  | hexadecimal => 16
  | octal => 8

/-- The way of writing that the base stands for. -/
def format : Radix → LiteralFormat
  | decimal => .decimalNumber
  | hexadecimal => .hexadecimalNumber
  | octal => .octalNumber

/-- The digits of the base. -/
def isDigit : Radix → Char → Bool
  | decimal => Text.isDigit
  | hexadecimal => Text.isHexDigit
  | octal => Text.isOctalDigit

end Radix

/-- The integer types that a suffix can name. -/
inductive IntegerType where
  | short | unsignedShort | integer | unsignedInteger | long | unsignedLong
  deriving DecidableEq, Repr

namespace IntegerType

/-- The width of a type in bits. -/
def width : IntegerType → Nat
  | short | unsignedShort => 16
  | integer | unsignedInteger => 32
  | long | unsignedLong => 64

/-- The numbers of a type lie below this bound. -/
def bound : IntegerType → Nat
  | short => 0x8000
  | unsignedShort => 0x10000
  | integer => 0x80000000
  | unsignedInteger => 0x100000000
  | long => 0x8000000000000000
  | unsignedLong => 0x10000000000000000

/-- The value of a type whose bits are the low bits of a number. -/
def wrap : IntegerType → Nat → LiteralValue
  | short, n => .int16 (Int16.ofNat n)
  | unsignedShort, n => .uint16 (UInt16.ofNat n)
  | integer, n => .int32 (Int32.ofNat n)
  | unsignedInteger, n => .uint32 (UInt32.ofNat n)
  | long, n => .int64 (Int64.ofNat n)
  | unsignedLong, n => .uint64 (UInt64.ofNat n)

end IntegerType

/-- The types that a number with a fraction or exponent can have. -/
inductive RealType where
  | double | decimal | single
  deriving DecidableEq, Repr

/-- A numeric literal that was read. -/
structure Numeral where
  /-- The literal. -/
  token : Token
  /-- A dot that was read after an integer and belongs to a member access. -/
  dot : Option Token := none
  /-- What is wrong with the literal. -/
  diagnostics : List Diagnostic := []
  /-- Reading the literal takes an addition that overflows. -/
  overflow : Bool := false
  /-- The place after what was read. -/
  rest : Reader

namespace Numeral

/-- The literal token for the text between two places. -/
def literal (start stop : Reader) (kind : TokenKind) (value : LiteralValue)
    (format : LiteralFormat) : Token :=
  { kind, start := start.location, stop := stop.location
    text := String.ofList (start.textTo stop), value, format }

/-- The suffix of an integer literal: its type, the place after it, and what is wrong with it. Only
    the characters of a suffix are read; a percent sign before a greater-than sign is none. -/
def integerSuffix (r : Reader) : Option IntegerType × Reader × List Diagnostic :=
  match r.peek with
  | some c =>
    if c == 'S' || c == 's' then (some .short, r.skip, [])
    else if c == 'I' || c == 'i' then (some .integer, r.skip, [])
    else if c == '%' && r.peekAt 1 != some '>' then (some .integer, r.skip, [])
    else if c == 'L' || c == 'l' || c == '&' then (some .long, r.skip, [])
    else if c == 'U' || c == 'u' then
      match (r.peekAt 1).map Text.lowerLetter with
      | some 's' => (some .unsignedShort, r.skip.skip, [])
      | some 'i' => (some .unsignedInteger, r.skip.skip, [])
      | some 'l' => (some .unsignedLong, r.skip.skip, [])
      | _ =>
        let suffix := String.ofList ('U' :: (r.peekAt 1).toList)
        (none, r.skip, [⟨r.location, .invalidTypeCharacter suffix⟩])
    else (none, r, [])
  | none => (none, r, [])

/-- The value of a decimal integer without a suffix: 32 bits wide, or 64 bits if need be. -/
def plainInteger? (digits : List Char) : Option LiteralValue :=
  match natOfDigits? digits with
  | some n =>
    if n < IntegerType.integer.bound then some (.int32 (Int32.ofNat n))
    else if n < IntegerType.long.bound then some (.int64 (Int64.ofNat n))
    else none
  | none => none

/-- The value of a bit pattern without a suffix: 32 bits wide, or 64 bits if need be. -/
def plainBits (n : Nat) : LiteralValue :=
  if n < IntegerType.unsignedInteger.bound then .int32 (Int32.ofNat n)
  else .int64 (Int64.ofNat n)

/-- Appends one octal digit, as long as the number has 64 bits. -/
def pushOctal? (n : Nat) (c : Char) : Option Nat :=
  let digit := Text.hexDigitValue c
  let bound := IntegerType.unsignedLong.bound
  if Text.isOctalDigit c && n * 8 < bound && n * 8 + digit < bound then some (n * 8 + digit)
  else none

/-- The number of 64 bits that octal digits spell. -/
def octal? (digits : List Char) : Option Nat := digits.foldlM pushOctal? 0

/-- The value of an integer literal; `none` when the digits do not fit. -/
def integerValue? (radix : Radix) (digits : List Char) (type : Option IntegerType) :
    Option LiteralValue :=
  let bits := Text.numeral radix.base digits
  match radix, type with
  | .decimal, some type =>
    match natOfDigits? digits with
    | some n => if n < type.bound then some (type.wrap n) else none
    | none => none
  | .decimal, none => plainInteger? digits
  | .hexadecimal, some type => if bits < 1 <<< type.width then some (type.wrap bits) else none
  | .hexadecimal, none =>
    if bits < IntegerType.unsignedLong.bound then some (plainBits bits) else none
  | .octal, some type => (octal? digits).map type.wrap
  | .octal, none => (octal? digits).map plainBits

/-- An integer literal between two places. -/
def integer (start stop : Reader) (radix : Radix) (digits : List Char) (type : Option IntegerType)
    (diagnostics : List Diagnostic) : Numeral :=
  match integerValue? radix digits type with
  | some value =>
    { token := literal start stop .literalInteger value radix.format, diagnostics, rest := stop }
  | none =>
    let problem :=
      if radix = .decimal ∧ type = none then Problem.integerTooLong (String.ofList digits)
      else Problem.numberOverflow (String.ofList (start.textTo stop))
    { token := literal start stop .literalInteger (.int32 0) .none
      diagnostics := diagnostics ++ [⟨start.location, problem⟩]
      rest := stop }

/-- An integer literal after its ampersand: the letter for the base, the digits, the suffix. -/
def radixInteger (start afterAmpersand : Reader) : Numeral :=
  let radix :=
    if afterAmpersand.peekIs fun c => c == 'H' || c == 'h' then Radix.hexadecimal else Radix.octal
  let (digits, r) := afterAmpersand.skip.readWhile radix.isDigit
  if digits.isEmpty then
    { token := literal start r .literalInteger (.int32 0) radix.format
      diagnostics := [⟨start.location, .digitExpected⟩]
      rest := r }
  else
    let (type, r, diagnostics) := integerSuffix r
    integer start r radix digits type diagnostics

/-- An exponent: a mark, an optional sign and digits. Without digits nothing is read. The text
    starts with the sign. -/
def exponent (r : Reader) : List Char × Reader :=
  if r.peekIs Decimal.isExponentMark then
    let afterMark := r.skip
    let digitsAt := if afterMark.peekIs fun c => c == '+' || c == '-' then afterMark.skip else afterMark
    if digitsAt.peekIs Text.isDigit then
      let stop := digitsAt.skipWhile Text.isDigit
      (afterMark.textTo stop, stop)
    else ([], r)
  else ([], r)

/-- The suffix of a floating literal. -/
def realSuffix? (c : Char) : Option RealType :=
  if c == 'R' || c == 'r' || c == '#' then some .double
  else if c == 'D' || c == 'd' || c == '@' then some .decimal
  else if c == 'F' || c == 'f' || c == '!' then some .single
  else none

/-- The parts of a number with a fraction or exponent. -/
structure Parts where
  /-- The digits before the point. -/
  integral : List Char
  /-- The digits after the point. -/
  fraction : List Char
  /-- The exponent with its sign. -/
  exponent : List Char

namespace Parts

/-- The number in a uniform notation. -/
def text (p : Parts) : String :=
  let whole := if p.integral.isEmpty then ['0'] else p.integral
  let fraction := if p.fraction.isEmpty then [] else '.' :: p.fraction
  let exponent := if p.exponent.isEmpty then [] else 'e' :: p.exponent
  String.ofList (whole ++ fraction ++ exponent)

/-- The exponent as a number of any size. -/
def exponentValue (p : Parts) : Int :=
  match p.exponent with
  | '-' :: digits => -(Text.numeral 10 digits : Int)
  | '+' :: digits => (Text.numeral 10 digits : Int)
  | digits => (Text.numeral 10 digits : Int)

/-- The exponent as an integer of 32 bits, if it is one. -/
def power? (p : Parts) : Option Int :=
  if p.exponent.isEmpty then some 0 else int32OfText? p.exponent

/-- The nearest number of a binary format. -/
def toBinary? (p : Parts) (f : BinaryFormat) : Option Nat :=
  f.ofScientific? (Text.numeral 10 (p.integral ++ p.fraction))
    (p.exponentValue - p.fraction.length)

end Parts

/-- A floating or scaled decimal literal between two places. A number that is too large for its
    type is reported and becomes zero. -/
def real (start stop : Reader) (parts : Parts) (type : RealType) : Numeral :=
  let result (kind : TokenKind) (value? : Option LiteralValue) (zero : LiteralValue)
      (overflow : Bool) : Numeral :=
    { token := literal start stop kind (value?.getD zero) .decimalNumber
      diagnostics := if value?.isSome then [] else [⟨start.location, .numberOverflow parts.text⟩]
      overflow
      rest := stop }
  match type with
  | .double =>
    result .literalDouble ((parts.toBinary? .double).map (.double ∘ UInt64.ofNat)) (.double 0) false
  | .single =>
    result .literalSingle ((parts.toBinary? .single).map (.single ∘ UInt32.ofNat)) (.single 0) false
  | .decimal =>
    match parts.power? with
    | some power =>
      let number := Decimal.assemble parts.integral parts.fraction power
      result .literalDecimal (LiteralValue.ofAssembly? number) (.decimal .zero) number.overflows
    | none =>
      { token := literal start stop .literalDecimal (.decimal .zero) .decimalNumber
        diagnostics := [⟨start.location, .invalidNumber parts.text⟩]
        rest := stop }

/-- The rest of a decimal literal after its digits and fraction: exponent and suffix. -/
def tail (start r : Reader) (integral fraction : List Char) : Numeral :=
  let (power, r) := exponent r
  let parts : Parts := ⟨integral, fraction, power⟩
  match r.peek.bind realSuffix? with
  | some type => real start r.skip parts type
  | none =>
    if fraction.isEmpty && power.isEmpty then
      let (type, r, diagnostics) := integerSuffix r
      integer start r .decimal integral type diagnostics
    else real start r parts .double

/-- A decimal literal. A dot that no digit follows belongs to a member access of the integer before
    it, unless another dot or an at sign follows. -/
def decimal (start : Reader) : Numeral :=
  let (integral, r) := start.readWhile Text.isDigit
  if r.peek = some '.' then
    if (r.peekAt 1).any Text.isDigit then
      let (fraction, r) := r.skip.readWhile Text.isDigit
      tail start r integral fraction
    else if !integral.isEmpty && r.peekAt 1 != some '.' && r.peekAt 1 != some '@' then
      let number := integer start r .decimal integral none []
      { number with
        dot := some (Token.symbol .dot r.location r.skip.location)
        rest := r.skip }
    else tail start r integral []
  else tail start r integral []

/-- Reads a numeric literal. The reader stands on a digit, on an ampersand before the letter of a
    base, or on a dot before a digit. -/
def scan (start : Reader) : Numeral :=
  match start.eat? '&' with
  | some afterAmpersand => radixInteger start afterAmpersand
  | none => decimal start

/-- A numeric literal starts with these characters. -/
def startsAt (r : Reader) : Bool :=
  match r.peek with
  | some c =>
    Text.isDigit c
      || (c == '&' && (r.peekAt 1).any fun d => d == 'H' || d == 'h' || d == 'O' || d == 'o')
      || (c == '.' && (r.peekAt 1).any Text.isDigit)
  | none => false

end Numeral

end BasicLexis
