import BasicLexis.Text.Character

set_option autoImplicit false

/-! # Scaled decimal numbers

A decimal is an integer of at most 96 bits divided by a power of ten of at most 28 digits. Trailing
zeros are significant: `1.50` and `1.5` are different decimals.

`Decimal.assemble` builds a decimal from the digits before and after the point and an exponent.
Digits that do not fit the greatest scale are rounded, halves away from zero; the work is done in
signed integers of 128 bits, and a number that outgrows them on the way is refused.

One step is not guarded. The first digit that is left out may round up the greatest of these
integers. A program that checks its additions stops at this step. One that does not goes on with the
least integer: there the sign changes, digits that are dropped no longer round, and the least
integer itself passes for one in range, because it has no opposite (`Assembly.overflow`). -/

namespace BasicLexis

/-- The number `mantissa / 10 ^ scale`. -/
structure Decimal where
  /-- The digits, as a signed integer. -/
  mantissa : Int
  /-- How many of the digits stand after the point. -/
  scale : Nat
  /-- The digits fit 96 bits. -/
  mantissa_lt : mantissa.natAbs < 0x1000000000000000000000000
  /-- The scale is at most 28. -/
  scale_le : scale ≤ 28
  deriving DecidableEq, Repr

namespace Decimal

/-- The greatest scale. -/
def maxScale : Nat := 28

/-- The bound that intermediate results stay below. -/
def workBound : Nat := 0x80000000000000000000000000000000

/-- What is said of a value that is no decimal. -/
def outOfRangeMessage : String := "value is outside the range of a decimal"

/-- The decimal with the given digits and scale, if it is in range. -/
def make? (mantissa : Int) (scale : Nat) : Option Decimal :=
  if h : mantissa.natAbs < 0x1000000000000000000000000 ∧ scale ≤ 28 then
    some ⟨mantissa, scale, h.1, h.2⟩
  else none

/-- Zero, without digits after the point. -/
def zero : Decimal := ⟨0, 0, by decide, by decide⟩

instance : Inhabited Decimal := ⟨zero⟩

/-- The decimal with the opposite sign. -/
def neg (d : Decimal) : Decimal :=
  ⟨-d.mantissa, d.scale, by simpa using d.mantissa_lt, d.scale_le⟩

/-- Appends one digit, within the bound on intermediate results. -/
def push? (mantissa : Nat) (c : Char) : Option Nat :=
  match Text.digitValue? c with
  | some digit => if mantissa * 10 + digit < workBound then some (mantissa * 10 + digit) else none
  | none => none

/-- Appends the digits of a list. -/
def pushAll? : List Char → Nat → Option Nat
  | [], mantissa => some mantissa
  | c :: cs, mantissa =>
    match push? mantissa c with
    | some mantissa' => pushAll? cs mantissa'
    | none => none

/-- The digits read so far, how many of them stand after the point, and whether the first digit
    left out rounds the last one up. -/
structure Digits where
  /-- The digits as a number. -/
  mantissa : Nat
  /-- How many digits of the fraction were taken. -/
  taken : Nat
  /-- The first digit left out is five or more. -/
  roundUp : Bool

/-- Appends the digits of a fraction, as far as they fit the greatest scale. -/
def pushFraction? (exponent : Int) : List Char → Nat → Nat → Option Digits
  | [], mantissa, taken => some ⟨mantissa, taken, false⟩
  | c :: cs, mantissa, taken =>
    if (taken : Int) + 1 - exponent > maxScale then
      (Text.digitValue? c).map fun digit => ⟨mantissa, taken, 5 ≤ digit⟩
    else
      match push? mantissa c with
      | some mantissa' => pushFraction? exponent cs mantissa' (taken + 1)
      | none => none

/-- Multiplies by ten, `count` times, within the bound on intermediate results. -/
def raise? : Nat → Nat → Option Nat
  | 0, mantissa => some mantissa
  | count + 1, mantissa =>
    if mantissa = 0 then some 0
    else if mantissa * 10 < workBound then raise? count (mantissa * 10)
    else none

/-- Drops the last digit, `count` times, rounding each time. What is dropped from a negative number
    is not positive, and rounds nothing up. -/
def lower : Nat → Int → Int
  | 0, mantissa => mantissa
  | count + 1, mantissa =>
    if mantissa = 0 then 0
    else
      lower count (if 5 ≤ mantissa.tmod 10 then mantissa.tdiv 10 + 1 else mantissa.tdiv 10)

namespace Digits

/-- The digits that were taken, rounded by the first one that was left out. -/
def rounded (d : Digits) : Nat := if d.roundUp then d.mantissa + 1 else d.mantissa

/-- Rounding goes beyond the bound on intermediate results. -/
def overflows (d : Digits) : Bool := d.roundUp && d.mantissa + 1 == workBound

/-- The decimal with the given digits and exponent, if it is in range. -/
def toDecimal? (d : Digits) (exponent : Int) : Option Decimal :=
  let scale := (d.taken : Int) - exponent
  if scale < 0 then
    (raise? (-scale).toNat d.rounded).bind fun mantissa => make? mantissa 0
  else if scale > maxScale then
    make? (lower (scale - maxScale).toNat d.rounded) maxScale
  else
    make? d.rounded scale.toNat

/-- The mantissa at the greatest scale that the least integer of 128 bits gives in place of digits
    whose rounding overflows, if it passes for one in range. -/
def wrapped? (d : Digits) (exponent : Int) : Option Int :=
  let mantissa := lower ((d.taken : Int) - exponent - maxScale).toNat (-(workBound : Int))
  if mantissa.natAbs < 0x1000000000000000000000000 ∨ mantissa = -(workBound : Int) then some mantissa
  else none

end Digits

/-- What becomes of the digits of a number. -/
inductive Assembly where
  /-- They are a decimal. -/
  | decimal (value : Decimal)
  /-- The number is out of range, or outgrew the bound on the way. -/
  | outOfRange
  /-- Rounding went beyond the bound. A program that checks its additions stops; another one goes
      on, with this mantissa at the greatest scale or with a number that it takes to be out of
      range. -/
  | overflow (mantissa : Option Int)

namespace Assembly

/-- Putting the number together takes an addition that overflows. -/
def overflows : Assembly → Bool
  | overflow _ => true
  | _ => false

/-- The decimal, if there is one. -/
def toDecimal? : Assembly → Option Decimal
  | decimal value => some value
  | _ => none

end Assembly

/-- The digits of a number, as far as they fit the greatest scale. -/
def digits? (integral fraction : List Char) (exponent : Int) : Option Digits :=
  (pushAll? integral 0).bind fun whole => pushFraction? exponent fraction whole 0

/-- Puts together the number `integral.fraction * 10 ^ exponent`, both parts given by their
    digits. -/
def assemble (integral fraction : List Char) (exponent : Int) : Assembly :=
  match digits? integral fraction exponent with
  | some digits =>
    if digits.overflows then .overflow (digits.wrapped? exponent)
    else
      match digits.toDecimal? exponent with
      | some value => .decimal value
      | none => .outOfRange
  | none => .outOfRange

/-- The decimal `integral.fraction * 10 ^ exponent`, both parts given by their digits. There is none
    if the number is refused, and none if its rounding overflows. -/
def ofParts? (integral fraction : List Char) (exponent : Int) : Option Decimal :=
  (assemble integral fraction exponent).toDecimal?

end Decimal

/-- The number that a non-empty string of decimal digits spells. -/
def natOfDigits? (digits : List Char) : Option Nat :=
  if digits.isEmpty || !digits.all Text.isDigit then none else some (Text.numeral 10 digits)

/-- An integer of 32 bits with an optional sign. -/
def int32OfText? (text : List Char) : Option Int :=
  match text with
  | '-' :: digits =>
    match natOfDigits? digits with
    | some n => if n ≤ 0x80000000 then some (-(n : Int)) else none
    | none => none
  | _ =>
    let digits := if text.head? = some '+' then text.tail else text
    match natOfDigits? digits with
    | some n => if n < 0x80000000 then some (n : Int) else none
    | none => none

namespace Decimal

/-- An exponent mark. -/
def isExponentMark (c : Char) : Bool := c == 'e' || c == 'E'

/-- Reads `[-]digits[.digits][(E|e)[+|-]digits]`. -/
def ofText? (text : List Char) : Option Decimal := do
  let negative := text.head? = some '-'
  let body := if negative then text.tail else text
  let number := body.takeWhile (!isExponentMark ·)
  let exponent ←
    match body.dropWhile (!isExponentMark ·) with
    | [] => some 0
    | _ :: digits => int32OfText? digits
  let integral := number.takeWhile (· != '.')
  let fraction := (number.dropWhile (· != '.')).tail
  if integral.isEmpty && fraction.isEmpty then none
  else
    let value ← ofParts? integral fraction exponent
    return if negative then value.neg else value

/-- The decimal digits of a number. -/
def digitsOf (n : Nat) : List Char := Nat.toDigits 10 n

/-- A list of characters, filled up on the left with zeros to the given length. -/
def padZeros (width : Nat) (digits : List Char) : List Char :=
  List.replicate (width - digits.length) '0' ++ digits

/-- The number `mantissa / 10 ^ scale` with all its digits: a sign if negative, the whole part, and as
    many digits after the point as the scale says. -/
def renderScaled (mantissa : Int) (scale : Nat) : String :=
  let sign := if mantissa < 0 then "-" else ""
  let digits := padZeros (scale + 1) (digitsOf mantissa.natAbs)
  let whole := digits.take (digits.length - scale)
  let fraction := digits.drop (digits.length - scale)
  if scale = 0 then sign ++ String.ofList digits
  else sign ++ String.ofList whole ++ "." ++ String.ofList fraction

/-- A decimal with all its digits. -/
def render (d : Decimal) : String := renderScaled d.mantissa d.scale

end Decimal

end BasicLexis
