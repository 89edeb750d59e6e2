import BasicLexis.Number.Decimal

set_option autoImplicit false

/-! # Binary floating-point numbers

Numbers of the two binary interchange formats, as exact arithmetic on natural numbers. A finite
non-negative number is `m * 2 ^ q` with `m` of at most `precision` bits; its bits, read as a
natural number, count the numbers of the format from zero upwards.

`BinaryFormat.round?` takes the number of the format nearest to a fraction, an exact half to the
even neighbour; reading decimal digits, dividing and multiplying all end with it. -/

namespace BasicLexis

/-- A binary interchange format. -/
structure BinaryFormat where
  /-- The number of significant bits. -/
  precision : Nat
  /-- The exponent of the last bit of the smallest numbers. -/
  minExponent : Int
  /-- The exponent of the last bit of the greatest numbers. -/
  maxExponent : Int
  deriving DecidableEq, Repr

namespace BinaryFormat

/-- Numbers of 64 bits. -/
def double : BinaryFormat := ⟨53, -1074, 971⟩

/-- Numbers of 32 bits. -/
def single : BinaryFormat := ⟨24, -149, 104⟩

/-- The quotient rounded to the nearest integer, an exact half to the even neighbour. -/
def roundHalfEven (num den : Nat) : Nat :=
  let quotient := num / den
  let twice := 2 * (num % den)
  if den < twice || (twice == den && quotient % 2 == 1) then quotient + 1 else quotient

/-- The numerator and denominator of `num / den / 2 ^ exponent`. -/
def scaleDown (num den : Nat) (exponent : Int) : Nat × Nat :=
  if exponent < 0 then (num <<< (-exponent).toNat, den) else (num, den <<< exponent.toNat)

/-- The exponent of the last bit of the numbers around `num / den`. -/
def exponentOf (f : BinaryFormat) (num den : Nat) : Int :=
  let guess := (Nat.log2 num : Int) - Nat.log2 den - f.precision
  let (n, d) := scaleDown num den guess
  max f.minExponent (if 1 <<< f.precision ≤ n / d then guess + 1 else guess)

/-- The bits of the number `m * 2 ^ q`, for `m` of at most `precision` bits. -/
def encode (f : BinaryFormat) (m : Nat) (q : Int) : Nat :=
  let half := 1 <<< (f.precision - 1)
  if m < half then m else (q - f.minExponent).toNat * half + m

/-- The number `m * 2 ^ q` with the given bits. -/
def decode (f : BinaryFormat) (bits : Nat) : Nat × Int :=
  let half := 1 <<< (f.precision - 1)
  if bits < half then (bits, f.minExponent)
  else (half + bits % half, f.minExponent + ((bits / half - 1 : Nat) : Int))

/-- The bits of the number nearest to `num / den`; `none` when it exceeds the greatest number. -/
def round? (f : BinaryFormat) (num den : Nat) : Option Nat :=
  if num = 0 then some 0
  else
    let q := f.exponentOf num den
    let (n, d) := scaleDown num den q
    let m := roundHalfEven n d
    let (m, q) := if m = 1 <<< f.precision then (m / 2, q + 1) else (m, q)
    if f.maxExponent < q then none else some (f.encode m q)

/-- A number of the format as a fraction. -/
def fraction (f : BinaryFormat) (bits : Nat) : Nat × Nat :=
  let (m, q) := f.decode bits
  if q < 0 then (m, 1 <<< (-q).toNat) else (m <<< q.toNat, 1)

/-- The number nearest to `digits * 10 ^ exponent`. Exponents far outside the format's range are
    settled without computing the power of ten. -/
def ofScientific? (f : BinaryFormat) (digits : Nat) (exponent : Int) : Option Nat :=
  if digits = 0 then some 0
  else if 400 < exponent then none
  else if exponent < -400 - (Nat.log2 digits : Int) then some 0
  else if exponent < 0 then f.round? digits (Nat.pow 10 (-exponent).toNat)
  else f.round? (digits * Nat.pow 10 exponent.toNat) 1

/-- The number nearest to the product of two numbers. -/
def mul? (f : BinaryFormat) (a b : Nat) : Option Nat :=
  let (n, d) := f.fraction a
  let (n', d') := f.fraction b
  f.round? (n * n') (d * d')

/-- The number nearest to the quotient of two numbers. -/
def div? (f : BinaryFormat) (a b : Nat) : Option Nat :=
  let (n, d) := f.fraction a
  let (n', d') := f.fraction b
  f.round? (n * d') (d * n')

/-- `result * base ^ exponent` by repeated squaring, rounding after every multiplication. One unit
    of `fuel` pays for one bit of the exponent. -/
def powerFrom? (f : BinaryFormat) : Nat → Nat → Nat → Nat → Option Nat
  | 0, _, _, result => some result
  | fuel + 1, exponent, base, result => do
    let result ← if exponent % 2 = 1 then f.mul? result base else some result
    if exponent / 2 = 0 then some result
    else f.powerFrom? fuel (exponent / 2) (← f.mul? base base) result

end BinaryFormat

/-- The number of 64 bits that a decimal stands for: its digits divided by a power of ten, each
    rounded to the format first. -/
def Decimal.toDouble (d : Decimal) : UInt64 :=
  let f := BinaryFormat.double
  let bits := do
    let digits ← f.round? d.mantissa.natAbs 1
    let power ← f.powerFrom? 8 d.scale (← f.round? 10 1) (← f.round? 1 1)
    f.div? digits power
  let magnitude := UInt64.ofNat (bits.getD 0)
  if d.mantissa < 0 then magnitude ||| 0x8000000000000000 else magnitude

end BasicLexis
