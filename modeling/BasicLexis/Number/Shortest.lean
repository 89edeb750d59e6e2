import BasicLexis.Number.Binary

set_option autoImplicit false

/-! # The shortest decimal digits of a binary number

A binary number is written with the fewest decimal digits that read back as the same number, and of
several such digit strings with the nearest. The numbers that read back as `m * 2 ^ q` are those
between the midpoints to its two neighbours, the midpoints included when `m` is even. Where the number
lies halfway between two digit strings of the same length, a `Tie` decides.

How the digits are laid out is a separate choice: `positional` writes the point where it belongs,
however many zeros that takes, and `ExponentRange.layout` turns to an exponent for numbers that are
very large or very small. -/

namespace BasicLexis

/-- The number `digits * 10 ^ exponent`. -/
structure Scientific where
  /-- The significant digits. -/
  digits : Nat
  /-- The power of ten. -/
  exponent : Int
  deriving DecidableEq, Repr

namespace Scientific

/-- Drops the zeros at the end of the digits. One unit of `fuel` pays for one zero. -/
def dropZeros : Nat → Scientific → Scientific
  | 0, s => s
  | fuel + 1, s =>
    if s.digits ≠ 0 && s.digits % 10 == 0 then dropZeros fuel ⟨s.digits / 10, s.exponent + 1⟩
    else s

/-- The digits as text. -/
def text (s : Scientific) : List Char := Nat.toDigits 10 s.digits

end Scientific

/-- Which of two neighbouring digit strings stands for a number halfway between them. -/
inductive Tie where
  /-- The greater one. -/
  | up
  /-- The one whose last digit is even. -/
  | even
  deriving DecidableEq, Repr

/-- Compares fractions: `a / b < c / d`. -/
def fractionLt (a b c d : Nat) : Bool := a * d < c * b

/-- The interval of the fractions that read back as one number, all over the same denominator. -/
structure ReadBack where
  /-- The lower end. -/
  low : Nat
  /-- The number itself. -/
  value : Nat
  /-- The upper end. -/
  high : Nat
  /-- The common denominator. -/
  den : Nat
  /-- The ends belong to the interval. -/
  closed : Bool

namespace ReadBack

/-- The interval of the number with the given bits. Below a power of two the lower neighbour is
    only half as far away. -/
def ofBits (f : BinaryFormat) (bits : Nat) : ReadBack :=
  let (m, q) := f.decode bits
  let narrow := m == 1 <<< (f.precision - 1) && f.minExponent < q
  let (unit, den) := if q < 0 then (1, 4 <<< (-q).toNat) else (1 <<< q.toNat, 4)
  { low := (if narrow then 4 * m - 1 else 4 * m - 2) * unit
    value := 4 * m * unit
    high := (4 * m + 2) * unit
    den
    closed := m % 2 == 0 }

/-- The fraction `n / d` lies in the interval. -/
def contains (i : ReadBack) (n d : Nat) : Bool :=
  if i.closed then !fractionLt n d i.low i.den && !fractionLt i.high i.den n d
  else fractionLt i.low i.den n d && fractionLt n d i.high i.den

/-- The numerator and denominator of `digits * 10 ^ exponent`. -/
def powerOfTen (digits : Nat) (exponent : Int) : Nat × Nat :=
  if exponent < 0 then (digits, Nat.pow 10 (-exponent).toNat)
  else (digits * Nat.pow 10 exponent.toNat, 1)

/-- Raises `exponent`, at most `fuel` times, until the value is below that power of ten. -/
def raiseExponent (i : ReadBack) : Nat → Int → Int
  | 0, exponent => exponent
  | fuel + 1, exponent =>
    let (n, d) := powerOfTen 1 exponent
    if fractionLt i.value i.den n d then exponent else raiseExponent i fuel (exponent + 1)

/-- The least power of ten above the value. -/
def magnitude (i : ReadBack) : Int :=
  let bits := (Nat.log2 i.value : Int) - Nat.log2 i.den
  i.raiseExponent 5 (bits * 30103 / 100000 - 1)

/-- The multiple of `10 ^ exponent` in the interval that is nearest to the value, if there is one. -/
def nearest? (i : ReadBack) (tie : Tie) (exponent : Int) : Option Scientific :=
  let (unitNum, unitDen) := powerOfTen 1 exponent
  let below := i.value * unitDen / (i.den * unitNum)
  let within (digits : Nat) : Bool := i.contains (digits * unitNum) unitDen
  match within below, within (below + 1) with
  | false, false => none
  | true, false => some ⟨below, exponent⟩
  | false, true => some ⟨below + 1, exponent⟩
  | true, true =>
    -- Twice the value against the sum of its two neighbours.
    let sum := (2 * below + 1) * unitNum
    let belowNearer := fractionLt (2 * i.value) i.den sum unitDen
    let aboveNearer := fractionLt sum unitDen (2 * i.value) i.den
    if belowNearer || (!aboveNearer && tie = .even && below % 2 == 0) then some ⟨below, exponent⟩
    else some ⟨below + 1, exponent⟩

/-- Tries one digit more than before, `fuel` times, until some digits read back. -/
def search (i : ReadBack) (tie : Tie) (magnitude : Int) : Nat → Nat → Scientific
  | 0, _ => ⟨0, 0⟩
  | fuel + 1, count =>
    match i.nearest? tie (magnitude - count) with
    | some found => found
    | none => search i tie magnitude fuel (count + 1)

end ReadBack

/-- The shortest digits that read back as the number with the given bits. -/
def shortestDigits (f : BinaryFormat) (tie : Tie) (bits : Nat) : Scientific :=
  if bits = 0 then ⟨0, 0⟩
  else
    let interval := ReadBack.ofBits f bits
    (interval.search tie interval.magnitude 17 1).dropZeros 20

namespace Scientific

/-- `count` zeros. -/
def zeros (count : Nat) : List Char := List.replicate count '0'

/-- All digits, with the point where it belongs and no point in whole numbers. -/
def positional (s : Scientific) : List Char :=
  let digits := s.text
  if 0 ≤ s.exponent then
    if s.digits = 0 then ['0'] else digits ++ zeros s.exponent.toNat
  else
    let places := (-s.exponent).toNat
    if places < digits.length then
      digits.take (digits.length - places) ++ '.' :: digits.drop (digits.length - places)
    else '0' :: '.' :: (zeros (places - digits.length) ++ digits)

end Scientific

/-- The powers of ten for which a number is written without an exponent. -/
structure ExponentRange where
  /-- The power of ten of the first digit of the smallest such numbers. -/
  least : Int
  /-- The power of ten of the first digit of the greatest such numbers. -/
  greatest : Int

namespace ExponentRange

/-- Digits with a point after the first, and an exponent with its sign. -/
def exponential (s : Scientific) (power : Int) : List Char :=
  let mantissa :=
    match s.text with
    | first :: second :: more => first :: '.' :: second :: more
    | digits => digits
  let sign := if power < 0 then '-' else '+'
  mantissa ++ 'e' :: sign :: Nat.toDigits 10 power.natAbs

/-- Positional within the range, whole numbers with one zero after the point; with an exponent
    outside it. -/
def layout (range : ExponentRange) (s : Scientific) : List Char :=
  let power := (s.text.length : Int) - 1 + s.exponent
  if s.digits = 0 then ['0', '.', '0']
  else if range.least ≤ power && power ≤ range.greatest then
    if 0 ≤ s.exponent then s.positional ++ ['.', '0'] else s.positional
  else exponential s power

end ExponentRange

end BasicLexis
