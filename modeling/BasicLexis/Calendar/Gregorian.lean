import BasicLexis.Calendar.DateLibrary

set_option autoImplicit false

/-! # The Gregorian calendar

A library of dates and times whose values are moments of the proleptic Gregorian calendar. -/

namespace BasicLexis

namespace PatternItem

/-- Reads a number of at most `width` digits. -/
def number? (width : Option Nat) (text : List Char) : Option (Nat × List Char) :=
  let digits := text.takeWhile Text.isDigit
  let digits := (width.map (digits.take ·)).getD digits
  if digits.isEmpty then none
  else
    let n := Text.numeral 10 digits
    if n < 0x8000000000000000 then some (n, text.drop digits.length) else none

/-- Reads a number of at most two digits between two bounds, after any whitespace. -/
def bounded? (low high : Nat) (text : List Char) : Option (Nat × List Char) := do
  let (n, rest) ← number? (some 2) (text.dropWhile Text.isBlank)
  if low ≤ n && n ≤ high then some (n, rest) else none

/-- Reads a year after any whitespace. -/
def year? (text : List Char) : Option (Int × List Char) := do
  let text := text.dropWhile Text.isBlank
  let (value, rest) ←
    match text with
    | '-' :: digits => (number? none digits).map fun (n, rest) => (-(n : Int), rest)
    | '+' :: digits => (number? none digits).map fun (n, rest) => ((n : Int), rest)
    | _ => (number? (some 4) text).map fun (n, rest) => ((n : Int), rest)
  if -0x80000000 ≤ value && value < 0x80000000 then some (value, rest) else none

/-- Reads the half of the day. -/
def halfDay? : List Char → Option (Nat × List Char)
  | c :: d :: rest =>
    if Text.lowerLetter d == 'm' then
      if Text.lowerLetter c == 'a' then some (0, rest)
      else if Text.lowerLetter c == 'p' then some (1, rest)
      else none
    else none
  | _ => none

/-- Reads one item at the start of a text. -/
def read? (item : PatternItem) (f : Findings) (text : List Char) :
    Option (Findings × List Char) :=
  match item with
  | year => (year? text).map fun (n, rest) => ({ f with year := some n }, rest)
  | number field =>
    (bounded? field.least field.greatest text).map fun (n, rest) => (f.enter n field, rest)
  | halfDay => (halfDay? text).map fun (n, rest) => ({ f with half := some n }, rest)
  | blanks => some (f, text.dropWhile Text.isBlank)
  | literal c =>
    match text with
    | first :: rest => if first = c then some (f, rest) else none
    | [] => none

end PatternItem

namespace Moment

/-- A date, if it exists. -/
def date? (year : Int) (month day : Nat) : Option (Int × Nat × Nat) :=
  if isDate year month day then some (year, month, day) else none

/-- A time of day, if it exists. -/
def time? (hour minute second : Nat) : Option (Nat × Nat × Nat) :=
  if hour < 24 && minute < 60 && second ≤ 60 then some (hour, minute, second) else none

/-- What a layout finds in a text. -/
def findings? (text : List Char) (layout : String) : Option Findings := do
  (← Pattern.ofLayout? layout.toList).findings? PatternItem.read? {} text

/-- A date and a time together. -/
def combine : Int × Nat × Nat → Nat × Nat × Nat → Moment
  | (year, month, day), (hour, minute, second) => ⟨year, month, day, hour, minute, second⟩

end Moment

/-- The library whose dates with a time are moments. -/
@[reducible]
def DateLibrary.gregorian : DateLibrary where
  DateTime := Moment
  Date := Int × Nat × Nat
  Time := Nat × Nat × Nat
  readDateTime? text layout := do
    let f ← Moment.findings? text layout
    return Moment.combine (← f.date? Moment.date?) (← f.time? Moment.time?)
  readDate? text layout := do (← Moment.findings? text layout).date? Moment.date?
  readTime? text layout := do (← Moment.findings? text layout).time? Moment.time?
  readItem? := PatternItem.read?
  date? := Moment.date?
  time? := Moment.time?
  midnight := (0, 0, 0)
  combine := Moment.combine
  dateOf m := (m.year, m.month, m.day)
  unset := ⟨1970, 1, 1, 0, 0, 0⟩
  display := Moment.render

namespace Moment

/-- The value of a date literal that cannot be read. -/
def default : Moment := DateLibrary.gregorian.defaultDate

/-- Reads the inside of a date literal. -/
def ofText? (text : List Char) : Option Moment := DateLibrary.gregorian.parse? text

end Moment

end BasicLexis
