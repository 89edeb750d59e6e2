import BasicLexis.Number.Decimal

set_option autoImplicit false

/-! # Dates and times

A moment is a day of the proleptic Gregorian calendar, in a year of either sign, and a time of that
day to the second. Second 60 stands for a leap second. -/

namespace BasicLexis

/-- A date and a time of day. -/
structure Moment where
  /-- The year; the year before year one is year zero. -/
  year : Int
  /-- The month, from one to twelve. -/
  month : Nat
  /-- The day of the month, from one. -/
  day : Nat
  /-- The hour, from zero to 23. -/
  hour : Nat
  /-- The minute, from zero to 59. -/
  minute : Nat
  /-- The second, from zero to 60. -/
  second : Nat
  deriving DecidableEq, Repr

namespace Moment

/-- A year of 366 days. -/
def isLeapYear (year : Int) : Bool := year % 4 == 0 && (year % 100 != 0 || year % 400 == 0)

/-- The number of days of a month. -/
def daysInMonth (year : Int) (month : Nat) : Nat :=
  match month with
  | 2 => if isLeapYear year then 29 else 28
  | 4 | 6 | 9 | 11 => 30
  | _ => 31

/-- The earliest year that a date may lie in. -/
def minYear : Int := -262143

/-- The latest year that a date may lie in. -/
def maxYear : Int := 262142

/-- The day exists and lies within the supported years. -/
def isDate (year : Int) (month day : Nat) : Bool :=
  minYear ≤ year && year ≤ maxYear && 1 ≤ month && month ≤ 12 && 1 ≤ day
    && day ≤ daysInMonth year month

/-- A number with two digits at least. -/
def twoDigits (n : Nat) : List Char := Decimal.padZeros 2 (Decimal.digitsOf n)

/-- A year with four digits at least; outside of four digits with its sign. -/
def yearText (year : Int) : List Char :=
  let digits := Decimal.padZeros 4 (Decimal.digitsOf year.natAbs)
  if 0 ≤ year && year ≤ 9999 then digits else (if year < 0 then '-' else '+') :: digits

/-- The date as `year-month-day`. -/
def dateText (m : Moment) : List Char :=
  yearText m.year ++ '-' :: (twoDigits m.month ++ '-' :: twoDigits m.day)

/-- The time as `hour:minute:second`. -/
def timeText (m : Moment) : List Char :=
  twoDigits m.hour ++ ':' :: (twoDigits m.minute ++ ':' :: twoDigits m.second)

/-- The date and the time with a blank between them. -/
def text (m : Moment) : List Char := m.dateText ++ ' ' :: m.timeText

/-- The date and the time with a blank between them. -/
def render (m : Moment) : String := String.ofList m.text

/-- The date and the time with the letter T between them. -/
def renderIso (m : Moment) : String := String.ofList (m.dateText ++ 'T' :: m.timeText)

end Moment

end BasicLexis
