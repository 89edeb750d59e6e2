import BasicLexis.Calendar.Moment

set_option autoImplicit false

/-! # Layouts of dates and times

A layout is a text in which a percent sign and a letter stand for a field. It is taken apart into a
pattern, a list of fields and separators, and a text is read by a pattern one item after the other.
How a library of dates and times reads one item is left open here. -/

namespace BasicLexis

/-- A field that is a number of one or two digits. -/
inductive DateField where
  /-- The month. -/
  | month
  /-- The day of the month. -/
  | day
  /-- The hour from zero to 23. -/
  | hour
  /-- The hour from one to twelve. -/
  | halfDayHour
  /-- The minute. -/
  | minute
  /-- The second; it may be 60. -/
  | second
  deriving DecidableEq, Repr

namespace DateField

/-- The least number that a field allows. -/
def least : DateField → Nat
  | month | day | halfDayHour => 1
  | hour | minute | second => 0

/-- The greatest number that a field allows. -/
def greatest : DateField → Nat
  | month | halfDayHour => 12
  | day => 31
  | hour => 23
  | minute => 59
  | second => 60

end DateField

/-- One part of a pattern. -/
inductive PatternItem where
  /-- The year: up to four digits, or a sign and any number of digits. -/
  | year
  /-- A field that is a number of one or two digits. -/
  | number (field : DateField)
  /-- The half of the day: `AM` or `PM` in any case. -/
  | halfDay
  /-- Any amount of whitespace, also none. -/
  | blanks
  /-- A fixed character. -/
  | literal (c : Char)
  deriving DecidableEq, Repr

/-- The item that a letter stands for after a percent sign. -/
def PatternItem.ofLetter? : Char → Option PatternItem
  | 'Y' => some .year
  | 'm' => some (.number .month)
  | 'd' => some (.number .day)
  | 'H' => some (.number .hour)
  | 'I' => some (.number .halfDayHour)
  | 'M' => some (.number .minute)
  | 'S' => some (.number .second)
  | 'p' => some .halfDay
  | _ => none

/-- What a pattern has found so far. -/
structure Findings where
  /-- The year. -/
  year : Option Int := none
  /-- The month. -/
  month : Option Nat := none
  /-- The day of the month. -/
  day : Option Nat := none
  /-- The half of the day: zero before noon, one after. -/
  half : Option Nat := none
  /-- The hour within its half of the day, from zero. -/
  hour : Option Nat := none
  /-- The minute. -/
  minute : Option Nat := none
  /-- The second. -/
  second : Option Nat := none
  deriving DecidableEq, Repr

namespace Findings

/-- Notes the number that was found for a field. -/
def enter (f : Findings) (n : Nat) : DateField → Findings
  | .month => { f with month := some n }
  | .day => { f with day := some n }
  | .hour => { f with half := some (n / 12), hour := some (n % 12) }
  | .halfDayHour => { f with hour := some (n % 12) }
  | .minute => { f with minute := some n }
  | .second => { f with second := some n }

/-- The date that was found, if it is complete and exists. -/
def date? {Date : Type} (exists? : Int → Nat → Nat → Option Date) (f : Findings) : Option Date := do
  exists? (← f.year) (← f.month) (← f.day)

/-- The time that was found, if hour and minute are known and it exists. -/
def time? {Time : Type} (exists? : Nat → Nat → Nat → Option Time) (f : Findings) : Option Time := do
  exists? ((← f.half) * 12 + (← f.hour)) (← f.minute) (f.second.getD 0)

end Findings

/-- A layout, taken apart. -/
abbrev Pattern := List PatternItem

namespace Pattern

/-- Takes a layout apart. Whitespace stands for any whitespace, and what is no field for itself. -/
def ofLayout? : List Char → Option Pattern
  | [] => some []
  | '%' :: letter :: layout => do
    let item ← PatternItem.ofLetter? letter
    return item :: (← ofLayout? layout)
  | c :: layout => do
    let item ← if c == '%' then none else if Text.isBlank c then some .blanks else some (.literal c)
    return item :: (← ofLayout? layout)

/-- What a pattern finds in a whole text, item by item, given how an item is read at the start of a
    text. -/
def findings? (readItem? : PatternItem → Findings → List Char → Option (Findings × List Char)) :
    Pattern → Findings → List Char → Option Findings
  | [], f, text => if text.isEmpty then some f else none
  | item :: items, f, text =>
    match readItem? item f text with
    | some (f', rest) => findings? readItem? items f' rest
    | none => none

end Pattern

end BasicLexis
