import BasicLexis.Calendar.Pattern

set_option autoImplicit false

/-! # Reading dates and times

A date literal is tried against every layout of a fixed list, first those of a date with a time,
then those of a date, then those of a time; the first that fits gives its value. A date without a
time means midnight, a time without a date the first day of year one.

What a layout means is up to a library of dates and times, which is a parameter: `DateLibrary` names
the functions that it has to offer. Reading a date literal calls those that read a whole text in a
layout; the meaning of a layout is told by what its items read and by the fields that they find. -/

namespace BasicLexis

/-- A library of dates and times. -/
structure DateLibrary where
  /-- A date with a time. -/
  DateTime : Type
  /-- A date. -/
  Date : Type
  /-- A time of day. -/
  Time : Type
  /-- Reads a whole text as a date with a time in a layout. -/
  readDateTime? : List Char → String → Option DateTime
  /-- Reads a whole text as a date in a layout. -/
  readDate? : List Char → String → Option Date
  /-- Reads a whole text as a time in a layout. -/
  readTime? : List Char → String → Option Time
  /-- Reads one item of a layout at the start of a text, and gives what is left of it. -/
  readItem? : PatternItem → Findings → List Char → Option (Findings × List Char)
  /-- The date with a year, a month and a day of the month, if it exists. -/
  date? : Int → Nat → Nat → Option Date
  /-- The time with an hour, a minute and a second, if it exists. Second 60 is a leap second. -/
  time? : Nat → Nat → Nat → Option Time
  /-- The first time of a day. -/
  midnight : Time
  /-- A date and a time together. -/
  combine : Date → Time → DateTime
  /-- The date of a date with a time. -/
  dateOf : DateTime → Date
  /-- What stands for a date with a time that nothing is known of. -/
  unset : DateTime
  /-- The text of a date with a time. -/
  display : DateTime → String

namespace DateLibrary

/-- The layouts of a date with a time. -/
def dateTimeLayouts : List String := [
  "%m/%d/%Y %I:%M:%S %p",
  "%m/%d/%Y %I:%M %p",
  "%m/%d/%Y %I %p",
  "%m/%d/%Y %H:%M:%S",
  "%m/%d/%Y %H:%M",
  "%Y-%m-%d %H:%M:%S",
  "%Y-%m-%dT%H:%M:%S",
  "%Y-%m-%d %H:%M"]

/-- The layouts of a date. -/
def dateLayouts : List String := ["%m/%d/%Y", "%Y-%m-%d"]

/-- The layouts of a time. -/
def timeLayouts : List String := ["%I:%M:%S %p", "%I:%M %p", "%I %p", "%H:%M:%S", "%H:%M"]

variable (lib : DateLibrary)

/-- Midnight of the first day of year one: the value of a date literal that cannot be read. -/
def defaultDate : lib.DateTime :=
  ((lib.date? 1 1 1).map (lib.combine · lib.midnight)).getD lib.unset

/-- Reads the inside of a date literal; whitespace at its ends does not count. -/
def parse? (text : List Char) : Option lib.DateTime :=
  let text := Text.trim text
  dateTimeLayouts.findSome? (lib.readDateTime? text)
    <|> (dateLayouts.findSome? (lib.readDate? text)).map (lib.combine · lib.midnight)
    <|> (timeLayouts.findSome? (lib.readTime? text)).map
      (lib.combine (lib.dateOf lib.defaultDate))

end DateLibrary

end BasicLexis
