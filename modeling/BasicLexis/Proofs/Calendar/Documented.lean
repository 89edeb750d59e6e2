import BasicLexis.Calendar.DateLibrary

set_option autoImplicit false

/-! # What a library of dates and times promises

`DateLibrary.Documented` has what is known of a library of dates and times: which dates and times
exist, that a text is read by a layout item by item, how items read what they are meant for, and in
which form a date with a time is displayed. No law says how a text is read that an item is not meant
for, compares two layouts or is about a displayed text that is read again. -/

namespace BasicLexis.DateLibrary

open Text (isDigit isBlank numeral)

end BasicLexis.DateLibrary
