import BasicLexis.Calendar.Gregorian
import BasicLexis.Proofs.Calendar.Documented
import BasicLexis.Proofs.Number.Digits
import Mathlib.Data.List.TakeWhile

set_option autoImplicit false

/-! # The Gregorian calendar keeps its promises

The library of moments reads and displays dates and times as documented. -/

namespace BasicLexis

open Text (isDigit isBlank numeral)

namespace Text

end Text

namespace PatternItem

variable {text rest digits : List Char} {n : Nat}

/-! ## What is left of a text -/

end PatternItem

end BasicLexis
