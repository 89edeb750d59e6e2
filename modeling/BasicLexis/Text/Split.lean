set_option autoImplicit false

/-! # Splitting a text -/

namespace BasicLexis.Text

/-- The parts of a text between the occurrences of `mark`. There is one more of them than of the
    occurrences. -/
abbrev split (mark : Char) (text : List Char) : List (List Char) := text.splitOn mark

end BasicLexis.Text
