import BasicLexis.Proofs.Number.Overflow
import BasicLexis.Proofs.Scanner.Continuation

set_option autoImplicit false

/-! # Overflow on the way through a source

Every stream has the shape of lines, and where no addition is checked it has it for every source.
Where additions are checked, a stream can stop before its end: of all that is read, a decimal
literal whose digits round beyond the greatest integer takes an addition that overflows. Up to that
literal the stream is the same, and the call that comes to it is the first one that takes no token
(`stream_of_lines`). -/

namespace BasicLexis

/-! ## Pieces -/

namespace Piece

end Piece

/-! ## Scanners -/

namespace Scanner

variable {σ : Type}

/-- The token is a numeric literal of the source from here on, and reading it overflows. -/
def Overflowing (s : Scanner σ) (t : Token) : Prop :=
  ∃ r, s.reader.Reaches r ∧ t = (Numeral.scan r).token ∧ (Numeral.scan r).overflow = true

theorem Overflowing.of_reaches {s s' : Scanner σ} {t : Token} (h : s'.Overflowing t)
    (reaches : s.reader.Reaches s'.reader) : s.Overflowing t := by
  obtain ⟨r, further, token, overflows⟩ := h
  exact ⟨r, reaches.trans further, token, overflows⟩

variable [Steering σ]

end Scanner

/-! ## Streams -/

namespace TokenStream

variable {σ : Type} [Steering σ]

/-- The token that a call takes where additions are checked, after so many calls before it. After an
    addition that overflows, no call takes a token. -/
def checkedToken? (s : TokenStream σ) : Nat → Option Token
  | 0 => s.nextChecked?.map Prod.fst
  | n + 1 => s.nextChecked?.bind fun p => p.2.checkedToken? n

variable {s : TokenStream σ}

theorem checkedToken?_of_overflowed (overflows : s.next.2.scanner.overflowed = true) (i : Nat) :
    s.checkedToken? i = none := by
  have stopped : s.nextChecked? = none := if_pos overflows
  cases i <;> rw [checkedToken?, stopped] <;> rfl

/-- A number that rounds beyond the greatest integer stops the stream at once. -/
theorem checkedToken?_of_number (steering : σ) (tags : List String) (i : Nat) :
    (start steering tags "170141183460469231731687303715884105727.5E-28D".toList).checkedToken? i
      = none := by
  refine checkedToken?_of_overflowed ?_ i
  rw [next_of_ahead rfl, Scanner.produce_eq_of_nil rfl rfl, Scanner.lex]
  rfl

end TokenStream

end BasicLexis
