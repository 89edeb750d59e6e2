import BasicLexis.Proofs.Number.Digits

set_option autoImplicit false

/-! # Numbers in print

A number is printed with the digits that spell it, and with zeros in front of them where it has to
have a certain length. The zeros change nothing about what is spelled. -/

namespace BasicLexis.Decimal

open Text (numeral)

variable {n width : Nat} {digits : List Char} {c : Char}

theorem numeral_eq_ofDigitChars (belong : ∀ c ∈ digits, Text.isDigit c = true) :
    numeral 10 digits = Nat.ofDigitChars 10 digits 0 := by
  rw [Nat.ofDigitChars_eq_foldl]
  apply List.foldl_ext
  intro m c mem
  rw [Text.hexDigitValue, if_pos (belong c mem), Nat.mul_comm]

theorem isDigit_of_mem_padZeros (h : c ∈ padZeros width (digitsOf n)) : Text.isDigit c = true := by
  simp only [padZeros, List.mem_append, List.mem_replicate] at h
  rcases h with ⟨-, rfl⟩ | mem
  · rfl
  · exact Nat.isDigit_of_mem_toDigits (by decide) (by decide) mem

/-- A printed number spells the number. -/
theorem numeral_padZeros (width n : Nat) : numeral 10 (padZeros width (digitsOf n)) = n := by
  rw [numeral_eq_ofDigitChars fun c => isDigit_of_mem_padZeros]
  simp [padZeros, digitsOf, Nat.ofDigitChars_append]

theorem length_padZeros (width : Nat) (digits : List Char) :
    (padZeros width digits).length = max width digits.length := by
  simp only [padZeros, List.length_append, List.length_replicate]
  omega

end BasicLexis.Decimal
