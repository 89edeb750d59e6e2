import BasicLexis.Number.Decimal
import Mathlib.Data.Nat.Digits.Lemmas

set_option autoImplicit false

/-! # Digits and numbers

A digit string spells a number, the last digit being that of the ones. Digits that follow it move it
to the left, and add a number of fewer digits. -/

namespace BasicLexis.Text

variable {c : Char} {digits : List Char}

theorem numeral_eq_ofDigits (base : Nat) (digits : List Char) :
    numeral base digits = Nat.ofDigits base (digits.map hexDigitValue).reverse := by
  rw [Nat.ofDigits_eq_foldr, List.foldr_reverse, List.foldl_map]
  unfold numeral
  congr 1
  funext n c
  rw [Nat.cast_id, Nat.mul_comm, Nat.add_comm]

theorem numeral_append (base : Nat) (front back : List Char) :
    numeral base (front ++ back)
      = numeral base front * base ^ back.length + numeral base back := by
  simp only [numeral_eq_ofDigits, List.map_append, List.reverse_append, Nat.ofDigits_append,
    List.length_reverse, List.length_map]
  ring

theorem numeral_append_singleton (base : Nat) (front : List Char) (c : Char) :
    numeral base (front ++ [c]) = numeral base front * base + hexDigitValue c := by
  unfold numeral
  rw [List.foldl_append]
  rfl

/-- The value of a decimal digit. -/
theorem digitValue?_of_isDigit (h : isDigit c = true) : digitValue? c = some (hexDigitValue c) := by
  rw [digitValue?, if_pos h, hexDigitValue, if_pos h]

theorem hexDigitValue_lt_ten (h : isDigit c = true) : hexDigitValue c < 10 := by
  rw [hexDigitValue, if_pos h]
  simp only [isDigit, Bool.and_eq_true, decide_eq_true_eq, Char.le_def, UInt32.le_iff_toNat_le] at h
  have high : c.toNat ≤ '9'.toNat := h.2
  have nine : '9'.toNat = '0'.toNat + 9 := rfl
  omega

/-- A number is below the power of ten that its digits do not reach. -/
theorem numeral_lt_pow (belong : ∀ c ∈ digits, isDigit c = true) :
    numeral 10 digits < 10 ^ digits.length := by
  rw [numeral_eq_ofDigits]
  have below := Nat.ofDigits_lt_base_pow_length (b := 10)
    (l := (digits.map hexDigitValue).reverse) (by decide) fun n mem => by
      obtain ⟨c, inside, rfl⟩ := List.mem_map.1 (List.mem_reverse.1 mem)
      exact hexDigitValue_lt_ten (belong c inside)
  rwa [List.length_reverse, List.length_map] at below

/-- The digits in front, if those that follow are left out. -/
theorem numeral_append_div (front : List Char) {back : List Char}
    (belong : ∀ c ∈ back, isDigit c = true) :
    numeral 10 (front ++ back) / 10 ^ back.length = numeral 10 front := by
  have positive : 0 < 10 ^ back.length := Nat.pow_pos (by decide)
  rw [numeral_append, Nat.mul_comm, Nat.mul_add_div positive,
    Nat.div_eq_of_lt (numeral_lt_pow belong), Nat.add_zero]

end BasicLexis.Text
