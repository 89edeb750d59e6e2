import BasicLexis.Number.Numeral
import BasicLexis.Proofs.Number.Exact

set_option autoImplicit false

/-! # Numbers that round beyond the greatest integer

Digits are put together in integers of 128 bits. Every step is guarded but one, the rounding by the
first digit that is left out. `overflows_assemble_iff` says for which digits this step overflows:
those that fit the greatest scale have to spell the greatest of these integers, and the next one has
to be five or more. Of the numeric literals, only decimals with such digits overflow
(`real_of_overflow`). -/

namespace BasicLexis

namespace Decimal

open Text (numeral)

/-- The digits that fit the greatest scale spell the greatest integer of 128 bits, and the next
    digit rounds it up. -/
def RoundsBeyond (integral fraction : List Char) (exponent : Int) : Prop :=
  numeral 10 (integral ++ fraction.take (room exponent 0)) + 1 = workBound
    ∧ ∃ c, fraction[room exponent 0]? = some c ∧ 5 ≤ Text.hexDigitValue c

variable {integral fraction : List Char} {exponent : Int}

/-- Digits that stay within the bound as far as they fit the greatest scale are all taken. -/
theorem exists_pushFraction? (belong : ∀ c ∈ fraction, Text.isDigit c = true) (front : List Char)
    (taken : Nat) (within : numeral 10 (front ++ fraction.take (room exponent taken)) < workBound) :
    ∃ d, pushFraction? exponent fraction (numeral 10 front) taken = some d := by
  have limit : (maxScale : Int) = 28 := rfl
  induction fraction generalizing front taken with
  | nil => exact ⟨_, rfl⟩
  | cons c cs ih =>
    simp only [List.forall_mem_cons] at belong
    rw [pushFraction?]
    split
    · rw [Text.digitValue?_of_isDigit belong.1]
      exact ⟨_, rfl⟩
    · next fits =>
      have more : room exponent taken = room exponent (taken + 1) + 1 := by
        unfold room
        omega
      rw [more, List.take_succ_cons, List.append_cons] at within
      have grows := numeral_le_append (front ++ [c]) (cs.take (room exponent (taken + 1)))
      rw [push?_eq belong.1, within?_of_lt (Nat.lt_of_le_of_lt grows within)]
      exact ih belong.2 (front ++ [c]) (taken + 1) within

theorem overflows_assemble : (assemble integral fraction exponent).overflows = true
    ↔ ∃ d, digits? integral fraction exponent = some d ∧ d.overflows = true := by
  unfold assemble
  cases digits? integral fraction exponent with
  | none => simp [Assembly.overflows]
  | some d =>
    by_cases overflows : d.overflows = true
    · simp [overflows, Assembly.overflows]
    · cases value : d.toDecimal? exponent <;> simp [overflows, value, Assembly.overflows]

theorem roundsBeyond_of_overflows (h : (assemble integral fraction exponent).overflows = true) :
    RoundsBeyond integral fraction exponent := by
  obtain ⟨d, read, overflows⟩ := overflows_assemble.1 h
  obtain ⟨-, mantissa, rounds⟩ := digits_of_pushFraction? (digits?_eq_some read)
  simp only [Digits.overflows, Bool.and_eq_true, beq_iff_eq] at overflows
  exact ⟨mantissa ▸ overflows.2, rounds.1 overflows.1⟩

/-- **Rounding beyond the greatest integer.** Putting digits together overflows if and only if those
    that fit the greatest scale spell the greatest integer, and the next digit rounds it up. -/
theorem overflows_assemble_iff (belong : ∀ c ∈ integral ++ fraction, Text.isDigit c = true) :
    (assemble integral fraction exponent).overflows = true
      ↔ RoundsBeyond integral fraction exponent := by
  refine ⟨roundsBeyond_of_overflows, fun ⟨greatest, rounds⟩ => overflows_assemble.2 ?_⟩
  rw [List.forall_mem_append] at belong
  have within : numeral 10 (integral ++ fraction.take (room exponent 0)) < workBound := by omega
  obtain ⟨d, read⟩ := exists_pushFraction? belong.2 integral 0 within
  have whole : pushAll? integral 0 = within? (numeral 10 integral) :=
    pushAll?_eq belong.1 [] (by decide)
  rw [within?_of_lt (Nat.lt_of_le_of_lt (numeral_le_append _ _) within)] at whole
  obtain ⟨-, mantissa, roundUp⟩ := digits_of_pushFraction? read
  refine ⟨d, by rw [digits?, whole, Option.bind_some, read], ?_⟩
  simp only [Digits.overflows, Bool.and_eq_true, beq_iff_eq]
  exact ⟨roundUp.2 rounds, mantissa ▸ greatest⟩

end Decimal

namespace Numeral

/-- The parts are digits that round beyond the greatest integer. -/
def Parts.RoundsBeyond (p : Parts) : Prop :=
  ∃ power, p.power? = some power ∧ Decimal.RoundsBeyond p.integral p.fraction power

/-- The literal is put together from parts that overflow, or reading it does not overflow. -/
inductive Sound (start : Reader) (n : Numeral) : Prop where
  | checked (sound : n.overflow = false) : Sound start n
  | beyond (stop : Reader) (parts : Parts) (literal : n = real start stop parts .decimal)
      (rounds : parts.RoundsBeyond) : Sound start n

end Numeral

end BasicLexis
