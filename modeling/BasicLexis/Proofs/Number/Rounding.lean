import BasicLexis.Proofs.Number.Digits
import Mathlib.Algebra.Order.Round
import Mathlib.Data.Rat.Floor
import Mathlib.Tactic.FieldSimp
import Mathlib.Tactic.Linarith

set_option autoImplicit false

/-! # Rounding to the greatest scale

A number with more digits after the point than the greatest scale has room for is rounded. Of its
fraction, the digits that fit are taken and rounded by the next one; the digits after that make no
difference. If the exponent takes further digits beyond the scale, these are rounded off one by one,
the last one first.

Rounding off one by one is not rounding once: of `0.45`, the first step makes `0.5` and the second
`1`. `lower_eq` says what it is, and `mantissa_eq_round` that the result is the nearest one except
for such a carry, which needs an exponent below -28. -/

namespace BasicLexis.Decimal

/-! ## Leaving digits out one by one -/

/-- The number whose `k` digits are all one. -/
def ones : Nat → Nat
  | 0 => 0
  | k + 1 => 10 * ones k + 1

theorem nine_mul_ones (k : Nat) : 9 * ones k + 1 = 10 ^ k := by
  induction k with
  | zero => rfl
  | succ k ih =>
    rw [ones, Nat.pow_succ, ← ih]
    omega

/-- Rounding off the last digit. -/
theorem lower_succ (k n : Nat) : lower (k + 1) n = lower k ((n + 5) / 10 : Nat) := by
  have last : (n : Int).tmod 10 = (n % 10 : Nat) := (Int.ofNat_tmod n 10).symm
  have others : (n : Int).tdiv 10 = (n / 10 : Nat) := (Int.ofNat_tdiv n 10).symm
  rw [lower, last, others]
  split
  · next zero =>
    have none : (n + 5) / 10 = 0 := by omega
    rw [none]
    cases k <;> rfl
  · split
    · congr 1
      omega
    · congr 1
      omega

/-- Digits that are rounded off one by one are rounded as if fives were added to all of them. -/
theorem lower_eq (k n : Nat) : lower k n = ((n + 5 * ones k) / 10 ^ k : Nat) := by
  induction k generalizing n with
  | zero => simp [lower, ones]
  | succ k ih =>
    rw [lower_succ, ih, Nat.pow_succ, Nat.mul_comm (10 ^ k), ← Nat.div_div_eq_div_mul, ones]
    congr 2
    omega

/-- The last `k` digits of a number are more than 44…4 and less than 50…0: they start with a four, and
    after the fours comes a digit that is five or more. -/
def CarriesOver (k n : Nat) : Prop := 4 * ones k < n % 10 ^ k ∧ n % 10 ^ k < 5 * 10 ^ (k - 1)

instance (k n : Nat) : Decidable (CarriesOver k n) := inferInstanceAs (Decidable (_ ∧ _))

theorem carriesOver_succ {k n : Nat} : CarriesOver (k + 1) n
    ↔ 4 * ones (k + 1) < n % 10 ^ (k + 1) ∧ n % 10 ^ (k + 1) < 5 * 10 ^ k := Iff.rfl

/-- A part of a multiple is a carry or nothing. -/
theorem add_div_of_lt {n part whole : Nat} (h : part < whole) :
    (n + part) / whole = n / whole + if whole ≤ n % whole + part then 1 else 0 := by
  rw [Nat.add_div (Nat.zero_lt_of_lt h), Nat.div_eq_of_lt h, Nat.mod_eq_of_lt h, Nat.add_zero]

/-- Rounding off digits one by one is rounding once, unless a carry runs through all of them. -/
theorem lower_eq_round (k n : Nat) :
    lower (k + 1) n
      = ((n + 5 * 10 ^ k) / 10 ^ (k + 1) + if CarriesOver (k + 1) n then 1 else 0 : Nat) := by
  have power := nine_mul_ones (k + 1)
  have half : 10 * 10 ^ k = 10 ^ (k + 1) := by rw [Nat.pow_succ, Nat.mul_comm]
  rw [lower_eq, add_div_of_lt (by omega), add_div_of_lt (by omega), Nat.add_assoc]
  congr 2
  simp only [carriesOver_succ]
  -- both carries depend on how the digits left out compare with 44…4 and with 50…0
  generalize n % 10 ^ (k + 1) = s at *
  generalize ones (k + 1) = r at *
  generalize 10 ^ (k + 1) = p at *
  split_ifs
  all_goals omega

/-! ## Taking digits -/

open Text (numeral)

theorem isDigit_of_digitValue? {c : Char} {digit : Nat} (h : Text.digitValue? c = some digit) :
    Text.isDigit c = true ∧ digit = Text.hexDigitValue c := by
  by_cases isDigit : Text.isDigit c = true
  · rw [Text.digitValue?_of_isDigit isDigit] at h
    exact ⟨isDigit, (Option.some.inj h).symm⟩
  · rw [Text.digitValue?, if_neg isDigit] at h
    cases h

theorem push?_numeral {front : List Char} {c : Char} {m : Nat}
    (h : push? (numeral 10 front) c = some m) : m = numeral 10 (front ++ [c]) := by
  unfold push? at h
  split at h
  · next digit value =>
    split at h
    · rw [Text.numeral_append_singleton, ← (isDigit_of_digitValue? value).2]
      exact (Option.some.inj h).symm
    · cases h
  · cases h

theorem pushAll?_numeral {digits front : List Char} {m : Nat}
    (h : pushAll? digits (numeral 10 front) = some m) : m = numeral 10 (front ++ digits) := by
  induction digits generalizing front with
  | nil =>
    rw [List.append_nil]
    exact (Option.some.inj h).symm
  | cons c cs ih =>
    rw [pushAll?] at h
    split at h
    · next m' pushed =>
      rw [push?_numeral pushed] at h
      rw [ih h, List.append_assoc]
      rfl
    · cases h

/-- How many more digits of a fraction fit the greatest scale. -/
def room (exponent : Int) (taken : Nat) : Nat := (28 + exponent - taken).toNat

/-- Of a fraction, the digits that fit are taken, and the next one rounds. -/
theorem digits_of_pushFraction? {exponent : Int} {fraction front : List Char} {taken : Nat}
    {d : Digits} (h : pushFraction? exponent fraction (numeral 10 front) taken = some d) :
    d.taken = taken + (fraction.take (room exponent taken)).length
      ∧ d.mantissa = numeral 10 (front ++ fraction.take (room exponent taken))
      ∧ (d.roundUp = true
        ↔ ∃ c, fraction[room exponent taken]? = some c ∧ 5 ≤ Text.hexDigitValue c) := by
  have limit : (maxScale : Int) = 28 := rfl
  induction fraction generalizing front taken with
  | nil =>
    cases h
    simp
  | cons c cs ih =>
    rw [pushFraction?] at h
    split at h
    · next full =>
      have noRoom : room exponent taken = 0 := by
        unfold room
        omega
      obtain ⟨digit, value, rfl⟩ := Option.map_eq_some_iff.1 h
      obtain ⟨-, rfl⟩ := isDigit_of_digitValue? value
      simp [noRoom]
    · next fits =>
      have more : room exponent taken = room exponent (taken + 1) + 1 := by
        unfold room
        omega
      split at h
      · next m' pushed =>
        rw [push?_numeral pushed] at h
        obtain ⟨count, mantissa, rounds⟩ := ih h
        rw [more, List.take_succ_cons, List.length_cons, List.getElem?_cons_succ]
        refine ⟨by omega, ?_, rounds⟩
        rw [mantissa, List.append_assoc]
        rfl
      · cases h

/-- Of a fraction that is too long, the digits that fit are rounded by the next one. -/
theorem pushFraction?_of_long {exponent : Int} {fraction front : List Char} {taken : Nat}
    {d : Digits} (long : room exponent taken < fraction.length)
    (belong : ∀ c ∈ fraction, Text.isDigit c = true)
    (h : pushFraction? exponent fraction (numeral 10 front) taken = some d) :
    d.taken = taken + room exponent taken
      ∧ d.rounded = (numeral 10 (front ++ fraction.take (room exponent taken + 1)) + 5) / 10 := by
  obtain ⟨count, mantissa, rounds⟩ := digits_of_pushFraction? h
  have next := List.getElem?_eq_getElem long
  have small := Text.hexDigitValue_lt_ten (belong _ (List.getElem_mem long))
  rw [List.length_take, Nat.min_eq_left (Nat.le_of_lt long)] at count
  refine ⟨count, ?_⟩
  rw [List.take_add_one, next, Option.toList_some, ← List.append_assoc,
    Text.numeral_append_singleton]
  simp only [next, Option.some.injEq, exists_eq_left'] at rounds
  simp only [Digits.rounded, mantissa, rounds]
  split
  all_goals omega

/-! ## The number that the parts spell -/

section

variable (integral fraction : List Char) (exponent : Int)

/-- The number `integral.fraction * 10 ^ exponent`. -/
def partsValue : ℚ := numeral 10 (integral ++ fraction) * 10 ^ (exponent - fraction.length)

/-- How many digits of the number stand beyond the greatest scale. -/
def excess : Nat := (fraction.length - exponent - 28).toNat

/-- The digits of the fraction that are looked at: those that fit, and one more. -/
def looked : List Char := fraction.take (room exponent 0 + 1)

/-- Among the digits that are looked at, those beyond the greatest scale carry over although they
    are less than one half. -/
def RoundsTwice : Prop :=
  CarriesOver (excess (looked fraction exponent) exponent)
    (numeral 10 (integral ++ looked fraction exponent))

instance : Decidable (RoundsTwice integral fraction exponent) :=
  inferInstanceAs (Decidable (CarriesOver _ _))

end

variable {integral fraction : List Char} {exponent : Int} {d : Decimal}

/-- Rounding a number of digits after the point. -/
theorem round_div_pow (n k : Nat) :
    round ((n : ℚ) / 10 ^ (k + 1)) = ((n + 5 * 10 ^ k) / 10 ^ (k + 1) : Nat) := by
  have halves : (n : ℚ) / 10 ^ (k + 1) + 1 / 2
      = ((n + 5 * 10 ^ k : Nat) : ℚ) / ((10 ^ (k + 1) : Nat) : ℚ) := by
    push_cast
    field_simp
    ring
  rw [round_eq, halves, Rat.floor_natCast_div_natCast]
  rfl

/-- Digits after the first one beyond the point make no difference when a number is rounded. -/
theorem round_leaving_out (n j k : Nat) :
    (n + 5 * 10 ^ (k + j)) / 10 ^ (k + j + 1) = (n / 10 ^ j + 5 * 10 ^ k) / 10 ^ (k + 1) := by
  have positive : 0 < 10 ^ j := Nat.pow_pos (by decide)
  calc (n + 5 * 10 ^ (k + j)) / 10 ^ (k + j + 1)
      = (n + 5 * 10 ^ k * 10 ^ j) / (10 ^ j * 10 ^ (k + 1)) := by
        congr 1 <;> ring
    _ = (n + 5 * 10 ^ k * 10 ^ j) / 10 ^ j / 10 ^ (k + 1) := by rw [Nat.div_div_eq_div_mul]
    _ = (n / 10 ^ j + 5 * 10 ^ k) / 10 ^ (k + 1) := by rw [Nat.add_mul_div_right _ _ positive]

theorem eq_of_make? {m : Int} {s : Nat} (h : make? m s = some d) : d.mantissa = m ∧ d.scale = s := by
  unfold make? at h
  split at h
  · cases h
    exact ⟨rfl, rfl⟩
  · cases h

/-- A decimal is put together from digits whose rounding does not overflow. -/
theorem ofParts?_eq : ofParts? integral fraction exponent
    = (digits? integral fraction exponent).bind fun digits =>
      if digits.overflows then none else digits.toDecimal? exponent := by
  unfold ofParts? assemble
  cases digits? integral fraction exponent with
  | none => rfl
  | some digits =>
    by_cases overflows : digits.overflows = true
    · simp [overflows, Assembly.toDecimal?]
    · cases value : digits.toDecimal? exponent <;> simp [overflows, value, Assembly.toDecimal?]

theorem assemble_of_ofParts? (h : ofParts? integral fraction exponent = some d) :
    assemble integral fraction exponent = .decimal d := by
  unfold ofParts? at h
  cases number : assemble integral fraction exponent with
  | decimal value =>
    rw [number] at h
    exact congrArg _ (Option.some.inj h)
  | outOfRange | overflow _ =>
    rw [number] at h
    cases h

theorem digits?_eq_some {digits : Digits} (h : digits? integral fraction exponent = some digits) :
    pushFraction? exponent fraction (numeral 10 integral) 0 = some digits := by
  obtain ⟨whole, read, h⟩ := Option.bind_eq_some_iff.1 h
  have spelled : whole = numeral 10 ([] ++ integral) := pushAll?_numeral read
  rwa [spelled, List.nil_append] at h

/-- Digits that go beyond the greatest scale are rounded off at last. -/
theorem eq_of_ofParts? (built : ofParts? integral fraction exponent = some d) :
    ∃ digits, pushFraction? exponent fraction (numeral 10 integral) 0 = some digits
      ∧ (28 ≤ digits.taken - exponent → d.scale = 28
        ∧ d.mantissa = lower (digits.taken - exponent - 28).toNat digits.rounded) := by
  rw [ofParts?_eq] at built
  obtain ⟨digits, read, built⟩ := Option.bind_eq_some_iff.1 built
  split at built
  · cases built
  refine ⟨digits, digits?_eq_some read, fun beyond => ?_⟩
  have limit : (maxScale : Int) = 28 := rfl
  unfold Digits.toDecimal? at built
  rw [if_neg (by omega)] at built
  split at built
  · obtain ⟨mantissa, scale⟩ := eq_of_make? built
    exact ⟨scale, mantissa⟩
  · obtain ⟨mantissa, scale⟩ := eq_of_make? built
    have fits : (digits.taken : Int) - exponent = 28 := by omega
    rw [fits] at scale ⊢
    exact ⟨scale, mantissa⟩

/-- Digits beyond the greatest scale are rounded off one by one, as far as they are looked at. -/
theorem mantissa_of_ofParts? (long : 28 < fraction.length - exponent)
    (belong : ∀ c ∈ fraction, Text.isDigit c = true)
    (built : ofParts? integral fraction exponent = some d) :
    d.scale = 28 ∧ 0 < excess (looked fraction exponent) exponent
      ∧ d.mantissa = lower (excess (looked fraction exponent) exponent)
        (numeral 10 (integral ++ looked fraction exponent) : Nat) := by
  obtain ⟨digits, read, made⟩ := eq_of_ofParts? built
  cases fraction with
  | nil =>
    cases read
    have beyond : 28 < (0 : Nat) - exponent := long
    obtain ⟨scale, mantissa⟩ := made (by omega)
    have count : excess [] exponent = ((0 : Nat) - exponent - 28).toNat := rfl
    rw [looked, List.take_nil, List.append_nil, count]
    exact ⟨scale, by omega, mantissa⟩
  | cons c cs =>
    have further : room exponent 0 < (c :: cs).length := by
      unfold room
      rw [List.length_cons] at long ⊢
      omega
    obtain ⟨taken, rounded⟩ := pushFraction?_of_long further belong read
    have beyond : (28 : Int) ≤ room exponent 0 - exponent := by
      unfold room
      omega
    have count : excess (looked (c :: cs) exponent) exponent
        = (room exponent 0 - exponent - 28).toNat + 1 := by
      rw [excess, looked, List.length_take, Nat.min_eq_left further]
      omega
    rw [Nat.zero_add] at taken
    rw [taken, rounded] at made
    rw [count, lower_succ]
    obtain ⟨scale, mantissa⟩ := made beyond
    exact ⟨scale, Nat.succ_pos _, mantissa⟩

/-- The value at the greatest scale, with all its digits. -/
theorem partsValue_scaled (long : 28 < fraction.length - exponent) :
    partsValue integral fraction exponent * 10 ^ 28
      = (numeral 10 (integral ++ fraction) : ℚ) / 10 ^ excess fraction exponent := by
  have power : exponent - fraction.length = -(excess fraction exponent + 28 : Nat) := by
    unfold excess
    omega
  have ten : (10 : ℚ) ≠ 0 := by norm_num
  rw [partsValue, power, zpow_neg, zpow_natCast, pow_add]
  field_simp

/-- The digits that are looked at decide how the number is rounded. -/
theorem round_partsValue {k : Nat} (long : 28 < fraction.length - exponent)
    (digits : ∀ c ∈ fraction, Text.isDigit c = true)
    (count : excess (looked fraction exponent) exponent = k + 1) :
    round (partsValue integral fraction exponent * 10 ^ 28)
      = ((numeral 10 (integral ++ looked fraction exponent) + 5 * 10 ^ k) / 10 ^ (k + 1) : Nat) := by
  obtain ⟨rest, whole⟩ : ∃ rest, looked fraction exponent ++ rest = fraction :=
    ⟨_, List.take_append_drop _ _⟩
  have all : excess fraction exponent = k + rest.length + 1 := by
    have length := congrArg List.length whole
    rw [List.length_append] at length
    unfold excess at *
    omega
  have unseen : ∀ c ∈ rest, Text.isDigit c = true := fun c mem =>
    digits c (by rw [← whole]; exact List.mem_append_right _ mem)
  rw [partsValue_scaled long, all, round_div_pow, round_leaving_out]
  nth_rewrite 1 [← whole]
  rw [← List.append_assoc, Text.numeral_append_div _ unseen]

/-- Where no digits of the integral part are left out, one digit decides. -/
theorem lt_of_roundsTwice (h : RoundsTwice integral fraction exponent) : exponent < -28 := by
  by_contra notLow
  have one : excess (looked fraction exponent) exponent ≤ 1 := by
    unfold excess looked room
    rw [List.length_take]
    omega
  unfold RoundsTwice CarriesOver at h
  interval_cases excess (looked fraction exponent) exponent
  · simp [Nat.mod_one] at h
  · simp only [ones] at h
    omega

/-- **Rounding to the greatest scale.** A number with more digits after the point than the greatest
    scale has room for gets this scale, and is rounded to it, halves up. Only where its exponent also
    takes digits of the integral part beyond the scale, and the digits left out are less than one
    half but carry over one by one, the result is by one too large. -/
theorem mantissa_eq_round (long : 28 < fraction.length - exponent)
    (digits : ∀ c ∈ fraction, Text.isDigit c = true)
    (built : ofParts? integral fraction exponent = some d) :
    d.scale = 28
      ∧ d.mantissa = round (partsValue integral fraction exponent * 10 ^ 28)
        + (if RoundsTwice integral fraction exponent then 1 else 0)
      ∧ (RoundsTwice integral fraction exponent → exponent < -28) := by
  obtain ⟨scale, positive, mantissa⟩ := mantissa_of_ofParts? long digits built
  obtain ⟨k, count⟩ := Nat.exists_eq_add_one_of_ne_zero (Nat.ne_of_gt positive)
  have twice : RoundsTwice integral fraction exponent
      ↔ CarriesOver (k + 1) (numeral 10 (integral ++ looked fraction exponent)) := by
    rw [← count]
    exact Iff.rfl
  refine ⟨scale, ?_, lt_of_roundsTwice⟩
  rw [mantissa, count, lower_eq_round, round_partsValue long digits count]
  simp only [twice, Nat.cast_add, Nat.cast_ite, Nat.cast_one, Nat.cast_zero]

/-- `4.5E-29` is less than half of the last place at the greatest scale, but becomes one. -/
theorem mantissa_eq_round_twice :
    let d : Decimal := ⟨1, 28, by decide, by decide⟩
    ofParts? ['4'] ['5'] (-29) = some d ∧ RoundsTwice ['4'] ['5'] (-29)
      ∧ round (partsValue ['4'] ['5'] (-29) * 10 ^ 28) = 0
      ∧ d.mantissa = round (partsValue ['4'] ['5'] (-29) * 10 ^ 28) + 1 := by
  intro d
  have built : ofParts? ['4'] ['5'] (-29) = some d := by decide
  have twice : RoundsTwice ['4'] ['5'] (-29) := by decide
  obtain ⟨-, mantissa, -⟩ := mantissa_eq_round (by decide) (List.all_eq_true.1 rfl) built
  rw [if_pos twice] at mantissa
  refine ⟨built, twice, ?_, mantissa⟩
  have one : d.mantissa = 1 := rfl
  omega

end BasicLexis.Decimal
