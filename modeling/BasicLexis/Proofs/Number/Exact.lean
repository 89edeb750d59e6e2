import BasicLexis.Proofs.Number.Rounding

set_option autoImplicit false

/-! # Numbers that are kept exactly

A number with no more digits after the point than the greatest scale has room for loses none of
them. It is built digit by digit and then multiplied by ten as often as its exponent says, in
integers that are bounded on the way: a number that outgrows them is refused before it is complete.

`ofParts?_eq_make?` says that this bound is never what counts. Neither a further digit nor a further
factor makes a number smaller, so what is refused on the way would be refused at the end, and what
is not refused on the way is what the digits spell. -/

namespace BasicLexis.Decimal

open Text (numeral)

/-! ## The bound on intermediate results -/

/-- A number that does not outgrow the integers in which it is built. -/
def within? (n : Nat) : Option Nat := if n < workBound then some n else none

theorem within?_of_lt {n : Nat} (h : n < workBound) : within? n = some n := if_pos h

theorem within?_of_le {n : Nat} (h : workBound ≤ n) : within? n = none := if_neg (Nat.not_lt.2 h)

/-- To go on with a number that may have outgrown the bound, it is enough to go on with it while it
    has not, and to refuse it afterwards. -/
theorem within?_bind {α : Type} {n : Nat} {f : Nat → Option α} {r : Option α}
    (within : n < workBound → f n = r) (outgrown : workBound ≤ n → r = none) :
    (within? n).bind f = r := by
  by_cases h : n < workBound
  · rw [within?_of_lt h, Option.bind_some, within h]
  · rw [within?_of_le (Nat.not_lt.1 h), Option.bind_none, outgrown (Nat.not_lt.1 h)]

theorem numeral_le_append (front back : List Char) :
    numeral 10 front ≤ numeral 10 (front ++ back) := by
  rw [Text.numeral_append]
  have positive : 0 < 10 ^ back.length := Nat.pow_pos (by decide)
  calc numeral 10 front ≤ numeral 10 front * 10 ^ back.length := Nat.le_mul_of_pos_right _ positive
    _ ≤ _ := Nat.le_add_right _ _

/-! ## Digits and factors -/

/-- Appending one digit to what was spelled so far. -/
theorem push?_eq {c : Char} (digit : Text.isDigit c = true) (front : List Char) :
    push? (numeral 10 front) c = within? (numeral 10 (front ++ [c])) := by
  simp [push?, Text.digitValue?_of_isDigit digit, within?, Text.numeral_append_singleton]

/-- Appending all digits of the integral part. -/
theorem pushAll?_eq {digits : List Char} (belong : ∀ c ∈ digits, Text.isDigit c = true)
    (front : List Char) (within : numeral 10 front < workBound) :
    pushAll? digits (numeral 10 front) = within? (numeral 10 (front ++ digits)) := by
  induction digits generalizing front with
  | nil => simp [pushAll?, within?_of_lt within]
  | cons c cs ih =>
    simp only [List.forall_mem_cons] at belong
    have step : pushAll? (c :: cs) (numeral 10 front)
        = (push? (numeral 10 front) c).bind (pushAll? cs) := by
      rw [pushAll?]
      cases push? (numeral 10 front) c <;> rfl
    have grows := numeral_le_append (front ++ [c]) cs
    rw [step, push?_eq belong.1, List.append_cons front c cs]
    exact within?_bind (ih belong.2 _) fun outgrown => within?_of_le (outgrown.trans grows)

/-- Of a fraction that fits the greatest scale, all digits are appended. -/
theorem pushFraction?_eq {exponent : Int} {fraction : List Char}
    (belong : ∀ c ∈ fraction, Text.isDigit c = true) (front : List Char) (taken : Nat)
    (fits : taken + fraction.length - exponent ≤ 28) (within : numeral 10 front < workBound) :
    pushFraction? exponent fraction (numeral 10 front) taken
      = (within? (numeral 10 (front ++ fraction))).map
        fun m => ⟨m, taken + fraction.length, false⟩ := by
  induction fraction generalizing front taken with
  | nil => simp [pushFraction?, within?_of_lt within]
  | cons c cs ih =>
    simp only [List.forall_mem_cons] at belong
    simp only [List.length_cons, Nat.cast_add, Nat.cast_one] at fits
    have limit : (maxScale : Int) = 28 := rfl
    have step : pushFraction? exponent (c :: cs) (numeral 10 front) taken
        = (push? (numeral 10 front) c).bind
          fun m => pushFraction? exponent cs m (taken + 1) := by
      rw [pushFraction?, if_neg (by omega)]
      cases push? (numeral 10 front) c <;> rfl
    have count : taken + 1 + cs.length = taken + (c :: cs).length := by
      rw [List.length_cons]
      omega
    have grows := numeral_le_append (front ++ [c]) cs
    rw [step, push?_eq belong.1, List.append_cons front c cs, ← count]
    refine within?_bind (ih belong.2 _ (taken + 1) (by omega)) fun outgrown => ?_
    rw [within?_of_le (outgrown.trans grows), Option.map_none]

/-- Multiplying by a power of ten, one factor after the other. -/
theorem raise?_eq (k : Nat) {n : Nat} (within : n < workBound) :
    raise? k n = within? (n * 10 ^ k) := by
  induction k generalizing n with
  | zero => simp [raise?, within?_of_lt within]
  | succ k ih =>
    by_cases zero : n = 0
    · simp [zero, raise?, within?, workBound]
    · have step : raise? (k + 1) n = (within? (n * 10)).bind (raise? k) := by
        rw [raise?, if_neg zero]
        unfold within?
        split <;> rfl
      have power : n * 10 ^ (k + 1) = n * 10 * 10 ^ k := by ring
      have grows : n * 10 ≤ n * 10 * 10 ^ k := Nat.le_mul_of_pos_right _ (Nat.pow_pos (by decide))
      rw [step, power]
      exact within?_bind ih fun outgrown => within?_of_le (outgrown.trans grows)

/-! ## The decimal that the parts spell -/

theorem make?_of_le {n scale : Nat} (h : workBound ≤ n) : make? n scale = none := by
  have large : ¬(n : Int).natAbs < 0x1000000000000000000000000 := by
    unfold workBound at h
    omega
  exact dif_neg fun fits => large fits.1

variable {integral fraction : List Char} {exponent : Int}

/-- Parts that fit the greatest scale are put together without loss. Only the mantissa that they
    spell decides whether they are in range. -/
theorem ofParts?_eq_make? (fits : fraction.length - exponent ≤ 28)
    (digits : ∀ c ∈ integral ++ fraction, Text.isDigit c = true) :
    ofParts? integral fraction exponent
      = make? (numeral 10 (integral ++ fraction) * 10 ^ (exponent - fraction.length).toNat : Nat)
        (fraction.length - exponent).toNat := by
  simp only [List.forall_mem_append] at digits
  have limit : (maxScale : Int) = 28 := rfl
  have whole : pushAll? integral 0 = within? (numeral 10 integral) :=
    pushAll?_eq digits.1 [] (by decide)
  have power : 0 < 10 ^ (exponent - fraction.length).toNat := Nat.pow_pos (by decide)
  have grows := numeral_le_append integral fraction
  have raised := Nat.le_mul_of_pos_right (numeral 10 (integral ++ fraction)) power
  rw [ofParts?_eq, digits?, whole, Option.bind_assoc]
  refine within?_bind (fun within => ?_) fun outgrown =>
    make?_of_le (outgrown.trans (grows.trans raised))
  rw [pushFraction?_eq digits.2 integral 0 (by omega) within, Option.bind_map]
  refine within?_bind (fun within => ?_) fun outgrown => make?_of_le (outgrown.trans raised)
  simp only [Function.comp_apply, Digits.overflows, Digits.toDecimal?, Digits.rounded, Nat.zero_add,
    Bool.false_and, Bool.false_eq_true, if_false]
  by_cases beyond : (fraction.length : Int) - exponent < 0
  · have scale : ((fraction.length : Int) - exponent).toNat = 0 := by omega
    rw [if_pos beyond, raise?_eq _ within, neg_sub, scale]
    exact within?_bind (fun _ => rfl) make?_of_le
  · have noPower : (exponent - fraction.length).toNat = 0 := by omega
    rw [if_neg beyond, if_neg (by omega), noPower, Nat.pow_zero, Nat.mul_one]

theorem isSome_make?_iff {n scale : Nat} (low : scale ≤ 28) :
    (make? n scale).isSome = true ↔ n ≤ 2 ^ 96 - 1 := by
  unfold make?
  split
  · next fits => simp; omega
  · next large => simp; omega

/-- A power of ten is a factor or a divisor. -/
theorem zpow_eq_div (i : Int) : (10 : ℚ) ^ i = 10 ^ i.toNat / 10 ^ (-i).toNat := by
  obtain ⟨n, rfl | rfl⟩ := i.eq_nat_or_neg
  · simp
  · simp [zpow_neg]

/-- **Numbers that are kept exactly.** Digits before and after the point and an exponent that leave
    no more digits after the point than the greatest scale has room for are a decimal if and only if
    the mantissa that they spell has 96 bits. The decimal then has this mantissa and the scale that
    the exponent leaves, and is the number that the parts spell. -/
theorem exact_of_fits (fits : fraction.length - exponent ≤ 28)
    (digits : ∀ c ∈ integral ++ fraction, Text.isDigit c = true) :
    let m := numeral 10 (integral ++ fraction) * 10 ^ (exponent - fraction.length).toNat
    ((ofParts? integral fraction exponent).isSome = true ↔ m ≤ 2 ^ 96 - 1)
      ∧ ∀ d, ofParts? integral fraction exponent = some d →
        d.mantissa = m ∧ d.scale = (fraction.length - exponent).toNat
          ∧ (d.mantissa : ℚ) / 10 ^ d.scale = partsValue integral fraction exponent := by
  intro m
  rw [ofParts?_eq_make? fits digits]
  refine ⟨isSome_make?_iff (by omega), fun d made => ?_⟩
  obtain ⟨mantissa, scale⟩ := eq_of_make? made
  refine ⟨mantissa, scale, ?_⟩
  have divisor :
      ((fraction.length : Int) - exponent).toNat = (-(exponent - fraction.length)).toNat := by
    rw [neg_sub]
  rw [mantissa, scale, partsValue, zpow_eq_div, divisor]
  push_cast
  ring

/-- With leading zeros and an exponent, the greatest mantissa is kept and the next one is refused.
-/
theorem exact_of_fits_greatest :
    let whole := "00079228162514264337593543950".toList
    (∃ d, ofParts? whole ['3', '3', '5'] 2 = some d
        ∧ d.mantissa = 79228162514264337593543950335 ∧ d.scale = 1)
      ∧ ofParts? whole ['3', '3', '6'] 2 = none := by
  intro whole
  obtain ⟨kept, value⟩ :=
    @exact_of_fits whole ['3', '3', '5'] 2 (by decide) (List.all_eq_true.1 (by decide))
  obtain ⟨refused, -⟩ :=
    @exact_of_fits whole ['3', '3', '6'] 2 (by decide) (List.all_eq_true.1 (by decide))
  refine ⟨?_, ?_⟩
  · obtain ⟨d, made⟩ := Option.isSome_iff_exists.1 (kept.2 (by decide))
    obtain ⟨mantissa, scale, -⟩ := value d made
    exact ⟨d, made, mantissa.trans (by decide), scale⟩
  · rw [← Option.not_isSome_iff_eq_none, refused]
    decide

end BasicLexis.Decimal
