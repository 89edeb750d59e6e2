import BasicLexis.Proofs.Number.Exact
import BasicLexis.Proofs.Number.IntegerValue
import BasicLexis.Proofs.Number.Printed
import Mathlib.Data.List.TakeWhile

set_option autoImplicit false

/-! # Decimals that are read back

A decimal is printed with a digit at least before the point and with as many digits after it as its
scale says, the trailing zeros among them. Both readers of decimals, that of a text and that of a
literal in a source, split such a text at the point and put the two parts together. Nothing is left
out, so that the mantissa and the scale come back and not only the number.

What the two readers do with digits, a point and digits is stated for any digits (`ofText?_pointed`,
`scan_pointed`); that the printed digits are those of the decimal is `ofParts?_printed`. -/

namespace BasicLexis.Decimal

open Reader Numeral
open Text (numeral)

/-! ## Digits around a point -/

/-- The digits after the point, with the point if there are any. -/
def pointed : List Char → List Char
  | [] => []
  | c :: cs => '.' :: c :: cs

section Pointed

variable {integral fraction : List Char}

theorem not_point_of_isDigit {c : Char} (h : Text.isDigit c = true) :
    c ≠ '.' ∧ c ≠ '-' ∧ c ≠ '&' ∧ isExponentMark c = false := by
  have ne : ∀ d : Char, Text.isDigit d = false → c ≠ d := by
    rintro d other rfl
    rw [h] at other
    cases other
  refine ⟨ne _ rfl, ne _ rfl, ne _ rfl, ?_⟩
  simp [isExponentMark, ne 'e' rfl, ne 'E' rfl]

/-- There is no exponent in digits around a point. -/
theorem noExponent_of_mem_pointed (belong : ∀ c ∈ integral ++ fraction, Text.isDigit c = true)
    {c : Char} (mem : c ∈ integral ++ pointed fraction) : isExponentMark c = false := by
  rw [List.mem_append] at mem
  rcases mem with mem | mem
  · exact (not_point_of_isDigit (belong c (List.mem_append_left _ mem))).2.2.2
  · cases fraction with
    | nil => cases mem
    | cons d ds =>
      rcases List.mem_cons.1 mem with rfl | mem
      · rfl
      · exact (not_point_of_isDigit (belong c (List.mem_append_right _ mem))).2.2.2

/-- Digits around a point are split at the point. -/
theorem split_pointed (belong : ∀ c ∈ integral, Text.isDigit c = true) :
    (integral ++ pointed fraction).takeWhile (· != '.') = integral
      ∧ ((integral ++ pointed fraction).dropWhile (· != '.')).tail = fraction := by
  have before : ∀ c ∈ integral, (c != '.') = true := by
    intro c mem
    simpa using (not_point_of_isDigit (belong c mem)).1
  rw [List.takeWhile_append_of_pos before, List.dropWhile_append_of_pos before]
  cases fraction <;> simp [pointed]

/-- The text of an unsigned decimal without an exponent is put together from its parts. -/
theorem ofText?_pointed (nonempty : integral ≠ [])
    (belong : ∀ c ∈ integral ++ fraction, Text.isDigit c = true) (negative : Bool) :
    ofText? ((if negative then ['-'] else []) ++ (integral ++ pointed fraction))
      = (ofParts? integral fraction 0).map fun d => if negative then d.neg else d := by
  have plain : ∀ c ∈ integral ++ pointed fraction, (!isExponentMark c) = true := by
    intro c mem
    simp [noExponent_of_mem_pointed belong mem]
  have unsigned : (integral ++ pointed fraction).head? ≠ some '-' := by
    obtain ⟨c, cs, rfl⟩ := List.exists_cons_of_ne_nil nonempty
    have digit := belong c (by simp)
    simpa using (not_point_of_isDigit digit).2.1
  have digits : ∀ c ∈ integral, Text.isDigit c = true :=
    fun c mem => belong c (List.mem_append_left _ mem)
  obtain ⟨whole, rest⟩ := @split_pointed integral fraction digits
  have number := List.takeWhile_eq_self_iff.2 plain
  have noExponent := List.dropWhile_eq_nil_iff.2 plain
  generalize integral ++ pointed fraction = body at unsigned whole rest number noExponent
  cases negative with
  | false => simp [ofText?, unsigned, number, noExponent, whole, rest, nonempty]
  | true =>
    simp [ofText?, number, noExponent, whole, rest, nonempty, Option.map_eq_bind]

/-- After the digits of a decimal literal only its suffix is left. -/
theorem tail_of_suffix (start : Reader) {r : Reader} (text : r.rest = ['D']) :
    tail start r integral fraction = real start r.skip ⟨integral, fraction, []⟩ .decimal := by
  have suffix : r.peek = some 'D' := by simp [peek, text]
  have noExponent : exponent r = ([], r) := by
    simp [exponent_eq, peekIs, suffix, isExponentMark]
  simp [tail_eq, noExponent, suffix, realSuffix?]

/-- A decimal literal without an exponent is put together from its parts. -/
theorem scan_pointed (nonempty : integral ≠ [])
    (belong : ∀ c ∈ integral ++ fraction, Text.isDigit c = true) {start : Reader}
    (text : start.rest = integral ++ pointed fraction ++ ['D']) :
    ∃ stop, start.Reaches stop ∧ stop.rest = []
      ∧ scan start = real start stop ⟨integral, fraction, []⟩ .decimal := by
  rw [List.forall_mem_append] at belong
  have digit : ∃ c, start.peek = some c ∧ Text.isDigit c = true := by
    obtain ⟨c, cs, rfl⟩ := List.exists_cons_of_ne_nil nonempty
    exact ⟨c, by simp [peek, text], belong.1 c (by simp)⟩
  obtain ⟨c, ahead, isDigit⟩ := digit
  rw [scan_of_ne ahead (not_point_of_isDigit isDigit).2.2.1, decimal_eq]
  dsimp only
  have stops : ∀ c ∈ (pointed fraction ++ ['D']).head?, Text.isDigit c = false := by
    cases fraction <;> simp [pointed] <;> decide
  rw [List.append_assoc] at text
  obtain ⟨whole, rest⟩ := skipWhile_of_append text belong.1 stops
  have reaches := start.reaches_skipWhile Text.isDigit
  generalize start.skipWhile Text.isDigit = r at whole rest reaches ⊢
  cases fraction with
  | nil =>
    have noPoint : r.peek ≠ some '.' := by simp [peek, rest, pointed]
    refine ⟨r.skip, reaches.trans r.reaches_skip, by simp [rest_skip, rest, pointed], ?_⟩
    simp only [if_neg noPoint, whole]
    exact tail_of_suffix start rest
  | cons d ds =>
    have point : r.peek = some '.' := by simp [peek, rest, pointed]
    have afterPoint : r.skip.rest = (d :: ds) ++ ['D'] := by simp [rest_skip, rest, pointed]
    have digits : r.skip.peekIs Text.isDigit = true := by
      simp [peekIs, peek, afterPoint, belong.2 d (by simp)]
    obtain ⟨part, rest⟩ := skipWhile_of_append afterPoint belong.2 (by simp; decide)
    have further := (r.reaches_skip.trans (r.skip.reaches_skipWhile Text.isDigit))
    generalize r.skip.skipWhile Text.isDigit = q at part rest further ⊢
    refine ⟨q.skip, reaches.trans (further.trans q.reaches_skip), by simp [rest_skip, rest], ?_⟩
    simp only [point, digits, if_true, whole, part]
    exact tail_of_suffix start rest

end Pointed

/-! ## The printed parts -/

variable (d : Decimal)

/-- The digits of the mantissa, with a digit at least that is not after the point. -/
def printed : List Char := padZeros (d.scale + 1) (digitsOf d.mantissa.natAbs)

/-- The digits that are printed before the point. -/
def whole : List Char := d.printed.take (d.printed.length - d.scale)

/-- The digits that are printed after the point. -/
def fraction : List Char := d.printed.drop (d.printed.length - d.scale)

theorem whole_append_fraction : d.whole ++ d.fraction = d.printed := List.take_append_drop _ _

theorem scale_lt_length_printed : d.scale < d.printed.length := by
  rw [printed, length_padZeros]
  omega

theorem length_fraction : d.fraction.length = d.scale := by
  have long := d.scale_lt_length_printed
  rw [fraction, List.length_drop]
  omega

theorem whole_ne_nil : d.whole ≠ [] := by
  have long := d.scale_lt_length_printed
  intro empty
  have length := congrArg List.length empty
  rw [whole, List.length_take, List.length_nil] at length
  omega

theorem isDigit_of_mem_printed {c : Char} (h : c ∈ d.whole ++ d.fraction) :
    Text.isDigit c = true := by
  rw [whole_append_fraction] at h
  exact isDigit_of_mem_padZeros h

theorem numeral_printed : numeral 10 (d.whole ++ d.fraction) = d.mantissa.natAbs := by
  rw [whole_append_fraction, printed, numeral_padZeros]

theorem toList_render :
    d.render.toList
      = (if d.mantissa < 0 then ['-'] else []) ++ (d.whole ++ pointed d.fraction) := by
  have sign : (if d.mantissa < 0 then "-" else "" : String).toList
      = if d.mantissa < 0 then ['-'] else [] := by
    split <;> rfl
  have length := d.length_fraction
  have parts := d.whole_append_fraction
  unfold render renderScaled
  by_cases h : d.scale = 0
  · have empty : d.fraction = [] := List.length_eq_zero_iff.1 (length.trans h)
    rw [empty, List.append_nil] at parts
    simp only [if_pos h, String.toList_append, String.toList_ofList, sign, empty, pointed, parts,
      List.append_nil]
    rfl
  · have nonempty : d.fraction ≠ [] := by
      intro empty
      rw [empty] at length
      exact h length.symm
    obtain ⟨c, cs, digits⟩ := List.exists_cons_of_ne_nil nonempty
    have point : pointed d.fraction = '.' :: d.fraction := by rw [digits, pointed]
    simp only [if_neg h, String.toList_append, String.toList_ofList, sign, point, List.append_assoc]
    rfl

/-! ## Reading what was printed -/

/-- The decimal without its sign. -/
def unsigned : Decimal := if d.mantissa < 0 then d.neg else d

theorem make?_self : make? d.mantissa d.scale = some d := dif_pos ⟨d.mantissa_lt, d.scale_le⟩

theorem make?_natAbs : make? d.mantissa.natAbs d.scale = some d.unsigned := by
  unfold unsigned
  split
  · next negative =>
    have opposite : (d.mantissa.natAbs : Int) = d.neg.mantissa := by
      change (d.mantissa.natAbs : Int) = -d.mantissa
      omega
    rw [opposite]
    exact d.neg.make?_self
  · next positive =>
    have same : (d.mantissa.natAbs : Int) = d.mantissa := by omega
    rw [same]
    exact d.make?_self

/-- The printed digits are put together to the mantissa and the scale. -/
theorem ofParts?_printed : ofParts? d.whole d.fraction 0 = some d.unsigned := by
  have fits := d.scale_le
  have count := d.length_fraction
  rw [ofParts?_eq_make? (by omega) fun c => d.isDigit_of_mem_printed, numeral_printed, count]
  simpa using d.make?_natAbs

/-- **Decimals are read back.** The text that is printed for a decimal is read as this decimal, with
    the same mantissa and the same scale. If the decimal is not negative, its text with the suffix
    of a decimal literal is one literal of a source: it has this value, all of the text belongs to
    it, and nothing is reported. -/
theorem render_read_back :
    ofText? d.render.toList = some d
      ∧ (0 ≤ d.mantissa → ∀ start : Reader, start.rest = d.render.toList ++ ['D'] →
        ∃ stop : Reader, start.Reaches stop ∧ stop.rest = [] ∧ scan start =
          { token :=
              { kind := .literalDecimal, start := start.location, stop := stop.location
                text := String.ofList start.rest, value := .decimal d, format := .decimalNumber }
            dot := none, diagnostics := [], rest := stop }) := by
  have read := ofText?_pointed d.whole_ne_nil (fun c => d.isDigit_of_mem_printed)
    (decide (d.mantissa < 0))
  simp only [decide_eq_true_eq, ofParts?_printed, Option.map_some, unsigned] at read
  refine ⟨?_, fun positive start text => ?_⟩
  · rw [toList_render, read]
    split
    · simp [neg]
    · rfl
  · have noSign : ¬d.mantissa < 0 := by omega
    rw [toList_render, if_neg noSign, List.nil_append] at text
    obtain ⟨stop, reaches, done, scanned⟩ :=
      scan_pointed d.whole_ne_nil (fun c => d.isDigit_of_mem_printed) text
    have all : start.textTo stop = start.rest := reaches.textTo_eq (by rw [done, List.append_nil])
    have value : assemble d.whole d.fraction 0 = .decimal d := by
      refine assemble_of_ofParts? ?_
      rw [ofParts?_printed, unsigned, if_neg noSign]
    refine ⟨stop, reaches, done, ?_⟩
    rw [scanned]
    simp [real, Parts.power?, value, LiteralValue.ofAssembly?, Assembly.overflows, Numeral.literal,
      all]

/-- Zeros before and after the digits come back. -/
theorem render_read_back_zeros :
    let d : Decimal := ⟨50, 3, by decide, by decide⟩
    d.render = "0.050" ∧ ofText? "0.050".toList = some d
      ∧ (scan (.ofText "0.050D".toList)).token.value = .decimal d := by
  intro d
  have printed : d.render = "0.050" := by decide
  obtain ⟨text, literal⟩ := render_read_back d
  obtain ⟨stop, -, -, scanned⟩ := literal (by decide) (.ofText "0.050D".toList) (by decide)
  rw [printed] at text
  refine ⟨printed, text, ?_⟩
  rw [scanned]

end BasicLexis.Decimal
