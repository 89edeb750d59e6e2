import BasicLexis.Proofs.Number.Alone
import BasicLexis.Proofs.Number.Digits
import BasicLexis.Proofs.Source.Lines
import Mathlib.Data.List.Induction

set_option autoImplicit false

/-! # The values of integer literals

An integer literal is a prefix for its base, digits, and a suffix for its type. Its digits spell a
number, of any size and with any number of leading zeros. What the number means depends on the base:
a decimal one is a value of its type, a hexadecimal one is a bit pattern that has to fit the width
of its type, and an octal one is a bit pattern of which the type keeps the low bits.

`IntegerLiteral.meaning?` says this with numbers only. `scan_integerLiteral` states that such a
literal is read to its end and gets this type and this value, and that a literal without a meaning
is reported. -/

namespace BasicLexis

/-! ## What a literal means -/

namespace IntegerType

/-- The type has negative numbers. -/
def isSigned : IntegerType → Bool
  | short | integer | long => true
  | unsignedShort | unsignedInteger | unsignedLong => false

/-- How many natural numbers are of the type. -/
def count (t : IntegerType) : Nat := 2 ^ (if t.isSigned then t.width - 1 else t.width)

/-- The number of the type whose bits, in two's complement if the type is signed, are the low bits
    of `n`. -/
def ofBits (t : IntegerType) (n : Nat) : Int :=
  if t.isSigned then (n : Int).bmod (2 ^ t.width) else n % 2 ^ t.width

end IntegerType

/-- A letter or mark in a suffix of one character, and the type that it names. -/
def singleSuffixes : List (Char × IntegerType) :=
  [('s', .short), ('i', .integer), ('%', .integer), ('l', .long), ('&', .long)]

/-- The letter after a `U` in a suffix, and the type that it names. -/
def unsignedSuffixes : List (Char × IntegerType) :=
  [('s', .unsignedShort), ('i', .unsignedInteger), ('l', .unsignedLong)]

/-- A suffix in either case and the type that it names; without a suffix, no type is named. -/
inductive IntegerSuffix : List Char → Option IntegerType → Prop where
  | nothing : IntegerSuffix [] none
  | single {c : Char} {t : IntegerType} (letter : (Text.lowerLetter c, t) ∈ singleSuffixes) :
    IntegerSuffix [c] (some t)
  | unsigned {u c : Char} {t : IntegerType} (mark : Text.lowerLetter u = 'u')
    (letter : (Text.lowerLetter c, t) ∈ unsignedSuffixes) : IntegerSuffix [u, c] (some t)

/-- The prefix of a base, in lower case. -/
def Radix.mark : Radix → List Char
  | decimal => []
  | hexadecimal => ['&', 'h']
  | octal => ['&', 'o']

/-- The type and the value that a number has in an integer literal of a base with a type or without
    one, if it is not too large for it. -/
def Radix.meaning? : Radix → Option IntegerType → Nat → Option (IntegerType × Int)
  | decimal, some t, n => if n < t.count then some (t, n) else none
  | decimal, none, n =>
    if n < 2 ^ 31 then some (.integer, n) else if n < 2 ^ 63 then some (.long, n) else none
  | hexadecimal, some t, n => if n < 2 ^ t.width then some (t, t.ofBits n) else none
  | octal, some t, n => if n < 2 ^ 64 then some (t, t.ofBits n) else none
  | hexadecimal, none, n | octal, none, n =>
    if n < 2 ^ 32 then some (.integer, IntegerType.integer.ofBits n)
    else if n < 2 ^ 64 then some (.long, IntegerType.long.ofBits n)
    else none

/-- The type and the number of an integer value. -/
def LiteralValue.asInteger? : LiteralValue → Option (IntegerType × Int)
  | int16 x => some (.short, x.toInt)
  | uint16 x => some (.unsignedShort, x.toNat)
  | int32 x => some (.integer, x.toInt)
  | uint32 x => some (.unsignedInteger, x.toNat)
  | int64 x => some (.long, x.toInt)
  | uint64 x => some (.unsignedLong, x.toNat)
  | _ => Option.none

/-- An integer literal as it is written. -/
structure IntegerLiteral where
  radix : Radix
  type? : Option IntegerType
  mark : List Char
  digits : List Char
  suffix : List Char
  mark_spells : mark.map Text.lowerLetter = radix.mark
  digits_ne_nil : digits ≠ []
  digits_belong : ∀ c ∈ digits, radix.isDigit c = true
  suffix_names : IntegerSuffix suffix type?

namespace IntegerLiteral

/-- The text of a literal. -/
def text (l : IntegerLiteral) : List Char := l.mark ++ l.digits ++ l.suffix

/-- The number that the digits of a literal spell, the last digit being that of the ones. -/
def number (l : IntegerLiteral) : Nat :=
  Nat.ofDigits l.radix.base (l.digits.map Text.hexDigitValue).reverse

/-- The type and the value of a literal, if its number is not too large. -/
def meaning? (l : IntegerLiteral) : Option (IntegerType × Int) := l.radix.meaning? l.type? l.number

/-- What is reported if the number is too large. -/
def problem (l : IntegerLiteral) : Problem :=
  if l.radix = .decimal ∧ l.type? = none then .integerTooLong (String.ofList l.digits)
  else .numberOverflow (String.ofList l.text)

end IntegerLiteral

/-! ## Numbers of a type -/

namespace IntegerType

variable {n : Nat}

theorem count_eq_bound (t : IntegerType) : t.count = t.bound := by
  cases t <;> decide

/-- A type keeps the low bits of a number. -/
theorem asInteger?_wrap (t : IntegerType) (n : Nat) :
    (t.wrap n).asInteger? = some (t, t.ofBits n) := by
  cases t
  all_goals simp [wrap, LiteralValue.asInteger?, ofBits, isSigned, width, Int16.toInt_ofNat',
    Int32.toInt_ofNat', Int64.toInt_ofNat', Int16.size, Int32.size, Int64.size]

/-- A number of the type is its own bit pattern. -/
theorem ofBits_of_lt_count {t : IntegerType} (h : n < t.count) : t.ofBits n = n := by
  unfold count at h
  unfold ofBits
  split at h
  · next signed =>
    rw [if_pos signed]
    have wide : 2 ^ t.width = 2 * 2 ^ (t.width - 1) := by
      cases t <;> rfl
    rw [wide]
    apply Int.bmod_eq_of_le <;> omega
  · next unsigned =>
    rw [if_neg unsigned]
    exact_mod_cast Nat.mod_eq_of_lt h

end IntegerType

namespace Text

theorem toNat_ofNat_of_ascii {n : Nat} (h : n < 128) : (Char.ofNat n).toNat = n := by
  have valid : n.isValidChar := .inl (by omega)
  rw [Char.ofNat, dif_pos valid]
  rfl

/-- A letter in either case. -/
theorem eq_or_eq_of_lowerLetter {c d : Char} (h : lowerLetter c = d) :
    c = d ∨ 97 ≤ d.toNat ∧ c = Char.ofNat (d.toNat - 32) := by
  unfold lowerLetter at h
  split at h
  · next letter =>
    right
    simp only [Bool.and_eq_true, decide_eq_true_eq, Char.le_def, UInt32.le_iff_toNat_le] at letter
    have low : 65 ≤ c.toNat := letter.1
    have high : c.toNat ≤ 90 := letter.2
    have shifted : d.toNat = c.toNat + 32 := by rw [← h, toNat_ofNat_of_ascii (by omega)]
    refine ⟨by omega, ?_⟩
    rw [shifted, Nat.add_sub_cancel, Char.ofNat_toNat]
  · exact .inl h

end Text

namespace Reader

variable {r : Reader}

/-- A run of characters is the first part of the text that belongs to it. -/
theorem skipWhile_of_append {p : Char → Bool} {run rest : List Char} (text : r.rest = run ++ rest)
    (belongs : ∀ c ∈ run, p c = true) (stops : ∀ c ∈ rest.head?, p c = false) :
    r.textTo (r.skipWhile p) = run ∧ (r.skipWhile p).rest = rest := by
  have ended : rest.takeWhile p = [] := by
    cases rest with
    | nil => rfl
    | cons c cs => simp [stops c rfl]
  have front : r.textTo (r.skipWhile p) = run := by
    calc r.textTo (r.skipWhile p) = r.rest.takeWhile p := r.textTo_skipWhile p
      _ = run := by rw [text, List.takeWhile_append_of_pos belongs, ended, List.append_nil]
  have back : run ++ (r.skipWhile p).rest = run ++ rest := by
    calc run ++ (r.skipWhile p).rest = r.textTo (r.skipWhile p) ++ (r.skipWhile p).rest := by
          rw [front]
      _ = run ++ rest := by rw [(reaches_skipWhile p r).textTo_append, text]
  exact ⟨front, List.append_cancel_left back⟩

end Reader

/-! ## Suffixes -/

namespace IntegerSuffix

open Reader Numeral

variable {suffix : List Char} {type? : Option IntegerType}

/-- What a suffix can start with. -/
def marks : List Char := ['S', 's', 'U', 'u', 'I', 'i', '%', 'L', 'l', '&']

theorem head_mem_marks (h : IntegerSuffix suffix type?) : ∀ c ∈ suffix.head?, c ∈ marks := by
  intro c first
  cases h with
  | nothing => cases first
  | single letter =>
    cases first
    simp only [singleSuffixes, List.mem_cons, List.not_mem_nil, or_false, Prod.mk.injEq] at letter
    rcases letter with ⟨lower, -⟩ | ⟨lower, -⟩ | ⟨lower, -⟩ | ⟨lower, -⟩ | ⟨lower, -⟩
    all_goals rcases Text.eq_or_eq_of_lowerLetter lower with rfl | ⟨low, rfl⟩
    all_goals first
      | decide
      | exact absurd low (by decide)
  | unsigned mark _ =>
    cases first
    rcases Text.eq_or_eq_of_lowerLetter mark with rfl | ⟨-, rfl⟩
    all_goals decide

/-- A suffix goes on neither the digits nor the number in another way. -/
theorem ends_number : ∀ c ∈ marks, (∀ radix : Radix, radix.isDigit c = false) ∧ c ≠ '.'
    ∧ Decimal.isExponentMark c = false ∧ realSuffix? c = none := by
  have listed : marks.all fun c => decide (Text.isDigit c = false ∧ Text.isHexDigit c = false
      ∧ Text.isOctalDigit c = false ∧ c ≠ '.' ∧ Decimal.isExponentMark c = false
      ∧ realSuffix? c = none) := by decide
  rw [List.all_eq_true] at listed
  intro c mem
  obtain ⟨decimal, hexadecimal, octal, rest⟩ := of_decide_eq_true (listed c mem)
  refine ⟨fun radix => ?_, rest⟩
  cases radix
  · exact decimal
  · exact hexadecimal
  · exact octal

/-- A suffix is read to its end, and names its type. -/
theorem integerSuffix_eq (h : IntegerSuffix suffix type?) {r : Reader} (text : r.rest = suffix) :
    ∃ stop, integerSuffix r = (type?, stop, []) ∧ stop.rest = [] := by
  cases h with
  | nothing => exact ⟨r, integerSuffix_of_none (by rw [peek, text]; rfl), text⟩
  | single letter =>
    refine ⟨r.skip, ?_, by rw [rest_skip, text]; rfl⟩
    simp only [singleSuffixes, List.mem_cons, List.not_mem_nil, or_false, Prod.mk.injEq] at letter
    rcases letter with ⟨lower, rfl⟩ | ⟨lower, rfl⟩ | ⟨lower, rfl⟩ | ⟨lower, rfl⟩ | ⟨lower, rfl⟩
    all_goals rcases Text.eq_or_eq_of_lowerLetter lower with rfl | ⟨low, rfl⟩
    all_goals first
      | exact absurd low (by decide)
      | simp [integerSuffix, peek, peekAt, text]
  | unsigned mark letter =>
    refine ⟨r.skip.skip, ?_, by rw [rest_skip, rest_skip, text]; rfl⟩
    simp only [unsignedSuffixes, List.mem_cons, List.not_mem_nil, or_false, Prod.mk.injEq] at letter
    rcases letter with ⟨lower, rfl⟩ | ⟨lower, rfl⟩ | ⟨lower, rfl⟩
    all_goals rcases Text.eq_or_eq_of_lowerLetter mark with rfl | ⟨-, rfl⟩
    all_goals simp [integerSuffix, peek, peekAt, text, lower]

end IntegerSuffix

namespace IntegerLiteral

open Reader Numeral

variable {start stop r : Reader}

/-! ## Values -/

theorem natOfDigits?_of_digits {digits : List Char} (ne : digits ≠ [])
    (belong : ∀ c ∈ digits, Text.isDigit c = true) :
    natOfDigits? digits = some (Text.numeral 10 digits) := by
  have nonempty : digits.isEmpty = false := by simpa using ne
  have all : digits.all Text.isDigit = true := by simpa using belong
  simp [natOfDigits?, nonempty, all]

theorem asInteger?_wrap_of_lt {t : IntegerType} {n : Nat} (fits : n < t.count) :
    (t.wrap n).asInteger? = some (t, ↑n) := by
  rw [t.asInteger?_wrap, IntegerType.ofBits_of_lt_count fits]

/-- The value of digits that spell the number `n` in a decimal literal. -/
theorem asInteger?_decimal {digits : List Char} {n : Nat} (spelled : natOfDigits? digits = some n)
    (type? : Option IntegerType) :
    (integerValue? .decimal digits type?).map LiteralValue.asInteger?
      = (Radix.decimal.meaning? type? n).map some := by
  cases type? with
  | some t =>
    simp only [integerValue?, spelled, Radix.meaning?, ← t.count_eq_bound]
    split
    · next fits => exact congrArg some (asInteger?_wrap_of_lt fits)
    · rfl
  | none =>
    have narrow : IntegerType.integer.bound = 2 ^ 31 := by norm_num [IntegerType.bound]
    have wide : IntegerType.long.bound = 2 ^ 63 := by norm_num [IntegerType.bound]
    simp only [integerValue?, plainInteger?, spelled, Radix.meaning?, narrow, wide]
    split
    · next fits => exact congrArg some (asInteger?_wrap_of_lt (t := .integer) fits)
    · split
      · next fits => exact congrArg some (asInteger?_wrap_of_lt (t := .long) fits)
      · rfl

/-- Octal digits are appended one by one, and the number outgrows 64 bits on the way exactly if it
    does in the end: with each digit it only grows. -/
theorem octal?_eq {digits : List Char} (belong : ∀ c ∈ digits, Text.isOctalDigit c = true) :
    let n := Text.numeral Radix.octal.base digits
    octal? digits = if n < IntegerType.unsignedLong.bound then some n else none := by
  induction digits using List.reverseRecOn with
  | nil => rfl
  | append_singleton front c ih =>
    obtain ⟨front_, last⟩ := List.forall_mem_append.1 belong
    have octal : Text.isOctalDigit c = true := last c (List.mem_singleton_self c)
    have base : Radix.octal.base = 8 := rfl
    have before : octal? (front ++ [c]) = (octal? front).bind (pushOctal? · c) := by
      simp [octal?]
    rw [before, ih front_, Text.numeral_append_singleton]
    simp only [pushOctal?, octal, Bool.true_and, Bool.and_eq_true, decide_eq_true_eq]
    generalize Text.numeral Radix.octal.base front = n
    generalize IntegerType.unsignedLong.bound = bound
    rw [base]
    by_cases fits : n * 8 + Text.hexDigitValue c < bound
    · rw [if_pos (by omega), Option.bind_some, if_pos ⟨by omega, fits⟩, if_pos fits]
    · rw [if_neg fits]
      by_cases fitsBefore : n < bound
      · rw [if_pos fitsBefore, Option.bind_some, if_neg fun both => fits both.2]
      · rw [if_neg fitsBefore, Option.bind_none]

/-- A bit pattern without a suffix is 32 bits wide, or 64 bits if need be. -/
theorem asInteger?_plainBits (n : Nat) :
    (if n < IntegerType.unsignedLong.bound then some (plainBits n) else none).map
        LiteralValue.asInteger?
      = (Radix.hexadecimal.meaning? none n).map some := by
  have narrow : IntegerType.unsignedInteger.bound = 2 ^ 32 := by norm_num [IntegerType.bound]
  have wide : IntegerType.unsignedLong.bound = 2 ^ 64 := by norm_num [IntegerType.bound]
  simp only [plainBits, Radix.meaning?, narrow, wide]
  by_cases short : n < 2 ^ 32
  · have long : n < 2 ^ 64 := Nat.lt_trans short (by norm_num)
    rw [if_pos short, if_pos short, if_pos long]
    exact congrArg some (IntegerType.integer.asInteger?_wrap n)
  · rw [if_neg short, if_neg short]
    split
    · exact congrArg some (IntegerType.long.asInteger?_wrap n)
    · rfl

/-- The value that is made of the digits is what they mean in the literal. -/
theorem asInteger?_integerValue? {radix : Radix} {digits : List Char} (ne : digits ≠ [])
    (belong : ∀ c ∈ digits, radix.isDigit c = true) (type? : Option IntegerType) :
    (integerValue? radix digits type?).map LiteralValue.asInteger?
      = (radix.meaning? type? (Text.numeral radix.base digits)).map some := by
  cases radix with
  | decimal => exact asInteger?_decimal (natOfDigits?_of_digits ne belong) type?
  | hexadecimal =>
    cases type? with
    | none => exact asInteger?_plainBits _
    | some t =>
      simp only [integerValue?, Radix.meaning?, Nat.one_shiftLeft]
      split
      · exact congrArg some (t.asInteger?_wrap _)
      · rfl
  | octal =>
    have number := octal?_eq belong
    cases type? with
    | none =>
      have bits := asInteger?_plainBits (Text.numeral Radix.octal.base digits)
      simp only [integerValue?, number]
      split
      · next fits => rwa [if_pos fits] at bits
      · next tooLarge => rwa [if_neg tooLarge] at bits
    | some t =>
      have wide : IntegerType.unsignedLong.bound = 2 ^ 64 := by norm_num [IntegerType.bound]
      simp only [integerValue?, number, Radix.meaning?, wide]
      split
      · exact congrArg some (t.asInteger?_wrap _)
      · rfl

/-- How a literal is read from a place on: to the end of its text, as what it means, or with a
    report if it means nothing. -/
structure ReadAs (l : IntegerLiteral) (start : Reader) (n : Numeral) : Prop where
  reaches : start.Reaches n.rest
  consumed : n.rest.rest = []
  noDot : n.dot = none
  kind : n.token.kind = .literalInteger
  text : n.token.text = String.ofList l.text
  place : n.token.start = start.location ∧ n.token.stop = n.rest.location
  value : ∀ m, l.meaning? = some m →
    n.token.value.asInteger? = some m ∧ n.token.format = l.radix.format ∧ n.diagnostics = []
  overflow : l.meaning? = none → n.token.value = .int32 0 ∧ n.token.format = .none
    ∧ n.diagnostics = [⟨start.location, l.problem⟩]

/-! ## Reading a literal -/

/-- An integer literal is made of what was read to the end of its text. -/
theorem readAs_integer {l : IntegerLiteral} (text : start.rest = l.text)
    (reaches : start.Reaches stop) (ended : stop.rest = []) :
    l.ReadAs start (integer start stop l.radix l.digits l.type? []) := by
  have whole : start.textTo stop = l.text := by
    have append := reaches.textTo_append
    rwa [ended, List.append_nil, text] at append
  have meaning := asInteger?_integerValue? l.digits_ne_nil l.digits_belong l.type?
  rw [Text.numeral_eq_ofDigits] at meaning
  change _ = l.meaning?.map some at meaning
  unfold integer
  cases value : integerValue? l.radix l.digits l.type? with
  | some v =>
    rw [value] at meaning
    refine ⟨reaches, ended, rfl, rfl, congrArg String.ofList whole, ⟨rfl, rfl⟩, fun m hm => ?_,
      fun tooLarge => ?_⟩
    · rw [hm] at meaning
      exact ⟨Option.some.inj meaning, rfl, rfl⟩
    · rw [tooLarge] at meaning
      cases meaning
  | none =>
    rw [value] at meaning
    refine ⟨reaches, ended, rfl, rfl, congrArg String.ofList whole, ⟨rfl, rfl⟩, fun m hm => ?_,
      fun _ => ⟨rfl, rfl, ?_⟩⟩
    · rw [hm] at meaning
      cases meaning
    · simp only [problem, whole, List.nil_append]

/-- After the digits, the suffix is read to the end of the text. -/
theorem exists_end_of_suffix (l : IntegerLiteral) (text : r.rest = l.digits ++ l.suffix) :
    ∃ stop, r.textTo (r.skipWhile l.radix.isDigit) = l.digits
      ∧ (r.skipWhile l.radix.isDigit).rest = l.suffix
      ∧ integerSuffix (r.skipWhile l.radix.isDigit) = (l.type?, stop, [])
      ∧ r.Reaches stop ∧ stop.rest = [] := by
  have stops : ∀ c ∈ l.suffix.head?, l.radix.isDigit c = false := fun c first =>
    (IntegerSuffix.ends_number c (l.suffix_names.head_mem_marks c first)).1 l.radix
  obtain ⟨digits, rest⟩ := skipWhile_of_append text l.digits_belong stops
  obtain ⟨stop, suffix, ended⟩ := l.suffix_names.integerSuffix_eq rest
  have further := reaches_integerSuffix (r.skipWhile l.radix.isDigit)
  rw [suffix] at further
  exact ⟨stop, digits, rest, suffix, (reaches_skipWhile _ _).trans further, ended⟩

/-- A decimal literal is its digits and a suffix: no dot, exponent or floating suffix follows. -/
theorem readAs_decimal {l : IntegerLiteral} (radix : l.radix = .decimal)
    (text : start.rest = l.digits ++ l.suffix) (whole : start.rest = l.text) :
    l.ReadAs start (decimal start) := by
  have spelled := decimal_eq start
  obtain ⟨stop, digits, rest, suffix, reaches, ended⟩ := exists_end_of_suffix l text
  have made := readAs_integer whole reaches ended
  rw [radix] at digits rest suffix made
  change start.textTo (start.skipWhile Text.isDigit) = l.digits at digits
  change (start.skipWhile Text.isDigit).rest = l.suffix at rest
  change integerSuffix (start.skipWhile Text.isDigit) = _ at suffix
  have ends : ∀ c, (start.skipWhile Text.isDigit).peek = some c → c ≠ '.'
      ∧ Decimal.isExponentMark c = false ∧ realSuffix? c = none := by
    intro c ahead
    rw [peek, rest] at ahead
    exact (IntegerSuffix.ends_number c (l.suffix_names.head_mem_marks c ahead)).2
  generalize start.skipWhile Text.isDigit = r at spelled digits rest suffix ends
  have noDot : r.peek ≠ some '.' := fun ahead => (ends '.' ahead).1 rfl
  have noExponent : exponent r = ([], r) := by
    have noMark : r.peekIs Decimal.isExponentMark = false := by
      cases ahead : r.peek with
      | none => simp [peekIs, ahead]
      | some c => simp [peekIs, ahead, (ends c ahead).2.1]
    rw [exponent_eq, noMark]
    rfl
  have noReal : r.peek.bind realSuffix? = none := by
    cases ahead : r.peek with
    | none => rfl
    | some c => exact (ends c ahead).2.2
  rw [spelled]
  simp only [if_neg noDot, tail_eq, noExponent, noReal, digits, suffix]
  exact made

/-- A literal with a prefix is the prefix, its digits and a suffix. -/
theorem readAs_of_mark {l : IntegerLiteral} {letter : Char} (mark : l.mark = ['&', letter])
    (radix : l.radix = if letter == 'H' || letter == 'h' then .hexadecimal else .octal)
    (whole : start.rest = l.text) : l.ReadAs start (scan start) := by
  have spelled : start.rest = '&' :: letter :: (l.digits ++ l.suffix) := by
    rw [whole, IntegerLiteral.text, mark]
    rfl
  have first : start.peek = some '&' := by rw [peek, spelled]; rfl
  have second : start.skip.peek = some letter := by rw [peek, rest_skip, spelled]; rfl
  have text : start.skip.skip.rest = l.digits ++ l.suffix := by
    rw [rest_skip, rest_skip, spelled]
    rfl
  have base : radixAt start.skip = l.radix := by
    rw [radix, radixAt, peekIs, second]
    rfl
  obtain ⟨stop, digits, -, suffix, reaches, ended⟩ := exists_end_of_suffix l text
  have nonempty : l.digits.isEmpty = false := by simpa using l.digits_ne_nil
  have further := (start.reaches_skip.trans start.skip.reaches_skip).trans reaches
  rw [scan_of_ampersand first, radixInteger_eq]
  simp only [base, digits, nonempty, suffix, Bool.false_eq_true, if_false]
  exact readAs_integer whole further ended

/-- A prefix of two characters is an ampersand and a letter in either case. -/
theorem exists_letter_of_mark {mark : List Char} {lower : Char}
    (spells : mark.map Text.lowerLetter = ['&', lower]) :
    ∃ letter, mark = ['&', letter]
      ∧ (letter = lower ∨ letter = Char.ofNat (lower.toNat - 32)) := by
  obtain ⟨ampersand, letters, rfl, first, rest⟩ := List.map_eq_cons_iff.1 spells
  obtain ⟨letter, others, rfl, second, nothing⟩ := List.map_eq_cons_iff.1 rest
  obtain rfl := List.map_eq_nil_iff.1 nothing
  obtain rfl : ampersand = '&' := by
    rcases Text.eq_or_eq_of_lowerLetter first with same | ⟨low, -⟩
    · exact same
    · exact absurd low (by decide)
  refine ⟨letter, rfl, ?_⟩
  rcases Text.eq_or_eq_of_lowerLetter second with same | ⟨-, upper⟩
  · exact .inl same
  · exact .inr upper

/-- **The values of integer literals.** An integer literal of any base, with any digits and with any
    suffix or none, is read to its end. It gets the type and the value that it means; if its number
    is too large for it, it is reported once and becomes zero. -/
theorem scan_integerLiteral (l : IntegerLiteral) {start : Reader} (text : start.rest = l.text) :
    l.ReadAs start (scan start) := by
  have whole : l.mark ++ (l.digits ++ l.suffix) = start.rest := by
    rw [text, IntegerLiteral.text, List.append_assoc]
  have spells := l.mark_spells
  cases radix : l.radix with
  | decimal =>
    rw [radix] at spells
    have noMark : l.mark = [] := List.map_eq_nil_iff.1 spells
    rw [noMark, List.nil_append] at whole
    obtain ⟨d, ds, digits⟩ := List.exists_cons_of_ne_nil l.digits_ne_nil
    have digit : Text.isDigit d = true := by
      have belong := l.digits_belong d (by rw [digits]; exact List.mem_cons_self)
      rwa [radix] at belong
    have ahead : start.peek = some d := by rw [peek, ← whole, digits]; rfl
    rw [scan_of_ne ahead (by rintro rfl; exact absurd digit (by decide))]
    exact readAs_decimal radix whole.symm text
  | hexadecimal =>
    rw [radix] at spells
    obtain ⟨letter, mark, rfl | rfl⟩ := exists_letter_of_mark spells
    · exact readAs_of_mark mark radix text
    · exact readAs_of_mark mark radix text
  | octal =>
    rw [radix] at spells
    obtain ⟨letter, mark, rfl | rfl⟩ := exists_letter_of_mark spells
    · exact readAs_of_mark mark radix text
    · exact readAs_of_mark mark radix text

/-- A bit pattern with leading zeros that is negative as a `Short`, and a decimal number that no
    `Short` is. -/
theorem scan_integerLiteral_short :
    let bits : IntegerLiteral :=
      { radix := .hexadecimal, type? := some .short, mark := ['&', 'h']
        digits := ['0', '0', 'F', 'f', 'F', 'E'], suffix := ['s'], mark_spells := by decide
        digits_ne_nil := by decide, digits_belong := List.all_eq_true.1 rfl
        suffix_names := .single (by decide) }
    let large : IntegerLiteral :=
      { radix := .decimal, type? := some .short, mark := [], digits := ['3', '2', '7', '6', '8']
        suffix := ['S'], mark_spells := rfl, digits_ne_nil := by decide
        digits_belong := List.all_eq_true.1 rfl, suffix_names := .single (by decide) }
    (bits.ReadAs (.ofText bits.text) (scan (.ofText bits.text))
      ∧ (scan (.ofText bits.text)).token.value.asInteger? = some (.short, -2))
    ∧ large.ReadAs (.ofText large.text) (scan (.ofText large.text))
      ∧ (scan (.ofText large.text)).diagnostics = [⟨.start, .numberOverflow "32768S"⟩] := by
  intro bits large
  have read : bits.ReadAs (.ofText bits.text) _ := scan_integerLiteral bits rfl
  have reported : large.ReadAs (.ofText large.text) _ := scan_integerLiteral large rfl
  exact ⟨⟨read, (read.value (.short, -2) (by decide)).1⟩, reported,
    (reported.overflow (by decide)).2.2⟩

end IntegerLiteral

end BasicLexis
