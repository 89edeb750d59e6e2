import BasicLexis.Proofs.Scanner.Lockstep
import BasicLexis.Proofs.Source.Cut

set_option autoImplicit false

/-! # Numbers that stand alone

How far a number goes depends on the characters after it: a dot after the digits, a letter that
starts an exponent or names a type, a greater-than sign after a percent sign. Nevertheless its text
alone is read as the same number. An exponent without digits and a dot without a fraction do not
belong to the number, so nothing is there to be looked at when the text stands alone; and a suffix
that needs a second letter is read the same without it. -/

namespace BasicLexis

/-- The literal that is read from a place on has the text up to `stop`, and this text alone is read
    as the same literal. -/
structure StandsAlone (read : Reader → Token) (start stop : Reader) : Prop where
  reaches : start.Reaches stop
  text : (read start).text = String.ofList (start.textTo stop)
  same : ∀ {start'}, Reader.Cut stop start start' → (read start').lexeme = (read start).lexeme

namespace Numeral

open Reader

variable {stop start start' r q : Reader}

theorem integerSuffix_of_none (h : q.peek = none) : integerSuffix q = (none, q, []) := by
  simp [integerSuffix, h]

/-- A suffix of two letters, the first of which is a `U`. -/
theorem cut_unsigned {c d : Char} {type : IntegerType} (ahead : r.peek = some c)
    (letter : (c == 'U' || c == 'u') = true) (second : r.peekAt 1 = some d)
    (h : Cut r.skip.skip r q)
    (named : ∀ {u : Char}, (u = 'U' ∨ u = 'u') → q.peek = some u → q.peekAt 1 = some d →
      integerSuffix q = (some type, q.skip.skip, [])) :
    (integerSuffix q).1 = some type ∧ Cut r.skip.skip r.skip.skip (integerSuffix q).2.1 := by
  obtain ⟨here, there, after⟩ := h.lastTwo ahead second
  rw [named (by simpa using letter) here there]
  exact ⟨rfl, after⟩

/-- The suffix of an integer is all that is left of the text that is cut off after it. -/
theorem cut_integerSuffix (h : Cut (integerSuffix r).2.1 r q) :
    (integerSuffix q).1 = (integerSuffix r).1
      ∧ Cut (integerSuffix r).2.1 (integerSuffix r).2.1 (integerSuffix q).2.1 := by
  revert h
  fun_cases integerSuffix r
  all_goals intro h
  case case1 c ahead letter | case2 c ahead _ letter =>
    obtain ⟨here, there, after⟩ := h.last ahead
    simp only [Bool.or_eq_true, beq_iff_eq] at letter
    rcases letter with rfl | rfl <;> simpa [integerSuffix, here] using after
  case case3 c ahead _ _ percent =>
    obtain ⟨here, there, after⟩ := h.last ahead
    obtain ⟨rfl, -⟩ : c = '%' ∧ _ := by simpa using percent
    simpa [integerSuffix, here, there] using after
  case case4 c ahead _ _ _ letter =>
    obtain ⟨here, there, after⟩ := h.last ahead
    simp only [Bool.or_eq_true, beq_iff_eq] at letter
    rcases letter with (rfl | rfl) | rfl <;> simpa [integerSuffix, here] using after
  case case5 c ahead _ _ _ _ letter second | case6 c ahead _ _ _ _ letter second
      | case7 c ahead _ _ _ _ letter second =>
    obtain ⟨d, next, lower⟩ := Option.map_eq_some_iff.1 second
    refine cut_unsigned ahead letter next h fun mark here there => ?_
    rcases mark with rfl | rfl <;> simp [integerSuffix, here, there, lower]
  case case8 c ahead _ _ _ _ letter _ _ _ _ =>
    -- the letter alone names no type, and neither does it with what follows
    obtain ⟨here, there, after⟩ := h.last ahead
    simp only [Bool.or_eq_true, beq_iff_eq] at letter
    rcases letter with rfl | rfl <;> simpa [integerSuffix, here, there] using after
  case case9 c ahead _ _ _ _ _ =>
    rw [integerSuffix_of_none h.peek_eq_none]
    exact ⟨rfl, h⟩
  case case10 ahead =>
    rw [integerSuffix_of_none h.peek_eq_none]
    exact ⟨rfl, h⟩

/-- The place after the sign of an exponent. -/
def afterSign (r : Reader) : Reader :=
  if r.peekIs fun c => c == '+' || c == '-' then r.skip else r

theorem exponent_eq (r : Reader) :
    exponent r = if r.peekIs Decimal.isExponentMark then
      if (afterSign r.skip).peekIs Text.isDigit then
        (r.skip.textTo ((afterSign r.skip).skipWhile Text.isDigit),
          (afterSign r.skip).skipWhile Text.isDigit)
      else ([], r)
    else ([], r) := rfl

theorem exponent_of_none (h : q.peek = none) : exponent q = ([], q) := by
  simp [exponent, peekIs, h]

theorem reaches_afterSign (r : Reader) : r.Reaches (afterSign r) := by
  unfold afterSign
  split
  · exact r.reaches_skip
  · exact .refl r

theorem cut_afterSign (h : Cut stop r q) (within : (afterSign r).Reaches stop) :
    Cut stop (afterSign r) (afterSign q) := by
  unfold afterSign at *
  split at within
  · next sign =>
    rw [if_pos sign, if_pos (by rw [h.peekIs_eq fun _ => within, sign])]
    exact h.skip_of_peekIs sign within
  · next plain =>
    rw [if_neg plain, if_neg (by rw [h.peekIs_eq fun sign => absurd sign plain]; exact plain)]
    exact h

/-- A digit after a sign in the text that is cut off is there in the whole text. -/
theorem digit_afterSign (h : Cut stop r q) (digit : (afterSign q).peekIs Text.isDigit = true) :
    (afterSign r).peekIs Text.isDigit = true := by
  unfold afterSign at *
  split at digit
  · next sign =>
    obtain ⟨c, ahead, hc⟩ := (Option.any_eq_true _ _).1 sign
    obtain ⟨d, next, hd⟩ := (Option.any_eq_true _ _).1 digit
    simp [peekIs, h.peek_of_some ahead, hc, (h.skip ahead).peek_of_some next, hd]
  · obtain ⟨d, next, hd⟩ := (Option.any_eq_true _ _).1 digit
    have noSign : (d == '+' || d == '-') = false := by
      by_contra sign
      simp only [Bool.not_eq_false, Bool.or_eq_true, beq_iff_eq] at sign
      rcases sign with rfl | rfl <;> exact absurd hd (by decide)
    simp [peekIs, h.peek_of_some next, noSign, hd]

/-- An exponent is read if the text is cut off after it, and nothing is read otherwise. -/
theorem cut_exponent (h : Cut stop r q) (within : (exponent r).2.Reaches stop) :
    (exponent q).1 = (exponent r).1 ∧ Cut stop (exponent r).2 (exponent q).2 := by
  rw [exponent_eq] at within
  rw [exponent_eq r, exponent_eq q]
  split at within
  · next mark =>
    split at within
    · next digit =>
      have digits := (skip_reaches_of_peekIs digit).trans within
      have sign := (afterSign r.skip).reaches_skip.trans digits
      have letter := (reaches_afterSign r.skip).trans sign
      have afterMark := h.skip_of_peekIs mark letter
      have atDigits := cut_afterSign afterMark sign
      have end_ := atDigits.skipWhile Text.isDigit within
      rw [if_pos mark, if_pos digit, if_pos (by rw [h.peekIs_eq fun _ => letter, mark]),
        if_pos (by rw [atDigits.peekIs_eq fun _ => digits, digit])]
      refine ⟨afterMark.textTo end_ ?_ ?_, end_⟩
      · exact (reaches_afterSign _).trans (reaches_skipWhile _ _)
      · exact (reaches_afterSign _).trans (reaches_skipWhile _ _)
    · next noDigit =>
      rw [if_pos mark, if_neg noDigit]
      split
      · next mark' =>
        obtain ⟨c, ahead, -⟩ := (Option.any_eq_true _ _).1 mark'
        rw [if_neg fun digit => noDigit (digit_afterSign (h.skip ahead) digit)]
        exact ⟨rfl, h⟩
      · exact ⟨rfl, h⟩
  · next noMark =>
    rw [if_neg noMark, if_neg (by rw [h.peekIs_eq fun mark => absurd mark noMark]; exact noMark)]
    exact ⟨rfl, h⟩

theorem text_integer (start stop : Reader) (radix : Radix) (digits : List Char)
    (type : Option IntegerType) (d : List Diagnostic) :
    (integer start stop radix digits type d).token.text = String.ofList (start.textTo stop) := by
  unfold integer
  split <;> rfl

theorem text_real (start stop : Reader) (parts : Parts) (type : RealType) :
    (real start stop parts type).token.text = String.ofList (start.textTo stop) := by
  unfold real
  cases type with
  | double => rfl
  | single => rfl
  | decimal =>
    dsimp only
    split <;> rfl

/-- An integer literal is made of its digits, its type and its text. -/
theorem lexeme_integer {stop' : Reader} (text : start'.textTo stop' = start.textTo stop)
    (radix : Radix) (digits : List Char) (type : Option IntegerType) (d d' : List Diagnostic) :
    (integer start' stop' radix digits type d').token.lexeme
      = (integer start stop radix digits type d).token.lexeme := by
  unfold integer
  split <;> simp [literal, Token.lexeme, text]

theorem lexeme_real {stop' : Reader} (text : start'.textTo stop' = start.textTo stop)
    (parts : Parts) (type : RealType) :
    (real start' stop' parts type).token.lexeme = (real start stop parts type).token.lexeme := by
  unfold real
  cases type with
  | double => simp [literal, Token.lexeme, text]
  | single => simp [literal, Token.lexeme, text]
  | decimal =>
    dsimp only
    split <;> simp [literal, Token.lexeme, text]

theorem tail_eq (start r : Reader) (integral fraction : List Char) :
    tail start r integral fraction
      = match (exponent r).2.peek.bind realSuffix? with
        | some type => real start (exponent r).2.skip ⟨integral, fraction, (exponent r).1⟩ type
        | none =>
          if fraction.isEmpty && (exponent r).1.isEmpty then
            integer start (integerSuffix (exponent r).2).2.1 .decimal integral
              (integerSuffix (exponent r).2).1 (integerSuffix (exponent r).2).2.2
          else real start (exponent r).2 ⟨integral, fraction, (exponent r).1⟩ .double := rfl

/-- Exponent and suffix are the same in the text that is cut off after them. -/
theorem lexeme_tail {integral fraction : List Char}
    (first : Cut (tail start r integral fraction).rest start start')
    (h : Cut (tail start r integral fraction).rest r q) (reaches : start.Reaches r)
    (reaches' : start'.Reaches q) :
    (tail start' q integral fraction).token.lexeme
      = (tail start r integral fraction).token.lexeme := by
  have powered := reaches.trans (reaches_exponent r)
  have powered' := reaches'.trans (reaches_exponent q)
  rw [tail_eq start r] at first h ⊢
  rw [tail_eq start' q]
  cases suffix : (exponent r).2.peek.bind realSuffix? with
  | some type =>
    simp only [suffix, rest_real] at first h ⊢
    obtain ⟨power, after⟩ := cut_exponent h (reaches_skip _)
    obtain ⟨c, ahead, named⟩ := Option.bind_eq_some_iff.1 suffix
    have here := after.ahead ahead (.refl _)
    rw [here, Option.bind_some, named, power]
    exact lexeme_real (first.textTo (after.skip here) (powered.trans (reaches_skip _))
      (powered'.trans (reaches_skip _))) _ _
  | none =>
    have noSuffix {r' : Reader} (after : Cut r' (exponent r).2 (exponent q).2) :
        (exponent q).2.peek.bind realSuffix? = none := by
      cases ahead : (exponent q).2.peek with
      | none => rfl
      | some c =>
        rw [after.peek_of_some ahead] at suffix
        exact suffix
    simp only [suffix] at first h ⊢
    split at first
    · next plain =>
      simp only [plain, if_true, rest_integer] at first h ⊢
      obtain ⟨power, after⟩ := cut_exponent h (reaches_integerSuffix _)
      obtain ⟨type, end_⟩ := cut_integerSuffix after
      rw [noSuffix after, power]
      simp only [plain, if_true, type]
      exact lexeme_integer (first.textTo end_ (powered.trans (reaches_integerSuffix _))
        (powered'.trans (reaches_integerSuffix _))) _ _ _ _ _
    · next real_ =>
      simp only [if_neg real_, rest_real] at first h ⊢
      obtain ⟨power, after⟩ := cut_exponent h (.refl _)
      rw [noSuffix after, power]
      simp only [if_neg real_]
      exact lexeme_real (first.textTo after powered powered') _ _

theorem text_tail (start r : Reader) (integral fraction : List Char) :
    (tail start r integral fraction).token.text
      = String.ofList (start.textTo (tail start r integral fraction).rest) := by
  rw [tail_eq]
  split
  · rw [text_real, rest_real]
  · split
    · rw [text_integer, rest_integer]
    · rw [text_real, rest_real]

/-- Digits before a dot, or at the end of the text, are an integer. -/
theorem tail_of_plain {c? : Option Char} (ahead : r.peek = c?) (plain : c? = none ∨ c? = some '.')
    (start : Reader) (integral : List Char) :
    tail start r integral [] = integer start r .decimal integral none [] := by
  have noExponent : exponent r = ([], r) := by
    rcases plain with rfl | rfl
    · exact exponent_of_none ahead
    · simp [exponent, peekIs, ahead, Decimal.isExponentMark]
  have noSuffix : integerSuffix r = (none, r, []) := by
    rcases plain with rfl | rfl
    · exact integerSuffix_of_none ahead
    · simp [integerSuffix, ahead]
  have noReal : r.peek.bind realSuffix? = none := by
    rw [ahead]
    rcases plain with rfl | rfl <;> rfl
  rw [tail_eq, noExponent, noReal, noSuffix]
  rfl

theorem decimal_eq (start : Reader) :
    decimal start
      = let r := start.skipWhile Text.isDigit
        if r.peek = some '.' then
          if r.skip.peekIs Text.isDigit then
            tail start (r.skip.skipWhile Text.isDigit) (start.textTo r)
              (r.skip.textTo (r.skip.skipWhile Text.isDigit))
          else if !(start.textTo r).isEmpty && r.peekAt 1 != some '.' && r.peekAt 1 != some '@' then
            { integer start r .decimal (start.textTo r) none [] with
              dot := some (Token.symbol .dot r.location r.skip.location)
              rest := r.skip }
          else tail start r (start.textTo r) []
        else tail start r (start.textTo r) [] := by
  unfold decimal
  simp only [readWhile_eq, peekIs, ← peekAt_one]

/-- Digits alone. -/
theorem decimal_of_none (first : Cut stop start start')
    (h : Cut stop (start.skipWhile Text.isDigit) (start'.skipWhile Text.isDigit))
    (ended : (start'.skipWhile Text.isDigit).peek = none) :
    (decimal start').token.lexeme
      = (integer start (start.skipWhile Text.isDigit) .decimal
          (start.textTo (start.skipWhile Text.isDigit)) none []).token.lexeme := by
  have text := first.textTo h (reaches_skipWhile _ _) (reaches_skipWhile _ _)
  rw [decimal_eq]
  simp only [ended, reduceCtorEq, if_false]
  rw [tail_of_plain ended (.inl rfl), text]
  exact lexeme_integer text _ _ _ _ _

/-- A number with a fraction. -/
theorem alone_of_fraction (dotted : (start.skipWhile Text.isDigit).peek = some '.')
    (fraction : (start.skipWhile Text.isDigit).skip.peekIs Text.isDigit = true) :
    ∃ stop, StandsAlone (fun r => (decimal r).token) start stop
      ∧ (start.skipWhile Text.isDigit).skip.skip.Reaches stop := by
  have whole : decimal start = _ := decimal_eq start
  simp only [dotted, fraction, if_true] at whole
  generalize place : start.skipWhile Text.isDigit = r at *
  have digits : start.Reaches r := place ▸ reaches_skipWhile _ _
  have toStop := reaches_tail start (r.skip.skipWhile Text.isDigit) (start.textTo r)
    (r.skip.textTo (r.skip.skipWhile Text.isDigit))
  have text := text_tail start (r.skip.skipWhile Text.isDigit) (start.textTo r)
    (r.skip.textTo (r.skip.skipWhile Text.isDigit))
  rw [← whole] at toStop text
  have fromDigit := (skip_reaches_of_peekIs fraction).trans toStop
  have fromDot := r.skip.reaches_skip.trans fromDigit
  have fromDigits := r.reaches_skip.trans fromDot
  refine ⟨_, ⟨digits.trans fromDigits, text, fun {start'} first => ?_⟩, fromDigit⟩
  -- both readings go through the digits, the dot and the fraction
  have afterDigits := first.skipWhile Text.isDigit (by rw [place]; exact fromDigits)
  rw [place] at afterDigits
  have dot := afterDigits.ahead dotted fromDot
  have afterDot := afterDigits.skip dot
  have digit : (start'.skipWhile Text.isDigit).skip.peekIs Text.isDigit = true := by
    rw [afterDot.peekIs_eq fun _ => fromDigit, fraction]
  have afterFraction := afterDot.skipWhile Text.isDigit toStop
  have whole' : decimal start' = _ := decimal_eq start'
  simp only [dot, digit, if_true] at whole'
  rw [first.textTo afterDigits digits (reaches_skipWhile _ _),
    afterDot.textTo afterFraction (reaches_skipWhile _ _) (reaches_skipWhile _ _)] at whole'
  rw [whole']
  rw [whole] at first afterFraction ⊢
  exact lexeme_tail first afterFraction
    (digits.trans ((reaches_skip _).trans (reaches_skipWhile _ _)))
    ((reaches_skipWhile _ _).trans ((reaches_skip _).trans (reaches_skipWhile _ _)))

/-- Digits before a dot that belongs to something else. -/
theorem alone_of_dot (dotted : (start.skipWhile Text.isDigit).peek = some '.')
    (noFraction : ¬(start.skipWhile Text.isDigit).skip.peekIs Text.isDigit = true) :
    StandsAlone (fun r => (decimal r).token) start (start.skipWhile Text.isDigit) := by
  have whole : (decimal start).token = (integer start (start.skipWhile Text.isDigit) .decimal
      (start.textTo (start.skipWhile Text.isDigit)) none []).token := by
    rw [decimal_eq]
    simp only [dotted, if_true, if_neg noFraction]
    split
    · rfl
    · rw [tail_of_plain dotted (.inr rfl)]
  refine ⟨reaches_skipWhile _ _, by rw [whole, text_integer], fun first => ?_⟩
  have after := first.skipWhile Text.isDigit (.refl _)
  rw [whole]
  exact decimal_of_none first after after.peek_eq_none

/-- A number without a dot. -/
theorem alone_of_plain (plain : (start.skipWhile Text.isDigit).peek ≠ some '.') :
    ∃ stop, StandsAlone (fun r => (decimal r).token) start stop
      ∧ (start.skipWhile Text.isDigit).Reaches stop := by
  have whole : decimal start = _ := decimal_eq start
  simp only [if_neg plain] at whole
  generalize place : start.skipWhile Text.isDigit = r at *
  have digits : start.Reaches r := place ▸ reaches_skipWhile _ _
  have toStop := reaches_tail start r (start.textTo r) []
  have text := text_tail start r (start.textTo r) []
  rw [← whole] at toStop text
  refine ⟨_, ⟨digits.trans toStop, text, fun {start'} first => ?_⟩, toStop⟩
  have after := first.skipWhile Text.isDigit (by rw [place]; exact toStop)
  rw [place] at after
  have plain' : (start'.skipWhile Text.isDigit).peek ≠ some '.' :=
    fun dot => plain (after.peek_of_some dot)
  have whole' : decimal start' = _ := decimal_eq start'
  simp only [if_neg plain'] at whole'
  rw [first.textTo after digits (reaches_skipWhile _ _)] at whole'
  rw [whole']
  rw [whole] at first after ⊢
  exact lexeme_tail first after digits (reaches_skipWhile _ _)

/-- The base that the letter after an ampersand stands for. -/
def radixAt (r : Reader) : Radix :=
  if r.peekIs fun c => c == 'H' || c == 'h' then .hexadecimal else .octal

theorem radixInteger_eq (start r : Reader) :
    radixInteger start r
      = let stop := r.skip.skipWhile (radixAt r).isDigit
        if (r.skip.textTo stop).isEmpty then
          { token := literal start stop .literalInteger (.int32 0) (radixAt r).format
            diagnostics := [⟨start.location, .digitExpected⟩]
            rest := stop }
        else integer start (integerSuffix stop).2.1 (radixAt r) (r.skip.textTo stop)
          (integerSuffix stop).1 (integerSuffix stop).2.2 := by
  unfold radixInteger
  simp only [readWhile_eq]
  rfl

/-- Only the suffix comes after the digits. -/
theorem digits_reaches_radixInteger (start r : Reader) :
    (r.skip.skipWhile (radixAt r).isDigit).Reaches (radixInteger start r).rest := by
  rw [radixInteger_eq]
  dsimp only
  split
  · exact .refl _
  · rw [rest_integer]
    exact reaches_integerSuffix _

theorem skip_reaches_radixInteger (start r : Reader) :
    r.skip.Reaches (radixInteger start r).rest :=
  (reaches_skipWhile _ _).trans (digits_reaches_radixInteger start r)

theorem text_radixInteger (start r : Reader) :
    (radixInteger start r).token.text
      = String.ofList (start.textTo (radixInteger start r).rest) := by
  rw [radixInteger_eq]
  dsimp only
  split
  · rfl
  · rw [text_integer, rest_integer]

/-- The base, the digits and the suffix are the same in the text that is cut off after them. -/
theorem lexeme_radixInteger {c : Char} (ahead : r.peek = some c)
    (first : Cut (radixInteger start r).rest start start')
    (h : Cut (radixInteger start r).rest r q) (reaches : start.Reaches r)
    (reaches' : start'.Reaches q) :
    (radixInteger start' q).token.lexeme = (radixInteger start r).token.lexeme := by
  have toStop := digits_reaches_radixInteger start r
  have fromLetter := skip_reaches_radixInteger start r
  have radix : radixAt q = radixAt r := by
    unfold radixAt
    rw [h.peekIs_eq fun _ => fromLetter]
  have afterLetter := h.skip (h.ahead ahead fromLetter)
  have afterDigits := afterLetter.skipWhile (radixAt r).isDigit toStop
  have digits := afterLetter.textTo afterDigits (reaches_skipWhile _ _) (reaches_skipWhile _ _)
  have whole := (reaches.trans (reaches_skip _)).trans
    (reaches_skipWhile (radixAt r).isDigit r.skip)
  have whole' := (reaches'.trans (reaches_skip _)).trans
    (reaches_skipWhile (radixAt r).isDigit q.skip)
  rw [radixInteger_eq start r] at first afterDigits ⊢
  rw [radixInteger_eq start' q, radix]
  dsimp only at *
  rw [digits]
  split at first
  · next noDigits =>
    rw [if_pos noDigits] at afterDigits
    rw [if_pos noDigits, if_pos noDigits]
    have text := first.textTo afterDigits whole whole'
    simp [literal, Token.lexeme, text]
  · next someDigits =>
    rw [if_neg someDigits, rest_integer] at afterDigits
    rw [rest_integer] at first
    rw [if_neg someDigits, if_neg someDigits]
    obtain ⟨type, end_⟩ := cut_integerSuffix afterDigits
    rw [type]
    exact lexeme_integer (first.textTo end_ (whole.trans (reaches_integerSuffix _))
      (whole'.trans (reaches_integerSuffix _))) _ _ _ _ _

theorem scan_of_ne {c : Char} (ahead : r.peek = some c) (ne : c ≠ '&') : scan r = decimal r := by
  simp [scan, eat?, ahead, ne]

theorem scan_of_ampersand (ahead : r.peek = some '&') : scan r = radixInteger r r.skip := by
  simp [scan, eat?, ahead]

/-- What a numeric literal starts with. -/
theorem startsAt_iff :
    startsAt r = true ↔ r.peekIs Text.isDigit = true
      ∨ (r.peek = some '&'
        ∧ r.skip.peekIs (fun d => d == 'H' || d == 'h' || d == 'O' || d == 'o') = true)
      ∨ (r.peek = some '.' ∧ r.skip.peekIs Text.isDigit = true) := by
  unfold startsAt
  split
  · next c ahead => simp [peekIs, ahead, peekAt_one, or_assoc]
  · next ahead => simp [peekIs, ahead]

/-- A decimal literal, as any literal. -/
theorem alone_scan_of_decimal (h : StandsAlone (fun r => (decimal r).token) start stop) {c : Char}
    (ahead : start.peek = some c) (ne : c ≠ '&') (within : start.skip.Reaches stop) :
    StandsAlone (fun r => (scan r).token) start stop where
  reaches := h.reaches
  text := by
    rw [scan_of_ne ahead ne]
    exact h.text
  same first := by
    rw [scan_of_ne ahead ne, scan_of_ne (first.ahead ahead within) ne]
    exact h.same first

/-- Digits that come first, with what follows them. -/
theorem alone_decimal (digit : start.peekIs Text.isDigit = true) :
    ∃ stop, StandsAlone (fun r => (decimal r).token) start stop ∧ start.skip.Reaches stop := by
  have digits := skip_reaches_of_peekIs digit
  by_cases dotted : (start.skipWhile Text.isDigit).peek = some '.'
  · by_cases fraction : (start.skipWhile Text.isDigit).skip.peekIs Text.isDigit = true
    · obtain ⟨stop, alone, past⟩ := alone_of_fraction dotted fraction
      exact ⟨stop, alone, digits.trans ((reaches_skip _).trans ((reaches_skip _).trans past))⟩
    · exact ⟨_, alone_of_dot dotted fraction, digits⟩
  · obtain ⟨stop, alone, past⟩ := alone_of_plain dotted
    exact ⟨stop, alone, digits.trans past⟩

theorem alone_radixInteger (ampersand : start.peek = some '&') {c : Char}
    (second : start.skip.peek = some c) :
    StandsAlone (fun r => (scan r).token) start (radixInteger start start.skip).rest := by
  have within := (reaches_skip _).trans (skip_reaches_radixInteger start start.skip)
  refine ⟨start.reaches_skip.trans within, ?_, fun {start'} first => ?_⟩
  · rw [scan_of_ampersand ampersand]
    exact text_radixInteger _ _
  · have here := first.ahead ampersand within
    rw [scan_of_ampersand here, scan_of_ampersand ampersand]
    exact lexeme_radixInteger second first (first.skip here) (reaches_skip _) (reaches_skip _)

/-- A numeric literal does not depend on what follows it. -/
theorem alone_scan (starts : startsAt start = true) :
    ∃ stop, StandsAlone (fun r => (scan r).token) start stop
      ∧ ∀ {start'}, Cut stop start start' → startsAt start' = true := by
  rcases startsAt_iff.1 starts with digit | ⟨ampersand, letter⟩ | ⟨dot, digit⟩
  · obtain ⟨c, ahead, hc⟩ := (Option.any_eq_true _ _).1 digit
    have ne : c ≠ '&' := by
      rintro rfl
      exact absurd hc (by decide)
    obtain ⟨stop, alone, within⟩ := alone_decimal digit
    refine ⟨stop, alone_scan_of_decimal alone ahead ne within, fun first => ?_⟩
    refine startsAt_iff.2 (.inl ?_)
    rw [first.peekIs_eq fun _ => within, digit]
  · obtain ⟨c, second, -⟩ := (Option.any_eq_true _ _).1 letter
    have within := skip_reaches_radixInteger start start.skip
    refine ⟨_, alone_radixInteger ampersand second, fun first => ?_⟩
    have here := first.ahead ampersand ((reaches_skip _).trans within)
    refine startsAt_iff.2 (.inr (.inl ⟨here, ?_⟩))
    rw [(first.skip here).peekIs_eq fun _ => within, letter]
  · have stays : start.skipWhile Text.isDigit = start := by
      refine skipWhile_of_false ?_
      simp only [peekIs, dot]
      rfl
    have dotted : (start.skipWhile Text.isDigit).peek = some '.' := by rw [stays, dot]
    obtain ⟨stop, alone, within⟩ := alone_of_fraction dotted (by rw [stays, digit])
    rw [stays] at within
    have past := (reaches_skip _).trans within
    refine ⟨stop, alone_scan_of_decimal alone dot (by decide) past, fun first => ?_⟩
    have here := first.ahead dot past
    refine startsAt_iff.2 (.inr (.inr ⟨here, ?_⟩))
    rw [(first.skip here).peekIs_eq fun _ => within, digit]

end Numeral

end BasicLexis
