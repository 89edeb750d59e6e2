import BasicLexis.Proofs.Number.Alone
import BasicLexis.Proofs.Piece.Compared

set_option autoImplicit false

/-! # Numbers at twins

A number has neither line ends nor blanks in it, so that it is read in the same way at two places
that are twins. What comes after it decides how far it goes, but a line end decides the same as any
other, and so does a blank. -/

namespace BasicLexis.Numeral

open Reader

variable {K : Comparison} {start start' r r' stop stop' : Reader}

/-- The two numbers are the same as far as they are compared, and lead to twins. -/
structure Matches (K : Comparison) (n n' : Numeral) : Prop where
  rest : Twin K n.rest n'.rest
  token : K.token n'.token = K.token n.token
  dot : n'.dot.map K.token = n.dot.map K.token
  diagnostics : n'.diagnostics.map K.problem = n.diagnostics.map K.problem

theorem token_literal (h : Same K start start' stop stop') (kind : TokenKind) (value : LiteralValue)
    (format : LiteralFormat) :
    K.token (literal start' stop' kind value format)
      = K.token (literal start stop kind value format) :=
  Comparison.token_eq rfl h.first.place h.last.place
    (fun _ => congrArg String.ofList h.text) (fun _ => rfl) rfl

theorem matches_integer (h : Same K start start' stop stop') (radix : Radix) (digits : List Char)
    (type : Option IntegerType) {ds ds' : List Diagnostic}
    (same : ds'.map K.problem = ds.map K.problem) :
    Matches K (integer start stop radix digits type ds)
      (integer start' stop' radix digits type ds') := by
  unfold integer
  cases integerValue? radix digits type with
  | some value => exact ⟨h.last, token_literal h _ _ _, rfl, same⟩
  | none =>
    refine ⟨h.last, token_literal h _ _ _, rfl, ?_⟩
    by_cases plain : radix = .decimal ∧ type = none <;>
      simp [plain, same, Comparison.problem, Diagnostic.code, Problem.code, h.first.place]

theorem matches_real (h : Same K start start' stop stop') (parts : Parts) (type : RealType) :
    Matches K (real start stop parts type) (real start' stop' parts type) := by
  have result (value? : Option LiteralValue) :
      (if value?.isSome then [] else [⟨start'.location, .numberOverflow parts.text⟩]).map K.problem
        = (if value?.isSome then []
            else [(⟨start.location, .numberOverflow parts.text⟩ : Diagnostic)]).map K.problem := by
    split
    · rfl
    · simp [Comparison.problem, Diagnostic.code, h.first.place]
  unfold real
  cases type with
  | double => exact ⟨h.last, token_literal h _ _ _, rfl, result _⟩
  | single => exact ⟨h.last, token_literal h _ _ _, rfl, result _⟩
  | decimal =>
    dsimp only
    split
    · exact ⟨h.last, token_literal h _ _ _, rfl, result _⟩
    · refine ⟨h.last, token_literal h _ _ _, rfl, ?_⟩
      simp [Comparison.problem, Diagnostic.code, h.first.place]

/-! ## Suffixes and exponents -/

/-- The two suffixes name the same type, and the same is wrong with them. -/
structure SameSuffix (K : Comparison) (r r' : Reader)
    (a a' : Option IntegerType × Reader × List Diagnostic) : Prop where
  type : a'.1 = a.1
  same : Same K r r' a.2.1 a'.2.1
  diagnostics : a'.2.2.map K.problem = a.2.2.map K.problem

/-- The type that the second letter of a suffix names after a `U`. -/
def unsignedType? (c : Char) : Option IntegerType :=
  match Text.lowerLetter c with
  | 's' => some .unsignedShort
  | 'i' => some .unsignedInteger
  | 'l' => some .unsignedLong
  | _ => none

theorem integerSuffix_unsigned {c : Char} (ahead : r.peek = some c) (letter : c = 'U' ∨ c = 'u') :
    integerSuffix r
      = match r.skip.peek.bind unsignedType? with
        | some type => (some type, r.skip.skip, [])
        | none => (none, r.skip,
            [⟨r.location, .invalidTypeCharacter (String.ofList ('U' :: r.skip.peek.toList))⟩]) := by
  have unsigned : (c == 'U' || c == 'u') = true := by rcases letter with rfl | rfl <;> rfl
  have short : ¬(c == 'S' || c == 's') = true := by rcases letter with rfl | rfl <;> decide
  have integer : ¬(c == 'I' || c == 'i') = true := by rcases letter with rfl | rfl <;> decide
  have percent : ¬(c == '%' && r.skip.peek != some '>') = true := by
    rcases letter with rfl | rfl <;> simp
  have long : ¬(c == 'L' || c == 'l' || c == '&') = true := by
    rcases letter with rfl | rfl <;> decide
  simp only [integerSuffix, ahead, peekAt_one, if_neg short, if_neg integer, if_neg percent,
    if_neg long, if_pos unsigned]
  cases r.skip.peek with
  | none => rfl
  | some d =>
    rw [Option.map_some, Option.bind_some, unsignedType?]
    generalize Text.lowerLetter d = e
    by_cases ushort : e = 's'
    · subst ushort
      rfl
    by_cases uinteger : e = 'i'
    · subst uinteger
      rfl
    by_cases ulong : e = 'l'
    · subst ulong
      rfl
    simp [ushort, uinteger, ulong]

theorem sameSuffix_unsigned (h : Twin K r r') {c : Char} (ahead : r.peek = some c)
    (letter : c = 'U' ∨ c = 'u') : SameSuffix K r r' (integerSuffix r) (integerSuffix r') := by
  obtain ⟨inline, solid⟩ : Text.isLineEnd c = false ∧ c ≠ ' ' := by
    rcases letter with rfl | rfl <;> decide
  have mark := h.same_skip_solid ahead inline solid
  have named : r'.skip.peek.bind unsignedType? = r.skip.peek.bind unsignedType? :=
    mark.last.peek_bind (by decide)
  rw [integerSuffix_unsigned ahead letter,
    integerSuffix_unsigned ((h.peek_eq_some_iff inline).2 ahead) letter, named]
  cases found : r.skip.peek.bind unsignedType? with
  | none =>
    exact ⟨rfl, mark, by simp [Comparison.problem, Diagnostic.code, Problem.code, h.place]⟩
  | some type =>
    obtain ⟨d, next, hd⟩ := Option.bind_eq_some_iff.1 found
    have second : Solid fun d => (unsignedType? d).isSome := ⟨⟨by decide, by decide⟩, by decide⟩
    have hd' : (unsignedType? d).isSome = true := by rw [hd]; rfl
    exact ⟨rfl, mark.trans (mark.last.same_skip_solid next (second.isLineEnd hd')
      (second.ne_blank hd')), rfl⟩

/-- A suffix of one character. -/
theorem sameSuffix_single (h : Twin K r r') {c : Char} (ahead : r.peek = some c)
    (inline : Text.isLineEnd c = false) (solid : c ≠ ' ') {type : Option IntegerType}
    (named : integerSuffix r' = (type, r'.skip, [])) :
    SameSuffix K r r' (type, r.skip, []) (integerSuffix r') := by
  rw [named]
  exact ⟨rfl, h.same_skip_solid ahead inline solid, rfl⟩

/-- No suffix. -/
theorem sameSuffix_none (h : Twin K r r') (none_ : integerSuffix r' = (none, r', [])) :
    SameSuffix K r r' (none, r, []) (integerSuffix r') := by
  rw [none_]
  exact ⟨rfl, .refl h, rfl⟩

theorem sameSuffix (h : Twin K r r') :
    SameSuffix K r r' (integerSuffix r) (integerSuffix r') := by
  by_cases unsigned : ∃ c, r.peek = some c ∧ (c = 'U' ∨ c = 'u')
  · obtain ⟨c, ahead, letter⟩ := unsigned
    exact sameSuffix_unsigned h ahead letter
  fun_cases integerSuffix r
  case case1 c ahead letter | case2 c ahead _ letter =>
    simp only [Bool.or_eq_true, beq_iff_eq] at letter
    rcases letter with rfl | rfl
    all_goals
      have ahead' := (h.peek_eq_some_iff rfl).2 ahead
      exact sameSuffix_single h ahead rfl (by decide) (by simp [integerSuffix, ahead'])
  case case3 c ahead _ _ percent =>
    obtain ⟨rfl, open_⟩ : c = '%' ∧ r.peekAt 1 ≠ some '>' := by simpa using percent
    have ahead' := (h.peek_eq_some_iff rfl).2 ahead
    have mark := h.same_skip_solid ahead rfl (by decide)
    rw [peekAt_one] at open_
    have open' := mt (mark.last.peek_eq_some_iff rfl).1 open_
    exact sameSuffix_single h ahead rfl (by decide)
      (by simp [integerSuffix, ahead', peekAt_one, open'])
  case case4 c ahead _ _ percent letter =>
    simp only [Bool.or_eq_true, beq_iff_eq] at letter
    rcases letter with (rfl | rfl) | rfl
    all_goals
      have ahead' := (h.peek_eq_some_iff rfl).2 ahead
      exact sameSuffix_single h ahead rfl (by decide) (by simp [integerSuffix, ahead'])
  case case5 c ahead _ _ _ _ letter _ | case6 c ahead _ _ _ _ letter _
      | case7 c ahead _ _ _ _ letter _ | case8 c ahead _ _ _ _ letter _ _ _ _ =>
    exact absurd ⟨c, ahead, by simpa using letter⟩ unsigned
  case case9 c ahead short integer percent long letter =>
    refine sameSuffix_none h ?_
    cases h.ahead with
    | done none_ => rw [ahead] at none_; cases none_
    | feed _ _ ahead' => simp [integerSuffix, ahead']
    | char d ahead₂ ahead' =>
      obtain rfl : c = d := Option.some.inj (ahead.symm.trans ahead₂)
      have closes : c = '%' → r'.peekAt 1 = some '>' := by
        rintro rfl
        rw [peekAt_one, (h.same_skip_solid ahead rfl (by decide)).last.peek_eq_some_iff rfl,
          ← peekAt_one]
        simpa using percent
      have percent' : ¬(c == '%' && r'.peekAt 1 != some '>') = true := by simpa using closes
      simp only [integerSuffix, ahead', if_neg short, if_neg integer, if_neg percent', if_neg long,
        if_neg letter]
  case case10 ahead =>
    refine sameSuffix_none h (integerSuffix_of_none ?_)
    cases h.ahead with
    | done _ ahead' => exact ahead'
    | char d some_ => rw [ahead] at some_; cases some_
    | feed _ some_ => rw [ahead] at some_; cases some_

/-- The sign of an exponent. -/
theorem same_afterSign (h : Twin K r r') : Same K r r' (afterSign r) (afterSign r') := by
  have sign : Solid fun c => c == '+' || c == '-' := ⟨⟨rfl, rfl⟩, rfl⟩
  unfold afterSign
  rw [h.peekIs rfl]
  split
  · next signed =>
    obtain ⟨c, ahead, hc⟩ := (Option.any_eq_true _ _).1 signed
    exact h.same_skip_solid ahead (sign.isLineEnd hc) (sign.ne_blank hc)
  · exact .refl h

theorem solid_isDigit : Solid Text.isDigit := ⟨⟨by decide, by decide⟩, by decide⟩

theorem same_exponent (h : Twin K r r') :
    (exponent r').1 = (exponent r).1 ∧ Same K r r' (exponent r).2 (exponent r').2 := by
  have mark : Solid Decimal.isExponentMark := ⟨⟨rfl, rfl⟩, rfl⟩
  rw [exponent_eq, exponent_eq, h.peekIs (mark.ret.trans mark.feed.symm)]
  split
  · next marked =>
    obtain ⟨c, ahead, hc⟩ := (Option.any_eq_true _ _).1 marked
    have letter := h.same_skip_solid ahead (mark.isLineEnd hc) (mark.ne_blank hc)
    have signed := same_afterSign letter.last
    rw [signed.last.peekIs rfl]
    split
    · have digits := signed.trans (signed.last.same_skipWhile_solid solid_isDigit)
      exact ⟨digits.text, letter.trans digits⟩
    · exact ⟨rfl, .refl h⟩
  · exact ⟨rfl, .refl h⟩

/-! ## Literals -/

theorem matches_tail (h : Same K start start' r r') (integral fraction : List Char) :
    Matches K (tail start r integral fraction) (tail start' r' integral fraction) := by
  obtain ⟨power, powered⟩ := same_exponent h.last
  have named : (exponent r').2.peek.bind realSuffix? = (exponent r).2.peek.bind realSuffix? :=
    powered.last.peek_bind rfl
  have whole := h.trans powered
  rw [tail_eq, tail_eq, named, power]
  split
  · next type found =>
    obtain ⟨c, ahead, hc⟩ := Option.bind_eq_some_iff.1 found
    have suffix : Solid fun c => (realSuffix? c).isSome := ⟨⟨rfl, rfl⟩, rfl⟩
    have hc' : (realSuffix? c).isSome = true := by rw [hc]; rfl
    exact matches_real (whole.trans
      (powered.last.same_skip_solid ahead (suffix.isLineEnd hc') (suffix.ne_blank hc'))) _ _
  · split
    · have suffix := sameSuffix powered.last
      rw [suffix.type]
      exact matches_integer (whole.trans suffix.same) _ _ _ suffix.diagnostics
    · exact matches_real whole _ _

theorem matches_decimal (first : Twin K start start') :
    Matches K (decimal start) (decimal start') := by
  have digits := first.same_skipWhile_solid solid_isDigit
  rw [decimal_eq, decimal_eq]
  simp only [digits.text, digits.last.peek_eq_some_iff (c := '.') rfl]
  split
  · next dotted =>
    have dot := digits.last.same_skip_solid dotted rfl (by decide)
    have next (c : Char) (inline : Text.isLineEnd c = false) :
        ((start'.skipWhile Text.isDigit).peekAt 1 != some c)
          = ((start.skipWhile Text.isDigit).peekAt 1 != some c) := by
      rw [peekAt_one, peekAt_one, Bool.eq_iff_iff, bne_iff_ne, bne_iff_ne, ne_eq, ne_eq,
        dot.last.peek_eq_some_iff inline]
    rw [dot.last.peekIs rfl, next '.' rfl, next '@' rfl]
    split
    · have fraction := dot.last.same_skipWhile_solid solid_isDigit
      rw [fraction.text]
      exact matches_tail (digits.trans (dot.trans fraction)) _ _
    · split
      · have none_ : ([] : List Diagnostic).map K.problem = [].map K.problem := rfl
        have number := matches_integer digits .decimal
          (start.textTo (start.skipWhile Text.isDigit)) none none_
        refine ⟨dot.last, number.token, ?_, number.diagnostics⟩
        simp [Token.symbol, Comparison.token, digits.last.place, dot.last.place]
      · exact matches_tail digits _ _
  · exact matches_tail digits _ _

theorem solid_isDigit_radix (radix : Radix) : Solid radix.isDigit := by
  cases radix <;> exact ⟨⟨by decide, by decide⟩, by decide⟩

/-- A number in another base, after its ampersand. -/
theorem matches_radixInteger (h : Same K start start' r r') {c : Char} (ahead : r.peek = some c)
    (inline : Text.isLineEnd c = false) (solid : c ≠ ' ') :
    Matches K (radixInteger start r) (radixInteger start' r') := by
  have radix : radixAt r' = radixAt r := by
    unfold radixAt
    rw [h.last.peekIs rfl]
  have letter := h.last.same_skip_solid ahead inline solid
  have digits := letter.last.same_skipWhile_solid (solid_isDigit_radix (radixAt r))
  have whole := h.trans (letter.trans digits)
  rw [radixInteger_eq, radixInteger_eq, radix]
  dsimp only
  rw [digits.text]
  split
  · refine ⟨whole.last, token_literal whole _ _ _, rfl, ?_⟩
    simp [Comparison.problem, Diagnostic.code, h.first.place]
  · have suffix := sameSuffix digits.last
    rw [suffix.type]
    exact matches_integer (whole.trans suffix.same) _ _ _ suffix.diagnostics

/-- A number starts at both places or at neither. -/
theorem startsAt_eq (h : Twin K r r') : startsAt r' = startsAt r := by
  have second {c : Char} (inline : Text.isLineEnd c = false) (solid : c ≠ ' ') {p : Char → Bool}
      (uniform : p '\r' = p '\n') :
      (r'.peek = some c ∧ r'.skip.peekIs p = true)
        ↔ (r.peek = some c ∧ r.skip.peekIs p = true) := by
    rw [h.peek_eq_some_iff inline]
    refine and_congr_right fun ahead => ?_
    rw [(h.same_skip_solid ahead inline solid).last.peekIs uniform]
  rw [Bool.eq_iff_iff, startsAt_iff, startsAt_iff, h.peekIs rfl, second rfl (by decide) rfl,
    second rfl (by decide) rfl]

theorem matches_scan (h : Twin K r r') (starts : startsAt r = true) :
    Matches K (scan r) (scan r') := by
  by_cases ampersand : r.peek = some '&'
  · have amp := h.same_skip_solid ampersand rfl (by decide)
    rw [scan_of_ampersand ampersand, scan_of_ampersand ((h.peek_eq_some_iff rfl).2 ampersand)]
    have letter : Solid fun d => d == 'H' || d == 'h' || d == 'O' || d == 'o' := ⟨⟨rfl, rfl⟩, rfl⟩
    rcases startsAt_iff.1 starts with digit | ⟨-, based⟩ | ⟨dot, -⟩
    · simp [peekIs, ampersand, Text.isDigit] at digit
    · obtain ⟨c, ahead, hc⟩ := (Option.any_eq_true _ _).1 based
      exact matches_radixInteger amp ahead (letter.isLineEnd hc) (letter.ne_blank hc)
    · rw [ampersand] at dot
      cases dot
  · have ampersand' := mt (h.peek_eq_some_iff rfl).1 ampersand
    simp only [scan, eat?, if_neg ampersand, if_neg ampersand']
    exact matches_decimal h

end BasicLexis.Numeral
