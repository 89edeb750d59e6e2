import BasicLexis.Piece.Standard

set_option autoImplicit false

/-! # Every piece takes some source

Every way to read a piece leads to a place that is reached from the start of the piece, after at
least its first character. -/

namespace BasicLexis

open Reader

/-! ## Numeric literals -/

namespace Numeral

theorem reaches_integerSuffix (r : Reader) : r.Reaches (integerSuffix r).2.1 := by
  unfold integerSuffix
  repeat' split
  all_goals first
    | exact .refl r
    | exact r.reaches_skip
    | exact r.reaches_skip.trans (reaches_skip _)

theorem rest_integer (start stop : Reader) (radix : Radix) (digits : List Char)
    (type : Option IntegerType) (diagnostics : List Diagnostic) :
    (integer start stop radix digits type diagnostics).rest = stop := by
  unfold integer
  split <;> rfl

theorem rest_real (start stop : Reader) (parts : Parts) (type : RealType) :
    (real start stop parts type).rest = stop := by
  unfold real
  cases type with
  | double => rfl
  | single => rfl
  | decimal => dsimp only; split <;> rfl

theorem reaches_radixInteger (start r : Reader) : r.Reaches (radixInteger start r).rest := by
  unfold radixInteger
  generalize (if r.peekIs fun c => c == 'H' || c == 'h' then Radix.hexadecimal else .octal) = radix
  have digits := r.reaches_skip.trans (reaches_readWhile radix.isDigit r.skip)
  dsimp only
  split
  · exact digits
  · rw [rest_integer]
    exact digits.trans (reaches_integerSuffix _)

theorem reaches_exponent (r : Reader) : r.Reaches (exponent r).2 := by
  unfold exponent
  dsimp only
  repeat' split
  · exact ((r.reaches_skip.trans (reaches_skip _)).trans (reaches_skipWhile _ _))
  · exact .refl r
  · exact r.reaches_skip.trans (reaches_skipWhile _ _)
  · exact .refl r
  · exact .refl r

theorem reaches_tail (start r : Reader) (integral fraction : List Char) :
    r.Reaches (tail start r integral fraction).rest := by
  unfold tail
  have power := reaches_exponent r
  dsimp only
  split
  · rw [rest_real]
    exact power.trans (reaches_skip _)
  · split
    · rw [rest_integer]
      exact power.trans (reaches_integerSuffix _)
    · rw [rest_real]
      exact power

/-- A decimal literal takes at least the digits it starts with. -/
theorem reaches_decimal (start : Reader) :
    (start.skipWhile Text.isDigit).Reaches (decimal start).rest := by
  unfold decimal
  simp only [readWhile_eq]
  split
  · split
    · exact ((reaches_skip _).trans (reaches_skipWhile _ _)).trans (reaches_tail _ _ _ _)
    · split
      · exact reaches_skip _
      · exact reaches_tail _ _ _ _
  · exact reaches_tail _ _ _ _

end Numeral

namespace Reader

/-- Leaving out a run of characters takes the first one, if it belongs to the run. -/
theorem skip_reaches_skipWhile {p : Char → Bool} {r : Reader} {c : Char} {cs : List Char}
    (h : r.rest = c :: cs) (hc : p c = true) : r.skip.Reaches (r.skipWhile p) := by
  obtain ⟨rest, position, location⟩ := r
  dsimp only at h
  subst h
  have : skipWhile p ⟨c :: cs, position, location⟩ = (skip ⟨c :: cs, position, location⟩).skipWhile p := by
    simp [skipWhile, skipRun, hc, skip, read?]
  rw [this]
  exact reaches_skipWhile _ _

end Reader

namespace Numeral

/-- A numeric literal takes at least one character. -/
theorem skip_reaches_scan {r : Reader} (h : startsAt r = true) : r.skip.Reaches (scan r).rest := by
  obtain ⟨rest, position, location⟩ := r
  cases rest with
  | nil => simp [startsAt, peek] at h
  | cons c cs =>
    unfold scan eat?
    by_cases amp : c = '&'
    · simpa [peek, amp] using reaches_radixInteger _ _
    · simp only [peek, List.head?_cons, Option.some.injEq, amp, if_false]
      by_cases digit : Text.isDigit c = true
      · exact (skip_reaches_skipWhile rfl digit).trans (reaches_decimal _)
      · have dot : c = '.' ∧ (cs.head?.any Text.isDigit) = true := by
          simp only [startsAt, peek, List.head?_cons] at h
          simp [digit, amp, peekAt] at h
          simpa [List.head?_eq_getElem?] using h
        obtain ⟨rfl, next⟩ := dot
        unfold decimal
        have stays : readWhile Text.isDigit ⟨'.' :: cs, position, location⟩
            = ([], ⟨'.' :: cs, position, location⟩) := by
          simp [readWhile, readRun, digit]
        have next' : ((peekAt ⟨'.' :: cs, position, location⟩ 1).any Text.isDigit) = true := by
          simpa [peekAt, List.head?_eq_getElem?] using next
        simp only [stays, peek, List.head?_cons, next', if_true]
        exact (reaches_readWhile _ _).trans (reaches_tail _ _ _ _)

end Numeral

/-! ## Enclosed literals -/

theorem Enclosure.reaches_readFrom (e : Enclosure) (cs : List Char) (n : Nat) (l : Location)
    (content : List Char) (found : List Diagnostic) :
    Reaches ⟨cs, n, l⟩ (e.readFrom cs n l content found).rest := by
  fun_induction Enclosure.readFrom e cs n l content found with
  | case1 => exact .refl _
  | case2 _ _ _ _ _ _ _ ih => exact ((reaches_skip _).trans (reaches_skip _)).trans ih
  | case3 | case4 => exact reaches_skip _
  | case5 _ _ _ _ _ _ ih => exact ((reaches_skip _).trans (reaches_skip _)).trans ih
  | case6 _ _ _ _ _ _ _ _ ih => exact (reaches_skip _).trans ih
  | case7 _ _ _ _ _ ih => exact (reaches_skip _).trans ih
  | case8 _ _ _ _ _ _ _ ih => exact (reaches_skip _).trans ih
  | case9 _ _ _ _ _ _ _ _ _ ih => exact (reaches_skip _).trans ih

theorem Enclosure.reaches_read (e : Enclosure) (r : Reader) : r.Reaches (e.read r).rest :=
  e.reaches_readFrom r.rest r.position r.location [] []

namespace Piece

theorem rest_character (start rest : Reader) (content : List Char) (entries : List Entry) :
    (character start rest content entries).rest = rest := by
  unfold character
  split <;> rfl

theorem reaches_string (start r : Reader) : r.Reaches (string start r).rest := by
  unfold string
  have inside := Enclosure.string.reaches_read r
  dsimp only
  split
  · rw [rest_character]
    exact inside.trans (reaches_skip _)
  · exact inside

theorem reaches_date (start r : Reader) : r.Reaches (date start r).rest := by
  unfold date
  have inside := Enclosure.date.reaches_read r
  dsimp only
  split <;> exact inside

theorem reaches_directive (s : Setting) (start r : Reader) :
    r.Reaches (directive s start r).rest :=
  (reaches_readWhile _ _).trans (reaches_readLine _)

/-- A comment takes its line, and the line end with it. -/
theorem rest_comment_of_line (s : Setting) (quoted : Bool) (start r : Reader) :
    (comment s quoted start r).rest = (r.skipWhile (!Text.isLineEnd ·)).skipLineEnd := by
  unfold comment
  rw [foldLine_eq]
  rfl

theorem reaches_numberSign (s : Setting) (start r : Reader) :
    r.Reaches (numberSign s start r).rest := by
  unfold numberSign
  dsimp only
  split
  · exact (reaches_skipWhile _ _).trans (reaches_date _ _)
  · exact (reaches_skipWhile _ _).trans (reaches_directive _ _ _)

/-! ## Comments, words and layout -/

theorem reaches_comment (s : Setting) (quoted : Bool) (start r : Reader) :
    r.Reaches (comment s quoted start r).rest := by
  rw [rest_comment_of_line]
  exact (reaches_skipWhile _ _).trans (reaches_skipLineEnd _)

theorem reaches_wordEnd (r : Reader) : r.Reaches (wordEnd r).rest := by
  unfold wordEnd
  dsimp only
  repeat' split
  all_goals first
    | exact .refl r
    | exact r.reaches_skip

theorem reaches_name (s : Setting) (start r : Reader) : r.Reaches (name s start r).rest := by
  unfold name
  split
  · exact reaches_skipWhile _ _
  · exact (reaches_skipWhile _ _).trans (reaches_wordEnd _)

theorem reaches_letters (s : Setting) (start r : Reader) : r.Reaches (letters s start r).rest := by
  unfold letters
  split
  · exact reaches_name _ _ _
  · dsimp only
    split
    · exact ((reaches_skipWhile _ _).trans (reaches_wordEnd _)).trans (reaches_comment s false start _)
    · exact (reaches_skipWhile _ _).trans (reaches_wordEnd _)
    · exact reaches_name _ _ _

theorem reaches_bracketed (start r : Reader) : r.Reaches (bracketed start r).rest := by
  unfold bracketed
  refine (reaches_readWhile Text.isWordChar r).trans ?_
  dsimp only
  split
  · next h => exact reaches_of_eat? h
  · exact .refl _

theorem reaches_blank (s : Setting) (c : Char) (start r : Reader) :
    r.Reaches (blank s c start r).rest := by
  unfold blank
  split
  · next rest h => exact reaches_of_finishLineEnd? h
  · exact .refl r

theorem reaches_continuation (r : Reader) : r.Reaches (continuation r).rest := by
  unfold continuation
  dsimp only
  split
  · exact reaches_skipWhile _ _
  · split
    · exact (reaches_skipWhile _ _).trans (reaches_skipLineEnd _)
    · exact reaches_skipWhile _ _

theorem reaches_underscore (s : Setting) (start r : Reader) :
    r.Reaches (underscore s start r).rest := by
  unfold underscore
  split
  · exact reaches_name _ _ _
  · exact reaches_continuation _

/-! ## Operators -/

theorem reaches_orAssign (r : Reader) (plain assigning : TokenKind) :
    r.Reaches (orAssign r plain assigning).2 := by
  unfold orAssign
  split
  · next h => exact reaches_of_eat? h
  · exact .refl r

theorem reaches_afterLess (r : Reader) : r.Reaches (afterLess r).2 := by
  unfold afterLess
  split
  · exact reaches_skip _
  · exact reaches_skip _
  · exact (reaches_skip _).trans (reaches_orAssign _ _ _)
  · exact .refl r

theorem reaches_afterGreater (r : Reader) : r.Reaches (afterGreater r).2 := by
  unfold afterGreater
  split
  · exact reaches_skip _
  · exact (reaches_skip _).trans (reaches_orAssign _ _ _)
  · exact .refl r

theorem reaches_afterDot (r : Reader) : r.Reaches (afterDot r).2 := by
  unfold afterDot
  split
  · exact reaches_skip _
  · split
    · exact (reaches_skip _).trans (reaches_skip _)
    · exact .refl r

theorem reaches_of_operatorKind? {c : Char} {r rest : Reader} {kind : TokenKind}
    (h : operatorKind? c r = some (kind, rest)) : r.Reaches rest := by
  have step {p : TokenKind × Reader} (hp : r.Reaches p.2) (h : some p = some (kind, rest)) :
      r.Reaches rest := by
    cases h
    exact hp
  unfold operatorKind? at h
  split at h
  all_goals first
    | exact step (reaches_orAssign _ _ _) h
    | exact step (.refl r) h
    | exact step (reaches_afterLess r) h
    | exact step (reaches_afterGreater r) h
    | exact step (reaches_afterDot r) h
    | cases h

theorem reaches_operator (c : Char) (start r : Reader) : r.Reaches (operator c start r).rest := by
  unfold operator
  split
  · next h => exact reaches_of_operatorKind? h
  · exact .refl r

/-! ## XML literals -/

theorem reaches_sectionTo (kind : TokenKind) (close : List Char) (start r : Reader) :
    r.Reaches (sectionTo kind close start r).rest := by
  unfold sectionTo
  split
  · exact reaches_skipMany _ _
  · exact reaches_skipWhile _ _

theorem reaches_markupSection (start r : Reader) : r.Reaches (markupSection start r).rest := by
  unfold markupSection
  split
  · next h => exact (reaches_of_eatText? h).trans (reaches_sectionTo _ _ _ _)
  · split
    · next h => exact (reaches_of_eatText? h).trans (reaches_sectionTo _ _ _ _)
    · exact (reaches_readWhile _ _).trans (reaches_eatOptional _ _)

theorem reaches_afterAngle (f : MarkupFrame) (start r : Reader) :
    r.Reaches (afterAngle f start r).piece.rest := by
  unfold afterAngle
  split
  · exact reaches_skip _
  · exact reaches_skip _
  · exact (reaches_skip _).trans (reaches_markupSection _ _)
  · split
    · next h => exact reaches_of_eatText? h
    · exact .refl r

theorem reaches_attributeFrom (quote : Char) (cs : List Char) (n : Nat) (l : Location)
    (content : List Char) (found : List Entry) :
    Reaches ⟨cs, n, l⟩ (attributeFrom quote cs n l content found).2.2 := by
  induction cs generalizing n l content found with
  | nil => exact .refl _
  | cons c cs ih =>
    unfold attributeFrom
    dsimp only
    split
    · exact reaches_skip ⟨c :: cs, n, l⟩
    · split <;> exact (reaches_skip ⟨c :: cs, n, l⟩).trans (ih _ _ _ _)

theorem reaches_attributeValue (quote : Char) (start r : Reader) :
    r.Reaches (attributeValue quote start r).rest :=
  reaches_attributeFrom quote r.rest r.position r.location [] []

theorem reaches_inTag (f : MarkupFrame) (c : Char) (start r : Reader) :
    r.Reaches (inTag f c start r).piece.rest := by
  unfold inTag
  repeat' split
  all_goals first
    | exact reaches_skip _
    | exact .refl r
    | exact reaches_attributeValue _ _ _
    | exact reaches_skipWhile _ _

theorem reaches_markup (f : MarkupFrame) (c : Char) (start r : Reader) :
    r.Reaches (markup f c start r).piece.rest := by
  unfold markup
  split
  · exact reaches_afterAngle _ _ _
  · split
    · exact reaches_inTag _ _ _ _
    · exact reaches_skipWhile _ _

theorem reaches_enter (m : XmlMode) (singleTag : Bool) (start r : Reader) :
    r.Reaches (m.enter singleTag start r).1.rest :=
  reaches_afterAngle _ _ _

theorem reaches_read (m : XmlMode) (c : Char) (start r : Reader) :
    r.Reaches (m.read c start r).1.rest := by
  unfold XmlMode.read
  split
  · exact reaches_markup _ _ _ _
  · exact .refl r

/-! ## The next piece -/

theorem reaches_plain (s : Setting) (c : Char) (start r : Reader) :
    r.Reaches (plain s c start r).rest := by
  unfold plain
  repeat' split
  · exact reaches_blank _ _ _ _
  · exact reaches_underscore _ _ _
  · exact reaches_numberSign _ _ _
  · exact reaches_bracketed _ _
  · exact reaches_string _ _
  · exact reaches_comment _ _ _ _
  · exact reaches_letters _ _ _
  · exact reaches_operator _ _ _

theorem reaches_standard (s : Setting) (m : XmlMode) (c : Char) (start r : Reader) :
    r.Reaches (standard s m c start r).1.rest := by
  unfold standard
  repeat' split
  · exact reaches_skip _
  · exact reaches_enter _ _ _ _
  · exact reaches_operator _ _ _
  · exact reaches_plain _ _ _ _

/-- A piece takes at least its first character. -/
theorem reaches_next {s : Setting} {m : XmlMode} {c : Char} {start r : Reader}
    (h : start.read? = some (c, r)) : r.Reaches (next s m c start r).1.rest := by
  unfold next
  split
  · exact reaches_read _ _ _ _
  · split
    · next starts =>
      rw [skip_eq_of_read? h]
      exact Numeral.skip_reaches_scan starts
    · exact reaches_standard _ _ _ _ _

/-- After a piece, less of the source is left. -/
theorem length_next {s : Setting} {m : XmlMode} {c : Char} {start r : Reader}
    (h : start.read? = some (c, r)) :
    (next s m c start r).1.rest.rest.length < start.rest.length :=
  Nat.lt_of_le_of_lt (reaches_next h).length_le (length_of_read? h)

end Piece

/-- A comment after a literal takes some of the source. -/
theorem XmlMode.length_of_trailing? {m : XmlMode} {r : Reader} {piece : Piece}
    (h : m.trailing? r = some piece) : piece.rest.rest.length < r.rest.length := by
  unfold XmlMode.trailing? at h
  split at h
  · simp only [Option.map_eq_some_iff] at h
    obtain ⟨inside, eaten, rfl⟩ := h
    have start := (r.reaches_skipWhile Text.isMarkupBlank).length_le
    have inner := (Piece.reaches_markupSection (r.skipWhile Text.isMarkupBlank) inside).length_le
    have less : inside.rest.length < (r.skipWhile Text.isMarkupBlank).rest.length := by
      generalize r.skipWhile Text.isMarkupBlank = place at eaten
      obtain ⟨rest, position, location⟩ := place
      unfold eatText? at eaten
      split at eaten
      · next spelled =>
        cases eaten
        cases rest with
        | nil => simp at spelled
        | cons c cs =>
          refine Nat.lt_of_le_of_lt (m := cs.length) ?_ (Nat.lt_succ_self _)
          exact (reaches_skip (skip ⟨c :: cs, position, location⟩)).length_le
      · cases eaten
    omega
  · cases h

end BasicLexis
