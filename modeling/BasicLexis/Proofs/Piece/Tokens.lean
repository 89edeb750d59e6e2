import BasicLexis.Piece.Progress

set_option autoImplicit false

/-! # The tokens of a piece

No piece of the source is an end marker, and a piece is a line end only if a token precedes it on
its line. The token that is read together with another one is a dot or an exclamation mark, and has
a character of its own, so there are never more tokens than characters. -/

namespace BasicLexis

open Reader

/-- Leaving out a character that is there leaves one character less. -/
theorem Reader.length_skip_of_peek {r : Reader} {c : Char} (h : r.peek = some c) :
    r.skip.rest.length < r.rest.length := by
  obtain ⟨rest, position, location⟩ := r
  cases rest with
  | nil => cases h
  | cons d ds => exact Nat.lt_succ_self _

/-- The token ends neither a line nor the source. -/
def Token.IsInner (t : Token) : Prop := t.kind ≠ .eol ∧ t.kind ≠ .eof

namespace Piece

/-- What the tokens of a piece are, on a line that starts with the piece or not. -/
structure Regular (freshLine : Bool) (p : Piece) : Prop where
  token : ∀ t, p.token = some t → t.kind ≠ .eof ∧ (t.kind = .eol → freshLine = false)
  queued : ∀ t, p.queued = some t → t.IsInner

variable {freshLine : Bool}

/-! ## Pieces of one token -/

theorem regular_of_token {p : Piece} {t : Token} (h : p.token = some t) (inner : t.IsInner)
    (single : p.queued = none) : Regular freshLine p := by
  refine ⟨?_, ?_⟩
  · intro u hu
    rw [h] at hu
    cases hu
    exact ⟨inner.2, fun eol => absurd eol inner.1⟩
  · intro u hu
    rw [single] at hu
    cases hu

theorem regular_of_silent {p : Piece} (h : p.token = none) (single : p.queued = none) :
    Regular freshLine p := by
  refine ⟨?_, ?_⟩
  · intro u hu
    rw [h] at hu
    cases hu
  · intro u hu
    rw [single] at hu
    cases hu

theorem regular_symbol {kind : TokenKind} (start rest : Reader) (eol : kind ≠ .eol)
    (eof : kind ≠ .eof) : Regular freshLine (symbol kind start rest) :=
  regular_of_token rfl ⟨eol, eof⟩ rfl

theorem regular_word {kind : TokenKind} (start rest : Reader) (text : List Char)
    (entries : List Entry) (eol : kind ≠ .eol) (eof : kind ≠ .eof) :
    Regular freshLine (word kind start rest text entries) :=
  regular_of_token rfl ⟨eol, eof⟩ rfl

theorem regular_literal {kind : TokenKind} (start rest : Reader) (value : LiteralValue)
    (format : LiteralFormat) (entries : List Entry) (eol : kind ≠ .eol) (eof : kind ≠ .eof) :
    Regular freshLine (literal kind start rest value format entries) :=
  regular_of_token rfl ⟨eol, eof⟩ rfl

/-- A line end is a token only after others on its line. -/
theorem regular_endOfLine (start : Location) (rest : Reader) (entries : List Entry) :
    Regular freshLine (endOfLine freshLine start rest entries) := by
  cases freshLine with
  | true => exact regular_of_silent rfl rfl
  | false =>
    refine ⟨?_, ?_⟩
    · intro t ht
      cases ht
      exact ⟨nofun, fun _ => rfl⟩
    · intro t ht
      cases ht

/-- A second token in line, which is itself no end of anything. -/
theorem Regular.withQueued {p : Piece} (h : Regular freshLine p) {queued : Option Token}
    (inner : ∀ t, queued = some t → t.IsInner) : Regular freshLine { p with queued } :=
  ⟨h.token, inner⟩

end Piece

/-! ## Numeric literals -/

namespace Numeral

/-- A literal without a dot after it. -/
def IsWhole (n : Numeral) : Prop := n.token.IsInner ∧ n.dot = none

/-- A literal that was read from a place on. A dot after it takes a character of its own. -/
structure Regular (r : Reader) (n : Numeral) : Prop where
  token : n.token.IsInner
  dot : ∀ t, n.dot = some t → t.IsInner
  room : n.rest.rest.length + n.dot.toList.length ≤ r.rest.length

theorem IsWhole.regular {n : Numeral} {r : Reader} (h : n.IsWhole) (reaches : r.Reaches n.rest) :
    Regular r n := by
  obtain ⟨inner, alone⟩ := h
  refine ⟨inner, ?_, ?_⟩
  · intro t ht
    rw [alone] at ht
    cases ht
  · rw [alone]
    exact reaches.length_le

theorem isWhole_integer (start stop : Reader) (radix : Radix) (digits : List Char)
    (type : Option IntegerType) (diagnostics : List Diagnostic) :
    IsWhole (integer start stop radix digits type diagnostics) := by
  unfold integer
  split <;> exact ⟨⟨nofun, nofun⟩, rfl⟩

theorem isWhole_real (start stop : Reader) (parts : Parts) (type : RealType) :
    IsWhole (real start stop parts type) := by
  unfold real
  cases type with
  | double => exact ⟨⟨nofun, nofun⟩, rfl⟩
  | single => exact ⟨⟨nofun, nofun⟩, rfl⟩
  | decimal =>
    dsimp only
    split <;> exact ⟨⟨nofun, nofun⟩, rfl⟩

theorem isWhole_radixInteger (start r : Reader) : IsWhole (radixInteger start r) := by
  unfold radixInteger
  generalize (if r.peekIs fun c => c == 'H' || c == 'h' then Radix.hexadecimal else .octal) = radix
  dsimp only
  split
  · exact ⟨⟨nofun, nofun⟩, rfl⟩
  · exact isWhole_integer _ _ _ _ _ _

theorem isWhole_tail (start r : Reader) (integral fraction : List Char) :
    IsWhole (tail start r integral fraction) := by
  unfold tail
  dsimp only
  split
  · exact isWhole_real _ _ _ _
  · split
    · exact isWhole_integer _ _ _ _ _ _
    · exact isWhole_real _ _ _ _

theorem regular_decimal (start : Reader) :
    Regular (start.skipWhile Text.isDigit) (decimal start) := by
  unfold decimal
  simp only [readWhile_eq]
  split
  · next dotted =>
    split
    · exact (isWhole_tail _ _ _ _).regular
        (((reaches_skip _).trans (reaches_skipWhile _ _)).trans (reaches_tail _ _ _ _))
    · split
      · -- digits, a dot and no more digits: the dot is a token of its own
        refine ⟨(isWhole_integer _ _ _ _ _ _).1, ?_, ?_⟩
        · intro t ht
          cases ht
          exact ⟨nofun, nofun⟩
        · exact Nat.succ_le_of_lt (length_skip_of_peek dotted)
      · exact (isWhole_tail _ _ _ _).regular (reaches_tail _ _ _ _)
  · exact (isWhole_tail _ _ _ _).regular (reaches_tail _ _ _ _)

/-- Only digits are followed by a dot of its own. -/
theorem isWhole_decimal {start : Reader} (h : (start.readWhile Text.isDigit).1 = []) :
    IsWhole (decimal start) := by
  unfold decimal
  dsimp only
  split
  · split
    · exact isWhole_tail _ _ _ _
    · split
      · next digits =>
        rw [h] at digits
        cases digits
      · exact isWhole_tail _ _ _ _
  · exact isWhole_tail _ _ _ _

/-- A numeric literal takes a character, and so does the dot after it. -/
theorem regular_scan {r : Reader} (h : startsAt r = true) : Regular r.skip (scan r) := by
  have taken := skip_reaches_scan h
  unfold scan at *
  split
  · next rest eaten =>
    simp only [eaten] at taken
    exact (isWhole_radixInteger _ _).regular taken
  · next plain =>
    simp only [plain] at taken
    obtain ⟨rest, position, location⟩ := r
    cases rest with
    | nil => cases h
    | cons c cs =>
      by_cases digit : Text.isDigit c = true
      · obtain ⟨token, dot, room⟩ := regular_decimal ⟨c :: cs, position, location⟩
        have digits := (skip_reaches_skipWhile (p := Text.isDigit)
          (r := ⟨c :: cs, position, location⟩) rfl digit).length_le
        exact ⟨token, dot, Nat.le_trans room digits⟩
      · refine (isWhole_decimal ?_).regular taken
        simp [readWhile, readRun, digit]

end Numeral

/-! ## Words, layout and operators -/

namespace Piece

variable {freshLine : Bool}

theorem regular_character (start rest : Reader) (content : List Char) (entries : List Entry) :
    Regular freshLine (character start rest content entries) := by
  unfold character
  split <;> exact regular_literal _ _ _ _ _ nofun nofun

theorem regular_string (start r : Reader) : Regular freshLine (string start r) := by
  unfold string
  dsimp only
  split
  · exact regular_character _ _ _ _
  · exact regular_literal _ _ _ _ _ nofun nofun

theorem regular_numberSign (s : Setting) (start r : Reader) :
    Regular s.freshLine (numberSign s start r) := by
  unfold numberSign date directive
  dsimp only
  split
  · split <;> exact regular_literal _ _ _ _ _ nofun nofun
  · exact regular_endOfLine _ _ _

theorem regular_comment (s : Setting) (quoted : Bool) (start r : Reader) :
    Regular s.freshLine (comment s quoted start r) :=
  regular_endOfLine _ _ _

/-- The end of a word that was read from a place on. An exclamation mark after the word takes a
    character of its own. -/
structure WordEnd.Regular (r : Reader) (e : WordEnd) : Prop where
  access : ∀ t, e.access = some t → t.IsInner
  room : e.rest.rest.length + e.access.toList.length ≤ r.rest.length

theorem WordEnd.regular_of_none {r : Reader} {e : WordEnd} (alone : e.access = none)
    (reaches : r.Reaches e.rest) : e.Regular r := by
  refine ⟨?_, ?_⟩
  · intro t ht
    rw [alone] at ht
    cases ht
  · rw [alone]
    exact reaches.length_le

theorem regular_wordEnd (r : Reader) : (wordEnd r).Regular r := by
  unfold wordEnd
  split
  · next c ahead =>
    dsimp only
    split
    · split
      · exact WordEnd.regular_of_none rfl (.refl r)
      · split
        · refine ⟨?_, Nat.succ_le_of_lt (length_skip_of_peek ahead)⟩
          intro t ht
          cases ht
          exact ⟨nofun, nofun⟩
        · exact WordEnd.regular_of_none rfl (reaches_skip r)
    · exact WordEnd.regular_of_none rfl (.refl r)
  · exact WordEnd.regular_of_none rfl (.refl r)

theorem regular_name (s : Setting) (start r : Reader) : Regular freshLine (name s start r) := by
  unfold name
  split
  · exact regular_word _ _ _ _ nofun nofun
  · refine Regular.withQueued (p := word .identifier _ _ _ _) ?_ (regular_wordEnd _).access
    exact regular_word _ _ _ _ nofun nofun

theorem regular_letters (s : Setting) (start r : Reader) :
    Regular s.freshLine (letters s start r) := by
  unfold letters
  split
  · exact regular_name _ _ _
  · dsimp only
    split
    · -- a word may open a comment, and what ends the word still waits in line
      exact (regular_comment _ _ _ _).withQueued (regular_wordEnd _).access
    · refine Regular.withQueued (p := word (.keyword _) _ _ _ _) ?_ (regular_wordEnd _).access
      exact regular_word _ _ _ _ nofun nofun
    · exact regular_name _ _ _

theorem regular_blank (s : Setting) (c : Char) (start r : Reader) :
    Regular s.freshLine (blank s c start r) := by
  unfold blank
  split
  · exact regular_endOfLine _ _ _
  · exact regular_of_silent rfl rfl

theorem regular_underscore (s : Setting) (start r : Reader) :
    Regular freshLine (underscore s start r) := by
  unfold underscore continuation
  dsimp only
  split
  · exact regular_name _ _ _
  · repeat' split
    all_goals exact regular_of_silent rfl rfl

theorem operatorKind?_ne {c : Char} {r rest : Reader} {kind : TokenKind}
    (h : operatorKind? c r = some (kind, rest)) : kind ≠ .eol ∧ kind ≠ .eof := by
  unfold operatorKind? orAssign afterLess afterGreater afterDot orAssign at h
  repeat' split at h
  all_goals first
    | (cases h; exact ⟨nofun, nofun⟩)
    | cases h

theorem regular_operator (c : Char) (start r : Reader) :
    Regular freshLine (operator c start r) := by
  unfold operator
  split
  · next h => exact regular_symbol _ _ (operatorKind?_ne h).1 (operatorKind?_ne h).2
  · exact regular_of_silent rfl rfl

theorem regular_bracketed (start r : Reader) : Regular freshLine (bracketed start r) :=
  regular_word _ _ _ _ nofun nofun

/-! ## XML literals -/

theorem regular_sectionTo {kind : TokenKind} (close : List Char) (start r : Reader)
    (eol : kind ≠ .eol) (eof : kind ≠ .eof) : Regular freshLine (sectionTo kind close start r) := by
  unfold sectionTo
  split <;> exact regular_word _ _ _ _ eol eof

theorem regular_markupSection (start r : Reader) : Regular freshLine (markupSection start r) := by
  unfold markupSection
  split
  · exact regular_sectionTo _ _ _ nofun nofun
  · split
    · exact regular_sectionTo _ _ _ nofun nofun
    · exact regular_word _ _ _ _ nofun nofun

theorem regular_afterAngle (f : MarkupFrame) (start r : Reader) :
    Regular freshLine (afterAngle f start r).piece := by
  unfold afterAngle
  split
  · exact regular_symbol _ _ nofun nofun
  · exact regular_symbol _ _ nofun nofun
  · exact regular_markupSection _ _
  · split <;> exact regular_symbol _ _ nofun nofun

theorem regular_inTag (f : MarkupFrame) (c : Char) (start r : Reader) :
    Regular freshLine (inTag f c start r).piece := by
  unfold inTag attributeValue
  repeat' split
  all_goals first
    | exact regular_symbol _ _ nofun nofun
    | exact regular_literal _ _ _ _ _ nofun nofun
    | exact regular_of_silent rfl rfl

theorem regular_read (m : XmlMode) (c : Char) (start r : Reader) :
    Regular freshLine (m.read c start r).1 := by
  unfold XmlMode.read markup
  split
  · dsimp only
    split
    · exact regular_afterAngle _ _ _
    · split
      · exact regular_inTag _ _ _ _
      · exact regular_word _ _ _ _ nofun nofun
  · exact regular_word _ _ _ _ nofun nofun

/-! ## The next piece -/

theorem regular_plain (s : Setting) (c : Char) (start r : Reader) :
    Regular s.freshLine (plain s c start r) := by
  unfold plain
  repeat' split
  · exact regular_blank _ _ _ _
  · exact regular_underscore _ _ _
  · exact regular_numberSign _ _ _
  · exact regular_bracketed _ _
  · exact regular_string _ _
  · exact regular_comment _ _ _ _
  · exact regular_letters _ _ _
  · exact regular_operator _ _ _

theorem regular_standard (s : Setting) (m : XmlMode) (c : Char) (start r : Reader) :
    Regular s.freshLine (standard s m c start r).1 := by
  unfold standard XmlMode.enter
  repeat' split
  · exact regular_symbol _ _ nofun nofun
  · exact regular_afterAngle _ _ _
  · have less : Regular s.freshLine (operator c start r) := regular_operator c start r
    exact ⟨less.token, less.queued⟩
  · exact regular_plain _ _ _ _

/-- What the tokens of the next piece are. -/
theorem regular_next (s : Setting) (m : XmlMode) (c : Char) (start r : Reader) :
    Regular s.freshLine (next s m c start r).1 := by
  unfold next
  split
  · exact regular_read _ _ _ _
  · split
    · next starts =>
      obtain ⟨token, dot, -⟩ := Numeral.regular_scan starts
      refine ⟨?_, dot⟩
      intro t ht
      cases ht
      exact ⟨token.2, fun eol => absurd eol token.1⟩
    · exact regular_standard _ _ _ _ _

/-! ## Room for the tokens -/

/-- The token that is read together with another one takes a character, besides the first one, of
    its own. -/
def HasRoom (r : Reader) (p : Piece) : Prop :=
  p.rest.rest.length + p.queued.toList.length ≤ r.rest.length

theorem hasRoom_of_single {r : Reader} {p : Piece} (single : p.queued = none)
    (reaches : r.Reaches p.rest) : p.HasRoom r := by
  unfold HasRoom
  rw [single]
  exact reaches.length_le

theorem hasRoom_name (s : Setting) (start r : Reader) : (name s start r).HasRoom r := by
  have reaches := reaches_name s start r
  unfold name at *
  split
  · next xml =>
    rw [if_pos xml] at reaches
    exact hasRoom_of_single rfl reaches
  · exact Nat.le_trans (regular_wordEnd _).room (reaches_skipWhile _ _).length_le

theorem hasRoom_letters (s : Setting) (start r : Reader) : (letters s start r).HasRoom r := by
  unfold letters
  split
  · exact hasRoom_name _ _ _
  · have word := Nat.le_trans (regular_wordEnd _).room
      (reaches_skipWhile Text.isWordChar r).length_le
    dsimp only
    split
    · have comment := (reaches_comment s false start
        (wordEnd (r.skipWhile Text.isWordChar)).rest).length_le
      exact Nat.le_trans (Nat.add_le_add_right comment _) word
    · exact word
    · exact hasRoom_name _ _ _

theorem hasRoom_underscore (s : Setting) (start r : Reader) :
    (underscore s start r).HasRoom r := by
  have reaches := reaches_continuation r
  unfold underscore
  split
  · exact hasRoom_name _ _ _
  · refine hasRoom_of_single ?_ reaches
    unfold continuation
    dsimp only
    repeat' split
    all_goals rfl

theorem queued_operator (c : Char) (start r : Reader) : (operator c start r).queued = none := by
  unfold operator
  split <;> rfl

theorem hasRoom_plain (s : Setting) (c : Char) (start r : Reader) :
    (plain s c start r).HasRoom r := by
  unfold plain
  repeat' split
  · refine hasRoom_of_single ?_ (reaches_blank _ _ _ _)
    unfold blank
    split <;> rfl
  · exact hasRoom_underscore _ _ _
  · refine hasRoom_of_single ?_ (reaches_numberSign _ _ _)
    unfold numberSign date
    dsimp only
    repeat' split
    all_goals rfl
  · exact hasRoom_of_single rfl (reaches_bracketed _ _)
  · refine hasRoom_of_single ?_ (reaches_string _ _)
    unfold string character
    dsimp only
    repeat' split
    all_goals rfl
  · exact hasRoom_of_single rfl (reaches_comment _ _ _ _)
  · exact hasRoom_letters _ _ _
  · exact hasRoom_of_single (queued_operator _ _ _) (reaches_operator _ _ _)

theorem queued_markupSection (start r : Reader) : (markupSection start r).queued = none := by
  unfold markupSection sectionTo
  repeat' split
  all_goals rfl

theorem queued_afterAngle (f : MarkupFrame) (start r : Reader) :
    (afterAngle f start r).piece.queued = none := by
  unfold afterAngle
  split
  · rfl
  · rfl
  · exact queued_markupSection _ _
  · split <;> rfl

theorem queued_read (m : XmlMode) (c : Char) (start r : Reader) :
    (m.read c start r).1.queued = none := by
  unfold XmlMode.read markup
  split
  · dsimp only
    split
    · exact queued_afterAngle _ _ _
    · split
      · unfold inTag
        repeat' split
        all_goals rfl
      · rfl
  · rfl

/-- The tokens of the next piece have room between its start and its end. -/
theorem hasRoom_next {s : Setting} {m : XmlMode} {c : Char} {start r : Reader}
    (h : start.read? = some (c, r)) : (next s m c start r).1.HasRoom r := by
  unfold next standard
  split
  · exact hasRoom_of_single (queued_read _ _ _ _) (reaches_read _ _ _ _)
  · split
    · next starts =>
      rw [skip_eq_of_read? h]
      exact (Numeral.regular_scan starts).room
    · repeat' split
      · exact hasRoom_of_single rfl (reaches_skip _)
      · exact hasRoom_of_single (queued_afterAngle _ _ _) (reaches_enter _ _ _ _)
      · exact hasRoom_of_single (queued_operator _ _ _) (reaches_operator _ _ _)
      · exact hasRoom_plain _ _ _ _

end Piece

end BasicLexis
