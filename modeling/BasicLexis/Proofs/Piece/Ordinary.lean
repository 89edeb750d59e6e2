import BasicLexis.Piece.Standard

set_option autoImplicit false

/-! # Ordinary pieces hold no markup

Outside of XML literals, the tokens of a piece are markup only where a literal begins or where an
embedded expression ends. Everything else is an ordinary piece: words, literals, operators and the
ends of lines, and what waits in the queue after them. -/

namespace BasicLexis

/-! ## Numeric literals -/

namespace Numeral

/-- The literal and the dot after it are no markup. -/
structure Ordinary (n : Numeral) : Prop where
  token : n.token.kind.isXml = false
  dot : ∀ t, n.dot = some t → t.kind.isXml = false

theorem ordinary_of_whole {n : Numeral} (token : n.token.kind.isXml = false)
    (whole : n.dot = none) : Ordinary n := by
  refine ⟨token, fun t ht => ?_⟩
  rw [whole] at ht
  cases ht

theorem ordinary_integer (start stop : Reader) (radix : Radix) (digits : List Char)
    (type : Option IntegerType) (diagnostics : List Diagnostic) :
    Ordinary (integer start stop radix digits type diagnostics) := by
  unfold integer
  split <;> exact ordinary_of_whole rfl rfl

theorem ordinary_real (start stop : Reader) (parts : Parts) (type : RealType) :
    Ordinary (real start stop parts type) := by
  unfold real
  cases type with
  | double | single => exact ordinary_of_whole rfl rfl
  | decimal =>
    dsimp only
    split <;> exact ordinary_of_whole rfl rfl

theorem ordinary_tail (start r : Reader) (integral fraction : List Char) :
    Ordinary (tail start r integral fraction) := by
  unfold tail
  dsimp only
  split
  · exact ordinary_real _ _ _ _
  · split
    · exact ordinary_integer _ _ _ _ _ _
    · exact ordinary_real _ _ _ _

theorem ordinary_decimal (start : Reader) : Ordinary (decimal start) := by
  unfold decimal
  dsimp only
  split
  · split
    · exact ordinary_tail _ _ _ _
    · split
      · refine ⟨(ordinary_integer _ _ _ _ _ _).token, ?_⟩
        intro t ht
        cases ht
        rfl
      · exact ordinary_tail _ _ _ _
  · exact ordinary_tail _ _ _ _

theorem ordinary_scan (r : Reader) : Ordinary (scan r) := by
  unfold scan radixInteger
  dsimp only
  repeat' split
  all_goals first
    | exact ordinary_decimal r
    | exact ordinary_integer _ _ _ _ _ _
    | exact ordinary_of_whole rfl rfl

end Numeral

/-! ## Other pieces -/

namespace Piece

/-- The tokens of the piece are no markup. -/
structure Ordinary (p : Piece) : Prop where
  token : ∀ t, p.token = some t → t.kind.isXml = false
  queued : ∀ t, p.queued = some t → t.kind.isXml = false

/-- A piece of at most one token. -/
theorem ordinary_of_single {p : Piece} (token : ∀ t, p.token = some t → t.kind.isXml = false)
    (single : p.queued = none) : Ordinary p := by
  refine ⟨token, fun t ht => ?_⟩
  rw [single] at ht
  cases ht

theorem ordinary_of_silent {p : Piece} (token : p.token = none) (single : p.queued = none) :
    Ordinary p := by
  refine ordinary_of_single (fun t ht => ?_) single
  rw [token] at ht
  cases ht

theorem ordinary_symbol {kind : TokenKind} (h : kind.isXml = false) (start rest : Reader) :
    Ordinary (symbol kind start rest) :=
  ordinary_of_single (fun t ht => by cases ht; exact h) rfl

theorem ordinary_word {kind : TokenKind} (h : kind.isXml = false) (start rest : Reader)
    (text : List Char) (entries : List Entry) : Ordinary (word kind start rest text entries) :=
  ordinary_of_single (fun t ht => by cases ht; exact h) rfl

theorem ordinary_literal {kind : TokenKind} (h : kind.isXml = false) (start rest : Reader)
    (value : LiteralValue) (format : LiteralFormat) (entries : List Entry) :
    Ordinary (literal kind start rest value format entries) :=
  ordinary_of_single (fun t ht => by cases ht; exact h) rfl

theorem ordinary_endOfLine (freshLine : Bool) (start : Location) (rest : Reader)
    (entries : List Entry) : Ordinary (endOfLine freshLine start rest entries) := by
  refine ordinary_of_single (fun t ht => ?_) rfl
  unfold endOfLine at ht
  dsimp only at ht
  split at ht <;> cases ht
  rfl

theorem ordinary_comment (s : Setting) (quoted : Bool) (start r : Reader) :
    Ordinary (comment s quoted start r) :=
  ordinary_endOfLine _ _ _ _

/-- A second token that waits for its turn. -/
theorem Ordinary.withQueued {p : Piece} (h : Ordinary p) {queued : Option Token}
    (second : ∀ t, queued = some t → t.kind.isXml = false) : Ordinary { p with queued } :=
  ⟨h.token, second⟩

/-- The exclamation mark after a word. -/
theorem ordinary_wordEnd (r : Reader) :
    ∀ t, (wordEnd r).access = some t → t.kind.isXml = false := by
  intro t ht
  unfold wordEnd at ht
  dsimp only at ht
  repeat' split at ht
  all_goals
    cases ht
    try rfl

theorem ordinary_name (s : Setting) (start r : Reader) : Ordinary (name s start r) := by
  unfold name
  split
  · exact ordinary_word rfl _ _ _ _
  · refine .withQueued (p := word .identifier _ _ _ _) ?_ (ordinary_wordEnd _)
    exact ordinary_word rfl _ _ _ _

theorem ordinary_letters (s : Setting) (start r : Reader) : Ordinary (letters s start r) := by
  unfold letters
  split
  · exact ordinary_name s start r
  · dsimp only
    split
    · exact (ordinary_comment s _ start _).withQueued (ordinary_wordEnd _)
    · refine .withQueued (p := word (.keyword _) _ _ _ _) ?_ (ordinary_wordEnd _)
      exact ordinary_word rfl _ _ _ _
    · exact ordinary_name s start r

theorem ordinary_string (start r : Reader) : Ordinary (string start r) := by
  unfold string character
  dsimp only
  repeat' split
  all_goals exact ordinary_literal rfl _ _ _ _ _

theorem ordinary_numberSign (s : Setting) (start r : Reader) :
    Ordinary (numberSign s start r) := by
  unfold numberSign date directive
  dsimp only
  repeat' split
  all_goals first
    | exact ordinary_literal rfl _ _ _ _ _
    | exact ordinary_endOfLine _ _ _ _

theorem ordinary_operator (c : Char) (start r : Reader) : Ordinary (operator c start r) := by
  unfold operator
  split
  · next kind rest h =>
    refine ordinary_symbol ?_ _ _
    unfold operatorKind? orAssign afterLess afterGreater afterDot orAssign at h
    repeat' split at h
    all_goals first
      | (cases h; rfl)
      | cases h
  · exact ordinary_of_silent rfl rfl

theorem ordinary_plain (s : Setting) (c : Char) (start r : Reader) :
    Ordinary (plain s c start r) := by
  unfold plain
  split
  · unfold blank
    split
    · exact ordinary_endOfLine _ _ _ _
    · exact ordinary_of_silent rfl rfl
  split
  · unfold underscore continuation
    dsimp only
    repeat' split
    all_goals first
      | exact ordinary_name s start r
      | exact ordinary_of_silent rfl rfl
  split
  · exact ordinary_numberSign s start r
  split
  · exact ordinary_word rfl _ _ _ _
  split
  · exact ordinary_string start r
  split
  · exact ordinary_comment s _ start r
  split
  · exact ordinary_letters s start r
  · exact ordinary_operator c start r

end Piece

end BasicLexis
