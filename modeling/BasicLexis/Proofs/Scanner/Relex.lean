import BasicLexis.Proofs.Piece.Alone
import BasicLexis.Proofs.Scanner.Order

set_option autoImplicit false

/-! # Reading the text of a literal again

Where a literal ends depends on what follows it: a dot belongs to a number if a digit comes next, an
`E` if an exponent does, a quotation mark ends a string unless a second one follows. A new scanner on
the text of the literal alone has none of this to look at, and finds the same literal nevertheless.

A literal that a scanner produces is the one at some place of the source, because no literal waits in
the queue; and a new scanner starts outside of XML literals, so that it reads the literal at its
start, whatever steers it. That these are the same is a fact about the two places. -/

namespace BasicLexis

open Reader

/-- The second token of a piece is a character by itself. -/
theorem Piece.Second.noLiteral {p : Piece} {t : Token} {start : Reader} (h : p.Second t start) :
    t.kind.isLiteral = false := by
  rcases h.kind with kind | kind <;> rw [kind] <;> rfl

/-- A section after a complete literal is a comment or character data. -/
theorem XmlMode.noLiteral_of_trailing? {m : XmlMode} {r : Reader} {p : Piece}
    (h : m.trailing? r = some p) : p.NoLiteral := by
  unfold trailing? at h
  split at h
  · obtain ⟨inside, -, rfl⟩ := Option.map_eq_some_iff.1 h
    obtain ⟨t, token, kind | kind⟩ :=
      Piece.token_markupSection (r.skipWhile Text.isMarkupBlank) inside
    all_goals exact Piece.noLiteral_of_some token (by rw [kind]; rfl)
  · cases h

namespace Scanner

variable {σ : Type}

theorem noLiteral_endToken (s : Scanner σ) : s.endToken.kind.isLiteral = false := by
  rw [kind_endToken]
  split <;> rfl

/-! ## Literals in the source -/

/-- A literal that is read outside of XML literals is the one at the place of the scanner. -/
theorem literalAt_step {s s' : Scanner σ} {t : Token} (outside : s.mode.leave.active = false)
    (step : s.step = (some t, s')) (literal : t.kind.isLiteral = true) :
    Piece.LiteralAt s.reader t := by
  unfold Scanner.step at step
  split at step
  · next piece trailing =>
    have other := XmlMode.noLiteral_of_trailing? trailing t (Prod.mk.inj step).1
    rw [other] at literal
    cases literal
  · dsimp only at step
    split at step
    · cases step
      rw [s.noLiteral_endToken] at literal
      cases literal
    · next c r read => exact Piece.findsLiteral_next read outside t (Prod.mk.inj step).1 literal

/-- Pieces without a token do not lead into an XML literal. -/
theorem outside_of_silent {s s' : Scanner σ} (outside : s.mode.leave.active = false)
    (step : s.step = (none, s')) : s'.mode.leave.active = false := by
  have modes := modeStep_step step
  generalize s'.mode = m at modes
  cases modes with
  | inside => exact outside
  | outside =>
    rw [XmlMode.leave_of_inactive outside]
    exact outside

/-- A literal that is read outside of XML literals is the one at some place. -/
theorem literalAt_lex {s : Scanner σ} (outside : s.mode.leave.active = false)
    (literal : s.lex.1.kind.isLiteral = true) : ∃ start, Piece.LiteralAt start s.lex.1 := by
  fun_induction Scanner.lex s with
  | case1 s t s' step => exact ⟨s.reader, literalAt_step outside step literal⟩
  | case2 s s' step ih => exact ih (outside_of_silent outside step) literal

variable [Steering σ]

/-- The account of a run, after any number of tokens. -/
theorem exists_record_after (steering : σ) (tags : List String) (source : List Char) (n : Nat) :
    ∃ tokens parts, Record source tokens ((Scanner.start steering tags source).after n) parts := by
  induction n with
  | zero => exact ⟨[], [], .start steering tags source⟩
  | succ n ih =>
    obtain ⟨tokens, parts, record⟩ := ih
    cases ended : ((Scanner.start steering tags source).after n).ended with
    | some l =>
      refine ⟨tokens, parts, ?_⟩
      rw [after, produce_eq_of_ended ended]
      exact record
    | none =>
      obtain ⟨⟨parts', record'⟩, -⟩ := record.produce ended
      exact ⟨_, parts', record'⟩

/-- A literal that a scanner produces outside of XML literals is the one at some place. -/
theorem Record.literalAt {source : List Char} {tokens : List Token} {s : Scanner σ}
    {parts : List Part} (h : Record source tokens s parts) (outside : s.mode.leave.active = false)
    (literal : s.produce.1.kind.isLiteral = true) :
    ∃ start, Piece.LiteralAt start s.produce.1 := by
  cases ended : s.ended with
  | some l =>
    rw [produce_eq_of_ended ended] at literal
    cases literal
  | none =>
    cases waiting : s.queue with
    | cons t queue =>
      obtain ⟨part, -, queued⟩ := h.queue t (by simp [waiting])
      rw [produce_eq_of_cons ended waiting, (part.shape.second queued).noLiteral] at literal
      cases literal
    | nil =>
      rw [produce_eq_of_nil ended waiting] at literal ⊢
      exact literalAt_lex outside literal

/-! ## Literals by themselves -/

/-- A new scanner produces the literal at the start of its source. -/
theorem produce_start_of_literalAt (steering : σ) (tags : List String) {source : List Char}
    {t : Token} (h : Piece.LiteralAt (.ofText source) t) :
    (Scanner.start steering tags source).produce.1 = t := by
  cases source with
  | nil => exact absurd rfl h.peek_ne_none
  | cons c cs =>
    have token : (Scanner.start steering tags (c :: cs)).step.1 = some t := by
      -- there is no complete literal that a section could belong to
      show (Piece.next _ {} c _ _).1.token = some t
      exact h.next rfl rfl
    rw [produce_eq_of_nil rfl rfl, lex_of_token (Prod.ext token rfl)]

/-- **The text of a literal is read as the same literal.** Whatever steers the scanner of a source,
    if a token of it is a number, a string, a character or a date that is read outside of XML
    literals, malformed or not, then the first token of a new scanner on the text of that token has
    the same kind, text, value and format, whatever steers the new scanner. -/
theorem literal_relexed {τ : Type} [Steering τ] (steering : σ) (tags : List String)
    (source : List Char) (n : Nat) (again : τ) (tags' : List String) :
    let s : Scanner σ := (Scanner.start steering tags source).after n
    s.mode.leave.active = false → s.produce.1.kind.isLiteral = true →
      (Scanner.start again tags' s.produce.1.text.toList).produce.1.lexeme
        = s.produce.1.lexeme := by
  intro s outside literal
  obtain ⟨tokens, parts, record⟩ := exists_record_after steering tags source n
  obtain ⟨start, here⟩ := record.literalAt outside literal
  obtain ⟨stop, reaches, text, alone⟩ := here.alone
  obtain ⟨t, there, same⟩ := alone reaches.cut
  rw [text, String.toList_ofList, produce_start_of_literalAt again tags' there]
  exact same

/-- The dot that follows the number is not part of its text, and is not needed to find it again. -/
theorem literal_relexed_before_dot :
    let s := Scanner.start (σ := FixedHints) ⟨{}⟩ [] ['1', 'e', '5', '.', 'x']
    s.produce.1.kind = .literalDouble
      ∧ (Scanner.start (σ := Classifier) {} [] s.produce.1.text.toList).produce.1.lexeme
        = s.produce.1.lexeme :=
  ⟨by decide +kernel, literal_relexed _ _ _ 0 _ _ (by decide +kernel) (by decide +kernel)⟩

end Scanner

end BasicLexis
