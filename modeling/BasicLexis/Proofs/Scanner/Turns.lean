import BasicLexis.Proofs.Markup.Literal
import BasicLexis.Proofs.Piece.Ordinary

set_option autoImplicit false

/-! # What a token does to the open literals

Between two tokens the scanner has a mode: the XML literals that are open, and whether the next
piece belongs to the innermost of them. `Turn` says what a token can do to the mode, however many
pieces without a token come before it: it follows a complete literal, belongs to one, suspends one
for an embedded expression or resumes it, opens one, or is a token of ordinary source. It also says
that the classifier's frame of a literal can follow a token whenever the scanner's frame does. -/

namespace BasicLexis

open Markup

/-! ## Pieces of a literal -/

namespace Piece

/-- What the classifier can make of a piece that the scanner takes for a part of a literal: the
    piece has no token, or the classifier's frame follows it, or it starts an embedded
    expression. -/
inductive Followed (f : MarkupFrame) (m : MarkupPiece) : Prop where
  | silent (token : m.piece.token = none) (goesOn : m.goesOn = true) (frame : m.frame = f)
  | markup {t : Token} (token : m.piece.token = some t) (goesOn : m.goesOn = true)
      (follows : (mirror f).after? t.kind = some (mirror m.frame))
  | embeds {t : Token} (token : m.piece.token = some t) (goesOn : m.goesOn = false)
      (start : t.kind = .xmlExpressionStart) (frame : m.frame = f)

/-- A section is a comment or character data. -/
theorem token_markupSection (start r : Reader) :
    ∃ t, (markupSection start r).token = some t ∧ (t.kind = .xmlComment ∨ t.kind = .xmlCData) := by
  unfold markupSection sectionTo
  repeat' split
  all_goals first
    | exact ⟨_, rfl, .inl rfl⟩
    | exact ⟨_, rfl, .inr rfl⟩

/-- What can follow a less-than sign. -/
theorem kind_afterAngle (f : MarkupFrame) (start r : Reader) :
    ∃ t, (afterAngle f start r).piece.token = some t
      ∧ (t.kind = .xmlOpenEndTag ∨ t.kind = .xmlExpressionStart
        ∨ Classifier.startsXmlLiteral t.kind = true) := by
  unfold afterAngle
  split
  · exact ⟨_, rfl, .inl rfl⟩
  · exact ⟨_, rfl, .inr (.inr rfl)⟩
  · obtain ⟨t, token, kind⟩ := token_markupSection start r.skip
    refine ⟨t, token, .inr (.inr ?_)⟩
    rcases kind with kind | kind <;> rw [kind] <;> rfl
  · split
    · exact ⟨_, rfl, .inr (.inl rfl)⟩
    · exact ⟨_, rfl, .inr (.inr rfl)⟩

theorem followed_afterAngle (f : MarkupFrame) (start r : Reader) :
    Followed f (afterAngle f start r) := by
  unfold afterAngle
  split
  · exact .markup rfl rfl rfl
  · exact .markup rfl rfl rfl
  · obtain ⟨t, token, kind⟩ := token_markupSection start r.skip
    refine .markup token rfl ?_
    dsimp only
    rw [token]
    rcases kind with kind | kind <;> rw [Option.any_some, kind] <;> rfl
  · split
    · exact .embeds rfl rfl rfl rfl
    · exact .markup rfl rfl rfl

theorem followed_inTag (f : MarkupFrame) (c : Char) (start r : Reader) :
    Followed f (inTag f c start r) := by
  unfold inTag
  split
  · exact .markup rfl rfl rfl
  split
  · exact .markup rfl rfl rfl
  split
  · exact .markup rfl rfl rfl
  split
  · exact .markup rfl rfl rfl
  split
  · exact .markup rfl rfl rfl
  split
  · exact .silent rfl rfl rfl
  · exact .markup rfl rfl rfl

theorem followed_markup (f : MarkupFrame) (c : Char) (start r : Reader) :
    Followed f (markup f c start r) := by
  unfold markup
  split
  · exact followed_afterAngle f start r
  · split
    · exact followed_inTag f c start r
    · exact .markup rfl rfl rfl

end Piece

/-! ## Turns -/

/-- What the next token can do to a mode, with the given hints on how to read it and after the last
    token. -/
inductive Turn (hints : Hints) (last : Option TokenKind) (m : XmlMode) :
    TokenKind → XmlMode → Prop where
  /-- A section after a complete literal. -/
  | trailing {kind : TokenKind} (complete : m.isComplete = true)
      (kind_ : kind = .xmlComment ∨ kind = .xmlCData) : Turn hints last m kind m
  /-- A part of a literal. -/
  | markup {f f' : MarkupFrame} {outer : List MarkupFrame} {kind : TokenKind}
      (mode : m = ⟨true, f :: outer⟩) (incomplete : f.isComplete = false)
      (follows : (mirror f).after? kind = some (mirror f')) :
      Turn hints last m kind ⟨true, f' :: outer⟩
  /-- The start of an embedded expression. -/
  | embeds {f : MarkupFrame} {outer : List MarkupFrame} (mode : m = ⟨true, f :: outer⟩)
      (incomplete : f.isComplete = false) :
      Turn hints last m .xmlExpressionStart ⟨false, f :: outer⟩
  /-- The end of the source in a literal. -/
  | unclosed {f : MarkupFrame} {outer : List MarkupFrame} {kind : TokenKind}
      (mode : m = ⟨true, f :: outer⟩) (incomplete : f.isComplete = false)
      (ends : last ≠ some .eol → kind = .eol) : Turn hints last m kind m
  /-- The end of an embedded expression. -/
  | resumes (outside : m.leave.active = false) :
      Turn hints last m .xmlExpressionEnd m.leave.resume
  /-- The first part of a literal. -/
  | enters {f : MarkupFrame} {kind : TokenKind} (outside : m.leave.active = false)
      (mayStart : (hints.xmlMayStart || hints.singleTagNext) = true)
      (opens : kind = .xmlOpenEndTag ∨ Classifier.startsXmlLiteral kind = true)
      (follows : (mirror (.new hints.singleTagNext)).after? kind = some (mirror f)) :
      Turn hints last m kind ⟨true, f :: m.leave.literals⟩
  /-- An embedded expression in the place of a literal. -/
  | misplaced {literals : List MarkupFrame} (outside : m.leave.active = false)
      (mayStart : (hints.xmlMayStart || hints.singleTagNext) = true) :
      Turn hints last m .xmlExpressionStart ⟨false, literals⟩
  /-- A token of ordinary source. -/
  | ordinary {kind : TokenKind} (outside : m.leave.active = false) (plain : kind.isXml = false) :
      Turn hints last m kind m.leave
  /-- There is no literal that the piece could belong to. -/
  | astray {kind : TokenKind} {m' : XmlMode} (active : m.active = true) (none_ : m.literals = []) :
      Turn hints last m kind m'

theorem XmlMode.leave_of_inactive {m : XmlMode} (h : m.active = false) : m.leave = m := by
  unfold leave isComplete
  rw [h]
  rfl

/-- Only a complete literal is left. -/
theorem XmlMode.leave_of_active {m : XmlMode} (h : m.leave.active = true) :
    m.leave = m ∧ m.isComplete = false := by
  unfold leave at h ⊢
  split
  · next complete =>
    rw [if_pos complete] at h
    cases h
  · next open_ => exact ⟨rfl, Bool.eq_false_iff.2 open_⟩

/-- A mode that is left before the token. -/
theorem Turn.of_leave {hints : Hints} {last : Option TokenKind} {m m' : XmlMode} {kind : TokenKind}
    (outside : m.leave.active = false) (h : Turn hints last m.leave kind m') :
    Turn hints last m kind m' := by
  have same := XmlMode.leave_of_inactive outside
  have inactive {f : MarkupFrame} {outer : List MarkupFrame} : m.leave ≠ ⟨true, f :: outer⟩ := by
    intro mode
    rw [mode] at outside
    cases outside
  cases h with
  | trailing complete _ =>
    rw [XmlMode.isComplete, outside] at complete
    cases complete
  | markup mode => exact absurd mode inactive
  | embeds mode => exact absurd mode inactive
  | unclosed mode => exact absurd mode inactive
  | astray active =>
    rw [outside] at active
    cases active
  | resumes _ =>
    rw [same]
    exact .resumes outside
  | enters _ mayStart opens follows =>
    rw [same]
    exact .enters outside mayStart opens follows
  | misplaced _ mayStart => exact .misplaced outside mayStart
  | ordinary _ plain =>
    rw [same]
    exact .ordinary outside plain

/-- Outside of XML literals, and where none may start, the only markup is the mark that ends an
    embedded expression. -/
theorem Turn.xml_of_outside {hints : Hints} {last : Option TokenKind} {m m' : XmlMode}
    {kind : TokenKind} (h : Turn hints last m kind m') (outside : m.active = false)
    (mayNotStart : (hints.xmlMayStart || hints.singleTagNext) = false) (xml : kind.isXml = true) :
    kind = .xmlExpressionEnd := by
  have inactive {f : MarkupFrame} {outer : List MarkupFrame} : m ≠ ⟨true, f :: outer⟩ := by
    intro mode
    rw [mode] at outside
    cases outside
  cases h with
  | trailing complete _ =>
    rw [XmlMode.isComplete, outside] at complete
    cases complete
  | markup mode => exact absurd mode inactive
  | embeds mode => exact absurd mode inactive
  | unclosed mode => exact absurd mode inactive
  | resumes => rfl
  | enters _ mayStart | misplaced _ mayStart =>
    rw [mayNotStart] at mayStart
    cases mayStart
  | ordinary _ plain =>
    rw [plain] at xml
    cases xml
  | astray active =>
    rw [outside] at active
    cases active

namespace Scanner

variable {σ : Type}

/-- What a piece does to the mode. -/
inductive ModeStep (s : Scanner σ) : Option Token → XmlMode → Prop where
  | token {t : Token} {m : XmlMode} (turn : Turn s.hints s.last s.mode t.kind m) :
    ModeStep s (some t) m
  | inside : ModeStep s none s.mode
  | outside (h : s.mode.leave.active = false) : ModeStep s none s.mode.leave

theorem modeStep_read {s : Scanner σ} (active : s.mode.active = true)
    (open_ : s.mode.isComplete = false) (c : Char) (start r : Reader) :
    ModeStep s (s.mode.read c start r).1.token (s.mode.read c start r).2 := by
  unfold XmlMode.read
  split
  · next f outer literals =>
    have mode : s.mode = ⟨true, f :: outer⟩ := by rw [← active, ← literals]
    have incomplete : f.isComplete = false := by simpa [XmlMode.isComplete, mode] using open_
    dsimp only
    cases Piece.followed_markup f c start r with
    | silent token goesOn frame =>
      rw [token, goesOn, frame, ← mode]
      exact .inside
    | markup token goesOn follows =>
      rw [token, goesOn]
      exact .token (.markup mode incomplete follows)
    | embeds token goesOn kind frame =>
      rw [token, goesOn, frame]
      refine .token ?_
      rw [kind]
      exact .embeds mode incomplete
  · next literals => exact .token (.astray active literals)

theorem modeStep_ordinary {s : Scanner σ} {p : Piece} (outside : s.mode.leave.active = false)
    (h : p.Ordinary) : ModeStep s p.token s.mode.leave := by
  cases token : p.token with
  | none => exact .outside outside
  | some t => exact .token (.ordinary outside (h.token t token))

theorem modeStep_standard {s : Scanner σ} (outside : s.mode.leave.active = false) (c : Char)
    (start r : Reader) :
    ModeStep s (Piece.standard s.setting s.mode.leave c start r).1.token
      (Piece.standard s.setting s.mode.leave c start r).2 := by
  unfold Piece.standard
  split
  · exact .token (.resumes outside)
  split
  · next opens =>
    have mayStart : (s.hints.xmlMayStart || s.hints.singleTagNext) = true := opens.2
    split
    · show ModeStep s (Piece.afterAngle (.new s.hints.singleTagNext) start r).piece.token
        ⟨(Piece.afterAngle (.new s.hints.singleTagNext) start r).goesOn,
          (Piece.afterAngle (.new s.hints.singleTagNext) start r).frame :: s.mode.leave.literals⟩
      obtain ⟨t, found, kinds⟩ := Piece.kind_afterAngle (.new s.hints.singleTagNext) start r
      cases Piece.followed_afterAngle (.new s.hints.singleTagNext) start r with
      | silent token goesOn frame =>
        rw [found] at token
        cases token
      | markup token goesOn follows =>
        rw [found] at token
        cases token
        rw [found, goesOn]
        rcases kinds with close | embeds | opens
        · exact .token (.enters outside mayStart (.inl close) follows)
        · rw [embeds] at follows
          cases follows
        · exact .token (.enters outside mayStart (.inr opens) follows)
      | embeds token goesOn kind frame =>
        rw [token, goesOn]
        refine .token ?_
        rw [kind]
        exact .misplaced outside mayStart
    · exact modeStep_ordinary outside ⟨(Piece.ordinary_operator c start r).token,
        (Piece.ordinary_operator c start r).queued⟩
  · exact modeStep_ordinary outside (Piece.ordinary_plain s.setting c start r)

theorem modeStep_next (s : Scanner σ) (c : Char) (start r : Reader) :
    ModeStep s (Piece.next s.setting s.mode.leave c start r).1.token
      (Piece.next s.setting s.mode.leave c start r).2 := by
  unfold Piece.next
  split
  · next active =>
    obtain ⟨same, open_⟩ := XmlMode.leave_of_active active
    rw [same] at active ⊢
    exact modeStep_read active open_ c start r
  · next outside =>
    have outside : s.mode.leave.active = false := Bool.eq_false_iff.2 outside
    split
    · refine modeStep_ordinary outside ⟨?_, (Numeral.ordinary_scan start).dot⟩
      intro t ht
      cases ht
      exact (Numeral.ordinary_scan start).token
    · exact modeStep_standard outside c start r

theorem modeStep_step {s s' : Scanner σ} {token : Option Token} (h : s.step = (token, s')) :
    ModeStep s token s'.mode := by
  unfold step at h
  split at h
  · next piece trailing =>
    obtain ⟨rfl, rfl⟩ := Prod.mk.inj h
    unfold XmlMode.trailing? at trailing
    split at trailing
    · next complete =>
      obtain ⟨inside, -, rfl⟩ := Option.map_eq_some_iff.1 trailing
      obtain ⟨t, token, kind⟩ := Piece.token_markupSection
        (s.reader.skipWhile Text.isMarkupBlank) inside
      rw [token]
      exact .token (.trailing complete kind)
    · cases trailing
  · dsimp only at h
    split at h
    · -- the source is read to its end, possibly in the middle of a literal
      obtain ⟨rfl, rfl⟩ := Prod.mk.inj h
      refine .token ?_
      have kinds : s.endToken.kind.isXml = false
          ∧ (s.last ≠ some .eol → s.endToken.kind = .eol) := by
        unfold endToken
        dsimp only
        split
        · next ended => exact ⟨rfl, fun open_ => absurd ended open_⟩
        · exact ⟨rfl, fun _ => rfl⟩
      cases outside : s.mode.leave.active with
      | false => exact .ordinary outside kinds.1
      | true =>
        obtain ⟨same, open_⟩ := XmlMode.leave_of_active outside
        dsimp only
        rw [same] at outside ⊢
        cases literals : s.mode.literals with
        | nil => exact .astray outside literals
        | cons f outer =>
          have mode : s.mode = ⟨true, f :: outer⟩ := by rw [← outside, ← literals]
          refine .unclosed mode ?_ kinds.2
          simpa [XmlMode.isComplete, mode] using open_
    · obtain ⟨rfl, rfl⟩ := Prod.mk.inj h
      exact modeStep_next s _ _ _

/-- Pieces leave alone what steers the scanner, its hints and what was produced. -/
theorem kept_of_step {s s' : Scanner σ} {token : Option Token} (h : s.step = (token, s')) :
    s'.steering = s.steering ∧ s'.hints = s.hints ∧ s'.last = s.last ∧ s'.ended = s.ended := by
  unfold step at h
  split at h
  · obtain ⟨-, rfl⟩ := Prod.mk.inj h
    exact ⟨rfl, rfl, rfl, rfl⟩
  · dsimp only at h
    split at h
    all_goals
      obtain ⟨-, rfl⟩ := Prod.mk.inj h
      exact ⟨rfl, rfl, rfl, rfl⟩

/-- Reading up to the next token. -/
theorem turn_lex (s : Scanner σ) :
    Turn s.hints s.last s.mode s.lex.1.kind s.lex.2.mode
      ∧ s.lex.2.steering = s.steering ∧ s.lex.2.hints = s.hints ∧ s.lex.2.last = s.last
      ∧ s.lex.2.ended = s.ended := by
  fun_induction lex s with
  | case1 s token s' h =>
    cases modeStep_step h with
    | token turn => exact ⟨turn, kept_of_step h⟩
  | case2 s s' h ih =>
    obtain ⟨turn, steering, hints, last, ended⟩ := ih
    obtain ⟨steering', hints', last', ended'⟩ := kept_of_step h
    rw [hints', last'] at turn
    refine ⟨?_, steering.trans steering', hints.trans hints', last.trans last', ended.trans ended'⟩
    generalize mode : s'.mode = m at turn
    have := modeStep_step h
    rw [mode] at this
    cases this with
    | inside => exact turn
    | outside outside => exact turn.of_leave outside

end Scanner

end BasicLexis
