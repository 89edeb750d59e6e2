import BasicLexis.Proofs.Markup.Reading

set_option autoImplicit false

/-! # Following XML literals

Inside a literal the scanner keeps a frame of what is open, and the classifier keeps a frame of its
own that it updates by the tokens alone. `mirror` is the classifier's frame that agrees with the
scanner's; every piece of markup keeps the two in agreement. An embedded expression suspends both:
the scanner reads ordinary source until the closing mark, and the classifier follows an expression
on top of its frame.

From the less-than sign of an element to its last greater-than sign, both are taken back to where
they were, with the tokens of the element produced and nothing noted. -/

namespace BasicLexis.Markup

open Classifier Config

/-! ## The two frames of a literal -/

/-- The classifier's frame for a literal that the scanner has the given frame for. -/
def mirror (f : MarkupFrame) : XmlLiteral :=
  { level := f.level, inTag := f.inTag, inCloseTag := f.inCloseTag, wasComment := f.wasComment
    wasInstruction := f.wasInstruction, started := true }

theorem isComplete_mirror (f : MarkupFrame) : (mirror f).isComplete = f.isComplete := by
  simp only [mirror, XmlLiteral.isComplete, MarkupFrame.isComplete, Bool.true_and, Bool.not_false,
    Bool.and_true]
  rfl

/-- Inside a literal, with others around it and other frames below it. -/
def inside (f : MarkupFrame) (outer : List MarkupFrame) (below : List Frame) (text : List Char) :
    Config :=
  { text, mode := ⟨true, f :: outer⟩, stack := .xmlLiteral (mirror f) :: below }

/-- Outside of the scanner's literals, while the classifier follows an expression. -/
def operand (outer : List MarkupFrame) (started continued : Bool) (below : List Frame)
    (text : List Char) : Config :=
  { text, mode := ⟨false, outer⟩, stack := .expression ⟨.operand, started, continued⟩ :: below }

/-- A literal that is not complete takes a piece of markup. -/
theorem move_markup {x x' : XmlLiteral} {kind : TokenKind} (incomplete : x.isComplete = false)
    (follows : { x with started := true }.after? kind = some x') :
    (Frame.xmlLiteral x).move kind = .consume (.xmlLiteral x') := by
  have notStart : kind ≠ .xmlExpressionStart := by
    rintro rfl
    cases follows
  show x.offer kind = _
  simp only [XmlLiteral.offer, incomplete, Bool.false_eq_true, if_false, notStart, follows]

theorem passWithin?_markup {x x' : XmlLiteral} {kind : TokenKind}
    (incomplete : x.isComplete = false)
    (follows : { x with started := true }.after? kind = some x') (below : List Frame) :
    passWithin? kind (.xmlLiteral x :: below) = some (.xmlLiteral x' :: below) := by
  rw [passWithin?, walk?, move_markup incomplete follows]
  rfl

/-- The scanner stays in a literal that is not complete. -/
theorem stays_inside {f : MarkupFrame} (incomplete : f.isComplete = false)
    (outer : List MarkupFrame) :
    (∀ r : Reader, XmlMode.trailing? ⟨true, f :: outer⟩ r = none)
      ∧ XmlMode.leave ⟨true, f :: outer⟩ = ⟨true, f :: outer⟩ := by
  have open_ : XmlMode.isComplete ⟨true, f :: outer⟩ = false := by
    simp [XmlMode.isComplete, incomplete]
  constructor
  · intro r
    rw [XmlMode.trailing?, open_, if_neg Bool.false_ne_true]
  · rw [XmlMode.leave, open_, if_neg Bool.false_ne_true]

theorem next_inside {f : MarkupFrame} (incomplete : f.isComplete = false)
    (outer : List MarkupFrame) (s : Setting) (c : Char) (start r : Reader) :
    Piece.next s (XmlMode.leave ⟨true, f :: outer⟩) c start r
      = ((Piece.markup f c start r).piece,
        ⟨(Piece.markup f c start r).goesOn, (Piece.markup f c start r).frame :: outer⟩) := by
  rw [(stays_inside incomplete outer).2]
  rfl

/-- A piece of markup that the scanner reads and the classifier follows. -/
theorem yields_markup {f f' : MarkupFrame} {outer : List MarkupFrame} {below : List Frame}
    {c : Char} {cs text : List Char} {l : Lexeme} (incomplete : f.isComplete = false)
    (reads : ∀ (n : Nat) (l₁ l₂ : Location),
      Piece.MarkupReads (Piece.markup f c ⟨c :: cs, n, l₁⟩ ⟨cs, n + 1, l₂⟩) l text f')
    (follows : (mirror f).after? l.kind = some (mirror f')) :
    (inside f outer below (c :: cs)).Yields [l] (inside f' outer below text) := by
  -- no piece of markup ends a line or the source
  have notEnd : l.kind ≠ .eof := by
    intro h
    rw [h] at follows
    cases follows
  have inner : (l.kind == .eol) = false := by
    rw [beq_eq_false_iff_ne]
    intro h
    rw [h] at follows
    cases follows
  have leaves := (stays_inside incomplete outer).1
  have passed := passWithin?_markup ((isComplete_mirror f).trans incomplete) follows below
  have yields : (inside f outer below (c :: cs)).Yields [l]
      ⟨text, ⟨true, f' :: outer⟩, .xmlLiteral (mirror f') :: below, l.kind == .eol⟩ := by
    refine yields_piece rfl (fun _ _ => leaves _) ?_ notEnd passed
    intro tags n l₁ l₂
    obtain ⟨piece, frame, goesOn⟩ := reads n l₁ l₂
    show ReadsAs (Piece.next _ (XmlMode.leave ⟨true, f :: outer⟩) _ _ _) _ _ _
    rw [next_inside incomplete, goesOn, frame]
    exact ⟨piece, rfl⟩
  rw [inner] at yields
  exact yields

/-! ## Tags -/

section Tags

variable {f : MarkupFrame} {outer : List MarkupFrame} {below : List Frame}

/-- A literal is not complete inside a tag. -/
theorem incomplete_of_tag (h : f.inTag = true ∨ f.inCloseTag = true) : f.isComplete = false := by
  rcases h with h | h <;> simp [MarkupFrame.isComplete, h]

/-- A literal is not complete while an element is open. -/
theorem incomplete_of_level (h : 0 < f.level) : f.isComplete = false := by
  have open_ : ¬f.level ≤ 0 := Int.not_le.2 h
  simp [MarkupFrame.isComplete, open_]

/-- The less-than sign of an opening tag inside the literal. -/
theorem yields_openTag (h : f.isComplete = false) {c : Char} (letter : Text.isAlphabetic c = true)
    (cs : List Char) :
    (inside f outer below ('<' :: c :: cs)).Yields [.symbol .xmlOpenTag]
      (inside { f with
        level := f.level + 1, inTag := true, wasComment := false, wasInstruction := false }
        outer below (c :: cs)) :=
  yields_markup h (fun n l₁ l₂ => Piece.reads_openTag f n l₁ l₂ letter cs) rfl

theorem yields_closeEmptyTag (h : f.inTag = true) (cs : List Char) :
    (inside f outer below ('/' :: '>' :: cs)).Yields [.symbol .xmlCloseEmptyTag]
      (inside { f with inTag := false, level := f.level - 1 } outer below cs) :=
  yields_markup (incomplete_of_tag (.inl h))
    (fun n l₁ l₂ => Piece.reads_closeEmptyTag f n l₁ l₂ h cs) rfl

theorem yields_openEndTag (h : f.isComplete = false) (cs : List Char) :
    (inside f outer below ('<' :: '/' :: cs)).Yields [.symbol .xmlOpenEndTag]
      (inside { f with inCloseTag := true } outer below cs) :=
  yields_markup h (fun n l₁ l₂ => Piece.reads_openEndTag f n l₁ l₂ cs) rfl

theorem yields_closeTag (h : f.inTag = true ∨ f.inCloseTag = true) (cs : List Char) :
    (inside f outer below ('>' :: cs)).Yields [.symbol .xmlCloseTag]
      (inside { level := if f.inCloseTag then f.level - 1 else f.level } outer below cs) :=
  yields_markup (incomplete_of_tag h) (fun n l₁ l₂ => Piece.reads_closeTag f n l₁ l₂ h cs) rfl

theorem yields_name (h : f.inTag = true ∨ f.inCloseTag = true) (name : Name) {rest : List Char}
    (stops : ∀ c, rest.head? = some c → Text.isMarkupNameChar c = false) :
    (inside f outer below (name.chars ++ rest)).Yields [.word .identifier name.chars]
      (inside f outer below rest) :=
  yields_markup (incomplete_of_tag h) (fun n l₁ l₂ => Piece.reads_name f n l₁ l₂ h name stops) rfl

theorem skips_space (h : f.inTag = true) (cs : List Char) :
    (inside f outer below (' ' :: cs)).Skips (inside f outer below cs) := by
  have incomplete := incomplete_of_tag (.inl h)
  refine skips_piece rfl (fun _ _ => (stays_inside incomplete outer).1 _) ?_
  intro tags n l₁ l₂
  obtain ⟨piece, frame, goesOn⟩ := Piece.skips_space f n l₁ l₂ h cs
  show SkipsAs (Piece.next _ (XmlMode.leave ⟨true, f :: outer⟩) _ _ _) _ _
  rw [next_inside incomplete, goesOn, frame]
  exact ⟨piece, rfl⟩

theorem Attribute.yields (a : Attribute) (h : f.inTag = true) (rest : List Char) :
    (inside f outer below (a.print ++ rest)).Yields a.lexemes (inside f outer below rest) := by
  have named : ∀ c, ('=' :: '\x22' :: (a.value ++ '\x22' :: rest)).head? = some c →
      Text.isMarkupNameChar c = false := by
    intro c hc
    cases hc
    decide
  have name : (inside f outer below
      (a.name.chars ++ '=' :: '\x22' :: (a.value ++ '\x22' :: rest))).Yields
      [.word .identifier a.name.chars]
      (inside f outer below ('=' :: '\x22' :: (a.value ++ '\x22' :: rest))) :=
    yields_name (.inl h) a.name named
  have assign : (inside f outer below ('=' :: '\x22' :: (a.value ++ '\x22' :: rest))).Yields
      [.symbol .assign] (inside f outer below ('\x22' :: (a.value ++ '\x22' :: rest))) :=
    yields_markup (incomplete_of_tag (.inl h)) (fun n l₁ l₂ => Piece.reads_assign f n l₁ l₂ h _) rfl
  have text : a.print ++ rest
      = ' ' :: (a.name.chars ++ '=' :: '\x22' :: (a.value ++ '\x22' :: rest)) := by
    simp [Attribute.print]
  rw [text]
  refine .skipping (skips_space h _) (name.trans (assign.trans ?_)) nofun
  exact yields_markup (incomplete_of_tag (.inl h))
    (fun n l₁ l₂ => Piece.reads_attributeValue f n l₁ l₂ h a rest) rfl

theorem attributes_yield (attributes : List Attribute) (h : f.inTag = true) (rest : List Char) :
    (inside f outer below (attributes.flatMap Attribute.print ++ rest)).Yields
      (attributes.flatMap Attribute.lexemes) (inside f outer below rest) := by
  induction attributes with
  | nil => exact .refl _
  | cons a attributes ih =>
    rw [List.flatMap_cons, List.flatMap_cons, List.append_assoc]
    exact (a.yields h _).trans ih

/-- What follows the name of an element belongs to no name. -/
theorem head_attributes (attributes : List Attribute) {c : Char} {cs : List Char}
    (h : Text.isMarkupNameChar c = false) :
    ∀ d, (attributes.flatMap Attribute.print ++ c :: cs).head? = some d →
      Text.isMarkupNameChar d = false := by
  intro d hd
  cases attributes with
  | nil =>
    cases hd
    exact h
  | cons a attributes =>
    cases hd
    decide

/-- The name and the attributes of an opening tag. -/
theorem yields_tag (name : Name) (attributes : List Attribute) (h : f.inTag = true) {c : Char}
    {cs : List Char} (hc : Text.isMarkupNameChar c = false) :
    (inside f outer below
        (name.chars ++ (attributes.flatMap Attribute.print ++ c :: cs))).Yields
      (.word .identifier name.chars :: attributes.flatMap Attribute.lexemes)
      (inside f outer below (c :: cs)) :=
  (yields_name (.inl h) name (head_attributes attributes hc)).trans
    (attributes_yield attributes h _)

end Tags

/-! ## Contents -/

section Contents

variable {f : MarkupFrame} {outer : List MarkupFrame} {below : List Frame}

/-- Character data, which may be absent, before other contents or the closing tag. -/
theorem data_yields (data : Option CharacterData) (h : f.isComplete = false) (tag : f.inTag = false)
    (closeTag : f.inCloseTag = false) (cs : List Char) :
    (inside f outer below (printData data ++ '<' :: cs)).Yields (dataLexemes data)
      (inside f outer below ('<' :: cs)) := by
  cases data with
  | none => exact .refl _
  | some d =>
    exact yields_markup h (fun n l₁ l₂ => Piece.reads_content f n l₁ l₂ tag closeTag d cs) rfl

/-- An embedded expression starts: the scanner suspends the literal, and the classifier follows an
    expression on top of it. -/
theorem yields_expressionStart (h : f.isComplete = false)
    (room : below.length + 1 < Limits.maxFrameDepth) (cs : List Char) :
    (inside f outer below ('<' :: '%' :: '=' :: ' ' :: cs)).Yields [.symbol .xmlExpressionStart]
      (operand (f :: outer) false false
        (.xmlLiteral { mirror f with inExpression := true } :: below) (' ' :: cs)) := by
  have passed : passWithin? .xmlExpressionStart (.xmlLiteral (mirror f) :: below)
      = some (.expression {} :: .xmlLiteral { mirror f with inExpression := true } :: below) := by
    have move : (Frame.xmlLiteral (mirror f)).move .xmlExpressionStart = .consumePush
        (.xmlLiteral { mirror f with inExpression := true }) .newExpression := by
      show (mirror f).offer _ = _
      rw [XmlLiteral.offer, isComplete_mirror, h]
      rfl
    have fits : decide (below.length + 1 < Limits.maxFrameDepth) = true := decide_eq_true room
    rw [passWithin?, walk?, move]
    simp only [Outcome.consumePush, Outcome.isClean, Outcome.fits, Option.all_some, fits]
    rfl
  refine yields_piece rfl (fun _ _ => (stays_inside h outer).1 _) ?_ (fun eof => by cases eof) passed
  intro tags n l₁ l₂
  obtain ⟨piece, frame, goesOn⟩ := Piece.reads_expressionStart f n l₁ l₂ (' ' :: cs)
  show ReadsAs (Piece.next _ (XmlMode.leave ⟨true, f :: outer⟩) _ _ _) _ _ _
  rw [next_inside h, goesOn, frame]
  exact ⟨piece, rfl⟩

theorem skips_between (stack : List Frame) (fresh : Bool) (cs : List Char) :
    Skips ⟨' ' :: cs, ⟨false, outer⟩, stack, fresh⟩ ⟨cs, ⟨false, outer⟩, stack, fresh⟩ :=
  skips_piece rfl (fun _ _ => rfl)
    (fun tags n l₁ l₂ => Piece.skipsAs_space ⟨_, fresh, tags⟩ n l₁ l₂ cs outer)

/-- The space after a complete literal: the scanner leaves the literal only now. -/
theorem skips_leaving (stack : List Frame) (cs : List Char) :
    Skips ⟨' ' :: '%' :: cs, ⟨true, {} :: outer⟩, stack, false⟩
      ⟨'%' :: cs, ⟨false, outer⟩, stack, false⟩ :=
  skips_piece rfl (fun _ _ => rfl)
    (fun tags n l₁ l₂ => Piece.skipsAs_space ⟨_, false, tags⟩ n l₁ l₂ ('%' :: cs) outer)

/-- An embedded expression ends, and both go back to the literal around it. -/
theorem yields_expressionEnd {stack : List Frame}
    (passed : passWithin? .xmlExpressionEnd stack = some (.xmlLiteral (mirror f) :: below))
    (cs : List Char) :
    Yields ⟨'%' :: '>' :: cs, ⟨false, f :: outer⟩, stack, false⟩ [.symbol .xmlExpressionEnd]
      (inside f outer below cs) :=
  yields_piece rfl (fun _ _ => rfl)
    (fun tags n l₁ l₂ => Piece.readsAs_expressionEnd ⟨_, false, tags⟩ n l₁ l₂ cs f outer)
    nofun passed

/-- A literal starts in the place of an operand. -/
theorem yields_literalStart {started continued : Bool} {c : Char} {cs : List Char}
    (h : Text.isAlphabetic c = true) (room : outer.length < Limits.maxXmlNesting)
    (room' : below.length + 1 < Limits.maxFrameDepth) :
    (operand outer started continued below ('<' :: c :: cs)).Yields [.symbol .xmlOpenTag]
      (inside { level := 1, inTag := true } outer (.expression ⟨.suffix, true, continued⟩ :: below)
        (c :: cs)) := by
  have passed : passWithin? .xmlOpenTag (.expression ⟨.operand, started, continued⟩ :: below)
      = some (.xmlLiteral (mirror { level := 1, inTag := true })
        :: .expression ⟨.suffix, true, continued⟩ :: below) := by
    have fits : decide (below.length + 1 < Limits.maxFrameDepth) = true := decide_eq_true room'
    have move : (Frame.expression ⟨.operand, started, continued⟩).move .xmlOpenTag
        = { frame := .expression ⟨.suffix, true, continued⟩
            action := .push (.xmlLiteral (.new false))
            consumed := false, startsExpression := !started : Outcome } := rfl
    rw [passWithin?, walk?, move]
    simp only [Outcome.isClean, Outcome.fits, Option.all_some, fits]
    rfl
  exact yields_piece rfl (fun _ _ => rfl) (fun tags n l₁ l₂ =>
    Piece.readsAs_enter ⟨{ xmlMayStart := true }, false, tags⟩ n l₁ l₂ h cs outer rfl rfl room)
    (fun eof => by cases eof) passed

theorem yields_identifier {started continued : Bool} (i : Identifier) (cs : List Char) :
    (operand outer started continued below (i.chars ++ ' ' :: cs)).Yields
      [.word .identifier i.chars]
      { text := ' ' :: cs, mode := ⟨false, outer⟩
        stack := .expression ⟨.suffix, true, continued⟩ :: below } :=
  yields_piece rfl (fun _ _ => rfl) (fun tags n l₁ l₂ =>
    Piece.readsAs_identifier ⟨{ xmlMayStart := true }, false, tags⟩ n l₁ l₂ i cs outer rfl)
    nofun rfl

end Contents

/-! ## Elements -/

/-- An element starts with a less-than sign and a letter, and with the token for the sign. -/
theorem Element.print_eq (e : Element) :
    ∃ c cs, e.print = '<' :: c :: cs ∧ e.print.tail = c :: cs ∧ Text.isAlphabetic c = true
      ∧ e.lexemes = .symbol .xmlOpenTag :: e.lexemes.tail := by
  cases e with
  | empty name _ => exact ⟨_, _, rfl, rfl, name.alphabetic, rfl⟩
  | full name _ _ _ => exact ⟨_, _, rfl, rfl, name.alphabetic, rfl⟩

/-- A literal in the place of an operand, if its element is followed from the first name on. -/
theorem yields_literal (e : Element) {outer : List MarkupFrame} {started continued : Bool}
    {below : List Frame} {rest : List Char} (nested : outer.length < Limits.maxXmlNesting)
    (room : below.length + 1 < Limits.maxFrameDepth)
    (inner : (inside { level := 1, inTag := true } outer
        (.expression ⟨.suffix, true, continued⟩ :: below) (e.print.tail ++ rest)).Yields
      e.lexemes.tail (inside {} outer (.expression ⟨.suffix, true, continued⟩ :: below) rest)) :
    (operand outer started continued below (e.print ++ rest)).Yields e.lexemes
      (inside {} outer (.expression ⟨.suffix, true, continued⟩ :: below) rest) := by
  obtain ⟨c, cs, text, tail, letter, lexemes⟩ := e.print_eq
  rw [tail] at inner
  rw [text, lexemes]
  exact (yields_literalStart letter nested room).trans inner

theorem Item.print_eq (i : Item) : ∃ cs, i.print = '<' :: cs := by
  cases i with
  | element e =>
    obtain ⟨c, cs, text, -⟩ := e.print_eq
    exact ⟨c :: cs, text⟩
  | comment | cdata | embedded => exact ⟨_, rfl⟩

mutual

/-- From the name of its first tag on, an element is followed to its end, and the literal is back at
    the level before the tag. -/
theorem Element.yields (e : Element) {level : Int} (h : 0 ≤ level) {outer : List MarkupFrame}
    {below : List Frame} (nested : outer.length + e.nesting < Limits.maxXmlNesting)
    (room : below.length + 1 + e.frames < Limits.maxFrameDepth) (rest : List Char) :
    (inside { level := level + 1, inTag := true } outer below (e.print.tail ++ rest)).Yields
      e.lexemes.tail (inside { level } outer below rest) := by
  have back : level + 1 - 1 = level := Int.add_sub_cancel level 1
  cases e with
  | empty name attributes =>
    have text : (Element.empty name attributes).print.tail ++ rest
        = name.chars ++ (attributes.flatMap Attribute.print ++ '/' :: '>' :: rest) := by
      simp [Element.print]
    have close : (inside
        { level := level + 1, inTag := true } outer below ('/' :: '>' :: rest)).Yields
        [.symbol .xmlCloseEmptyTag] (inside { level := level + 1 - 1 } outer below rest) :=
      yields_closeEmptyTag rfl rest
    rw [back] at close
    rw [text]
    exact (yields_tag name attributes rfl (by decide)).trans close
  | full name attributes contents closing =>
    have text : (Element.full name attributes contents closing).print.tail ++ rest
        = name.chars ++ (attributes.flatMap Attribute.print ++ '>' :: (contents.print
          ++ '<' :: '/' :: (closing.chars ++ '>' :: rest))) := by
      simp [Element.print]
    have stops : ∀ c, ('>' :: rest).head? = some c → Text.isMarkupNameChar c = false := by
      intro c hc
      cases hc
      decide
    -- the closing tag takes back the level that the opening one added
    have close (after : Bool) : (inside
        { level := level + 1, wasComment := after, inCloseTag := true } outer below
        ('>' :: rest)).Yields [.symbol .xmlCloseTag]
        (inside { level := level + 1 - 1 } outer below rest) := yields_closeTag (.inr rfl) rest
    rw [back] at close
    obtain ⟨after, inner⟩ := contents.yields (Int.lt_add_one_of_le h) false nested room
      ('/' :: (closing.chars ++ '>' :: rest))
    rw [text]
    refine (yields_tag name attributes rfl (by decide)).trans ?_
    refine (yields_closeTag (.inl rfl) _).trans (inner.trans ?_)
    refine (yields_openEndTag (incomplete_of_level (Int.lt_add_one_of_le h)) _).trans ?_
    exact (yields_name (.inr rfl) closing stops).trans (close after)

/-- Contents are followed to the less-than sign after them. -/
theorem Contents.yields (cs : Contents) {level : Int} (h : 0 < level) (wasComment : Bool)
    {outer : List MarkupFrame} {below : List Frame}
    (nested : outer.length + cs.nesting < Limits.maxXmlNesting)
    (room : below.length + 1 + cs.frames < Limits.maxFrameDepth) (rest : List Char) :
    ∃ after, (inside { level, wasComment } outer below (cs.print ++ '<' :: rest)).Yields cs.lexemes
      (inside { level, wasComment := after } outer below ('<' :: rest)) := by
  cases cs with
  | last data => exact ⟨wasComment, data_yields data (incomplete_of_level h) rfl rfl rest⟩
  | cons data item others =>
    obtain ⟨more, text⟩ := item.print_eq
    have nested' : outer.length + item.nesting < Limits.maxXmlNesting
        ∧ outer.length + others.nesting < Limits.maxXmlNesting := by
      simp only [Contents.nesting] at nested
      omega
    have room' : below.length + 1 + item.frames < Limits.maxFrameDepth
        ∧ below.length + 1 + others.frames < Limits.maxFrameDepth := by
      simp only [Contents.frames] at room
      omega
    obtain ⟨between, first⟩ :=
      item.yields h wasComment nested'.1 room'.1 (others.print ++ '<' :: rest)
    obtain ⟨after, second⟩ := others.yields h between nested'.2 room'.2 rest
    refine ⟨after, ?_⟩
    rw [Contents.print, Contents.lexemes, List.append_assoc, List.append_assoc]
    refine Yields.trans ?_ (first.trans second)
    rw [text]
    exact data_yields data (incomplete_of_level h) rfl rfl _

/-- An item of the contents is followed to its end. -/
theorem Item.yields (i : Item) {level : Int} (h : 0 < level) (wasComment : Bool)
    {outer : List MarkupFrame} {below : List Frame}
    (nested : outer.length + i.nesting < Limits.maxXmlNesting)
    (room : below.length + 1 + i.frames < Limits.maxFrameDepth) (rest : List Char) :
    ∃ after, (inside { level, wasComment } outer below (i.print ++ rest)).Yields i.lexemes
      (inside { level, wasComment := after } outer below rest) := by
  have open_ : MarkupFrame.isComplete { level, wasComment } = false := incomplete_of_level h
  cases i with
  | element e =>
    obtain ⟨c, cs, text, tail, letter, lexemes⟩ := e.print_eq
    have inner := e.yields (Int.le_of_lt h) nested room rest
    refine ⟨false, ?_⟩
    rw [Item.print, Item.lexemes, text, lexemes]
    rw [tail] at inner
    exact (yields_openTag open_ letter _).trans inner
  | comment body free =>
    refine ⟨true, ?_⟩
    rw [Item.print, Item.lexemes]
    simp only [List.cons_append, List.append_assoc]
    exact yields_markup open_ (fun n l₁ l₂ => Piece.reads_comment _ n l₁ l₂ free rest) rfl
  | cdata body free =>
    refine ⟨false, ?_⟩
    rw [Item.print, Item.lexemes]
    simp only [List.cons_append, List.append_assoc]
    exact yields_markup open_ (fun n l₁ l₂ => Piece.reads_cdata _ n l₁ l₂ free rest) rfl
  | embedded x =>
    refine ⟨wasComment, ?_⟩
    have inner := x.yields { level, wasComment } nested room rest
    have shallow : below.length + 1 < Limits.maxFrameDepth := by omega
    rw [Item.print, Item.lexemes]
    simp only [List.cons_append, List.append_assoc]
    exact (yields_expressionStart open_ shallow _).trans
      (.skipping (skips_between _ _ _) inner (by simp))

/-- An embedded expression is followed to the mark that closes it. -/
theorem Embedded.yields (x : Embedded) (f : MarkupFrame) {outer : List MarkupFrame}
    {below : List Frame} (nested : outer.length + x.nesting < Limits.maxXmlNesting)
    (room : below.length + 1 + x.frames < Limits.maxFrameDepth) (rest : List Char) :
    (operand (f :: outer) false false (.xmlLiteral { mirror f with inExpression := true } :: below)
        (x.print ++ ' ' :: '%' :: '>' :: rest)).Yields
      (x.lexemes ++ [.symbol .xmlExpressionEnd]) (inside f outer below rest) := by
  have resumed : (Frame.xmlLiteral { mirror f with inExpression := true }).move .xmlExpressionEnd
      = .consume (.xmlLiteral (mirror f)) := by
    refine move_markup ?_ rfl
    simp [XmlLiteral.isComplete]
  have resumes (n : Nat) : (walk? (some Limits.maxFrameDepth) .xmlExpressionEnd (n + 1)
      (.xmlLiteral { mirror f with inExpression := true } :: below)).bind
        (rest? (some Limits.maxFrameDepth) 8) = some (.xmlLiteral (mirror f) :: below) := by
    rw [walk?, resumed]
    rfl
  cases x with
  | element e =>
    have passed : passWithin? .xmlExpressionEnd (.xmlLiteral (mirror {})
        :: .expression ⟨.suffix, true, false⟩
        :: .xmlLiteral { mirror f with inExpression := true } :: below)
        = some (.xmlLiteral (mirror f) :: below) := resumes 5
    simp only [Embedded.nesting] at nested
    simp only [Embedded.frames] at room
    have nested' : (f :: outer).length + e.nesting < Limits.maxXmlNesting := by
      rw [List.length_cons]
      omega
    -- the inner literal is complete, but the scanner and the classifier leave it only with the
    -- space and the mark after it
    refine (yields_literal e ?_ ?_ (e.yields (Int.le_refl 0) nested' ?_ _)).trans ?_
    · exact Nat.lt_of_le_of_lt (Nat.le_add_right _ _) nested'
    · rw [List.length_cons]
      omega
    · rw [List.length_cons, List.length_cons]
      omega
    · exact .skipping (skips_leaving _ _) (yields_expressionEnd passed rest) nofun
  | identifier i =>
    have passed : passWithin? .xmlExpressionEnd (.expression ⟨.suffix, true, false⟩
        :: .xmlLiteral { mirror f with inExpression := true } :: below)
        = some (.xmlLiteral (mirror f) :: below) := resumes 6
    refine (yields_identifier i _).trans ?_
    exact .skipping (skips_between _ _ _) (yields_expressionEnd passed rest) nofun

end

end BasicLexis.Markup
