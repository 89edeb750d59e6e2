import BasicLexis.Proofs.Markup.Element
import BasicLexis.Proofs.Source.Places

set_option autoImplicit false

/-! # Reading the parts of XML literals

What the scanner makes of the parts of an element, one piece at a time: the marks, names, attribute
values and character data inside a literal, and the names and closing marks of embedded
expressions. A piece may stand at any place of the source, so all statements are about readers at
arbitrary positions and locations. -/

namespace BasicLexis

/-! ## Characters -/

namespace Text

/-- A letter is none of the characters that are no letters. -/
theorem ne_of_isAlphabetic {c d : Char} (h : isAlphabetic c = true) (hd : isAlphabetic d = false) :
    c ≠ d := by
  rintro rfl
  rw [h] at hd
  cases hd

/-- An ASCII letter comes after the ASCII whitespace. -/
theorem lt_of_isAlphabetic {c : Char} (h : isAlphabetic c = true) (ascii : c.toNat < 128) :
    64 < c.toNat := by
  simp only [isAlphabetic, if_pos ascii, Bool.or_eq_true, Bool.and_eq_true, decide_eq_true_eq,
    Char.le_def, UInt32.le_iff_toNat_le] at h
  rcases h with ⟨lower, -⟩ | ⟨lower, -⟩
  · exact Nat.lt_of_lt_of_le (by decide) lower
  · exact Nat.lt_of_lt_of_le (by decide) lower

/-- The whitespace and the quotes beyond ASCII. -/
def wideMarks : List Nat :=
  [0x85, 0xA0, 0x1680, 0x2000, 0x2001, 0x2002, 0x2003, 0x2004, 0x2005, 0x2006, 0x2007, 0x2008,
    0x2009, 0x200A, 0x2018, 0x2019, 0x2028, 0x2029, 0x202F, 0x205F, 0x3000]

theorem wideMarks_not_alphabetic : ∀ n ∈ wideMarks, alphabetic.contains n = false := by
  decide +kernel

/-- A letter beyond ASCII is none of the whitespace and quotes there. -/
theorem not_mem_wideMarks {c : Char} (h : isAlphabetic c = true) (wide : ¬c.toNat < 128) :
    c.toNat ∉ wideMarks := by
  intro listed
  rw [isAlphabetic, if_neg wide, wideMarks_not_alphabetic _ listed] at h
  cases h

/-- Whitespace beyond ASCII is listed. -/
theorem mem_wideMarks {c : Char} (h : isBlank c = true) (wide : ¬c.toNat < 128) :
    c.toNat ∈ wideMarks := by
  simp only [isBlank, Bool.or_eq_true, Bool.and_eq_true, decide_eq_true_eq, beq_iff_eq] at h
  simp only [wideMarks, List.mem_cons, List.not_mem_nil, or_false]
  omega

theorem le_of_isBlank {c : Char} (h : isBlank c = true) (ascii : c.toNat < 128) :
    c.toNat ≤ 32 := by
  simp only [isBlank, Bool.or_eq_true, Bool.and_eq_true, decide_eq_true_eq, beq_iff_eq] at h
  omega

theorem isBlank_of_isAlphabetic {c : Char} (h : isAlphabetic c = true) : isBlank c = false := by
  rw [Bool.eq_false_iff]
  intro blank
  by_cases ascii : c.toNat < 128
  · have low := le_of_isBlank blank ascii
    have high := lt_of_isAlphabetic h ascii
    omega
  · exact not_mem_wideMarks h ascii (mem_wideMarks blank ascii)

theorem wideMarks_not_numeric : ∀ n ∈ wideMarks, numeric.contains n = false := by
  decide +kernel

theorem isBlank_of_isWordChar {c : Char} (h : isWordChar c = true) : isBlank c = false := by
  simp only [isWordChar, isAlphanumeric, Bool.or_eq_true, beq_iff_eq] at h
  rcases h with (letter | number) | rfl
  · exact isBlank_of_isAlphabetic letter
  · rw [Bool.eq_false_iff]
    intro blank
    by_cases ascii : c.toNat < 128
    · rw [isNumeric, if_pos ascii] at number
      simp only [isDigit, Bool.and_eq_true, decide_eq_true_eq, Char.le_def,
        UInt32.le_iff_toNat_le] at number
      have low : 48 ≤ c.toNat := number.1
      have high := le_of_isBlank blank ascii
      omega
    · rw [isNumeric, if_neg ascii, wideMarks_not_numeric _ (mem_wideMarks blank ascii)] at number
      cases number
  · rfl

/-- No letter is a quote that opens a comment. -/
theorem isCommentQuote_of_isAlphabetic {c : Char} (h : isAlphabetic c = true) :
    isCommentQuote c = false := by
  rw [Bool.eq_false_iff]
  intro quote
  simp only [isCommentQuote, Bool.or_eq_true, beq_iff_eq] at quote
  rcases quote with (rfl | rfl) | rfl
  · cases h
  · exact not_mem_wideMarks h (by decide) (by decide)
  · exact not_mem_wideMarks h (by decide) (by decide)

theorem isDigit_of_isAlphabetic {c : Char} (h : isAlphabetic c = true) : isDigit c = false := by
  rw [Bool.eq_false_iff]
  intro digit
  simp only [isDigit, Bool.and_eq_true, decide_eq_true_eq, Char.le_def, UInt32.le_iff_toNat_le]
    at digit
  have high : c.toNat ≤ '9'.toNat := digit.2
  have := lt_of_isAlphabetic h (Nat.lt_of_le_of_lt high (by decide))
  exact absurd (Nat.lt_of_lt_of_le this high) (by decide)

end Text

/-! ## Runs of characters -/

namespace Reader

/-- A run of characters ends with the first one that does not belong to it. -/
theorem skipRun_append {p : Char → Bool} {run rest : List Char} (belongs : ∀ c ∈ run, p c = true)
    (stops : ∀ c, rest.head? = some c → p c = false) (n : Nat) (l : Location) :
    ∃ l', skipRun p (run ++ rest) n l = ⟨rest, n + run.length, l'⟩ := by
  induction run generalizing n l with
  | nil =>
    cases rest with
    | nil => exact ⟨l, rfl⟩
    | cons c cs =>
      refine ⟨l, ?_⟩
      rw [List.nil_append, skipRun, stops c rfl]
      rfl
  | cons c run ih =>
    rw [List.cons_append, skipRun, belongs c (List.mem_cons_self), if_pos rfl]
    obtain ⟨l', eq⟩ := ih (fun d hd => belongs d (List.mem_cons_of_mem c hd)) (n + 1)
      (l.after c (run ++ rest).head?)
    refine ⟨l', ?_⟩
    rw [eq, List.length_cons, Nat.add_assoc, Nat.add_comm 1]

/-- The text from a character to the end of the run after it. -/
theorem textTo_run (c : Char) (run rest : List Char) (n : Nat) (l l' : Location) :
    textTo ⟨c :: (run ++ rest), n, l⟩ ⟨rest, n + 1 + run.length, l'⟩ = c :: run := by
  have count : n + 1 + run.length - n = run.length + 1 := by omega
  simp only [textTo, count, List.take_succ_cons, List.take_left]

end Reader

namespace Piece

open Reader

theorem reads_symbol (kind : TokenKind) (start rest : Reader) :
    (symbol kind start rest).Reads (.symbol kind) rest.rest := ⟨rfl, rfl, rfl, rfl⟩

theorem reads_word (kind : TokenKind) (start rest : Reader) (text : List Char) :
    (word kind start rest text []).Reads (.word kind text) rest.rest := ⟨rfl, rfl, rfl, rfl⟩

/-! ## Marks -/

/-- The piece of a literal is a single token, after which the literal goes on with the frame. -/
structure MarkupReads (m : MarkupPiece) (l : Lexeme) (text : List Char) (frame : MarkupFrame) :
    Prop where
  piece : m.piece.Reads l text
  frame : m.frame = frame
  goesOn : m.goesOn = true

section Marks

variable (f : MarkupFrame) (n : Nat) (l₁ l₂ : Location)

/-- The less-than sign of an opening tag. -/
theorem reads_openTag {c : Char} (h : Text.isAlphabetic c = true) (cs : List Char) :
    MarkupReads (afterAngle f ⟨'<' :: c :: cs, n, l₁⟩ ⟨c :: cs, n + 1, l₂⟩) (.symbol .xmlOpenTag)
      (c :: cs) { f with
        level := f.level + 1, inTag := true, wasComment := false, wasInstruction := false } := by
  have noExpression : eatText? ['%', '='] ⟨c :: cs, n + 1, l₂⟩ = none := by
    have percent : c ≠ '%' := Text.ne_of_isAlphabetic h (by decide)
    simp [eatText?, List.isPrefixOf, percent.symm]
  unfold afterAngle
  split
  · next mark => exact absurd (Option.some.inj mark) (Text.ne_of_isAlphabetic h (by decide))
  · next mark => exact absurd (Option.some.inj mark) (Text.ne_of_isAlphabetic h (by decide))
  · next mark => exact absurd (Option.some.inj mark) (Text.ne_of_isAlphabetic h (by decide))
  · rw [noExpression]
    exact ⟨reads_symbol _ _ _, rfl, rfl⟩

theorem reads_openEndTag (cs : List Char) :
    MarkupReads (markup f '<' ⟨'<' :: '/' :: cs, n, l₁⟩ ⟨'/' :: cs, n + 1, l₂⟩)
      (.symbol .xmlOpenEndTag) cs { f with inCloseTag := true } :=
  ⟨reads_symbol _ _ _, rfl, rfl⟩

/-- Inside a tag, all but the less-than sign belongs to the tag. -/
theorem markup_of_tag {f : MarkupFrame} (h : f.inTag = true ∨ f.inCloseTag = true) {c : Char}
    (hc : c ≠ '<') (start r : Reader) : markup f c start r = inTag f c start r := by
  rw [markup, if_neg hc, if_pos (Bool.or_eq_true_iff.2 h)]

/-- The end of an opening or closing tag. -/
theorem reads_closeTag (h : f.inTag = true ∨ f.inCloseTag = true) (cs : List Char) :
    MarkupReads (markup f '>' ⟨'>' :: cs, n, l₁⟩ ⟨cs, n + 1, l₂⟩) (.symbol .xmlCloseTag) cs
      { level := if f.inCloseTag then f.level - 1 else f.level } := by
  rw [markup_of_tag h (by decide)]
  exact ⟨reads_symbol _ _ _, rfl, rfl⟩

theorem reads_closeEmptyTag (h : f.inTag = true) (cs : List Char) :
    MarkupReads (markup f '/' ⟨'/' :: '>' :: cs, n, l₁⟩ ⟨'>' :: cs, n + 1, l₂⟩)
      (.symbol .xmlCloseEmptyTag) cs { f with inTag := false, level := f.level - 1 } := by
  rw [markup_of_tag (.inl h) (by decide)]
  exact ⟨reads_symbol _ _ _, rfl, rfl⟩

theorem reads_assign (h : f.inTag = true) (cs : List Char) :
    MarkupReads (markup f '=' ⟨'=' :: cs, n, l₁⟩ ⟨cs, n + 1, l₂⟩) (.symbol .assign) cs f := by
  rw [markup_of_tag (.inl h) (by decide)]
  exact ⟨reads_symbol _ _ _, rfl, rfl⟩

/-- The start of an embedded expression, which interrupts the literal. -/
theorem reads_expressionStart (cs : List Char) :
    (markup f '<' ⟨'<' :: '%' :: '=' :: cs, n, l₁⟩ ⟨'%' :: '=' :: cs, n + 1, l₂⟩).piece.Reads
        (.symbol .xmlExpressionStart) cs
      ∧ (markup f '<' ⟨'<' :: '%' :: '=' :: cs, n, l₁⟩ ⟨'%' :: '=' :: cs, n + 1, l₂⟩).frame = f
      ∧ (markup f '<' ⟨'<' :: '%' :: '=' :: cs, n, l₁⟩ ⟨'%' :: '=' :: cs, n + 1, l₂⟩).goesOn
        = false :=
  ⟨reads_symbol _ _ _, rfl, rfl⟩

/-- The space before an attribute. -/
theorem skips_space (h : f.inTag = true) (cs : List Char) :
    (markup f ' ' ⟨' ' :: cs, n, l₁⟩ ⟨cs, n + 1, l₂⟩).piece.Skips cs
      ∧ (markup f ' ' ⟨' ' :: cs, n, l₁⟩ ⟨cs, n + 1, l₂⟩).frame = f
      ∧ (markup f ' ' ⟨' ' :: cs, n, l₁⟩ ⟨cs, n + 1, l₂⟩).goesOn = true := by
  rw [markup_of_tag (.inl h) (by decide)]
  exact ⟨⟨rfl, rfl, rfl, rfl⟩, rfl, rfl⟩

/-! ## Names, values and character data -/

/-- A name inside a tag, up to the first character that belongs to no name. -/
theorem reads_name (h : f.inTag = true ∨ f.inCloseTag = true) (name : Markup.Name)
    {rest : List Char} (stops : ∀ c, rest.head? = some c → Text.isMarkupNameChar c = false) :
    MarkupReads (markup f name.first ⟨name.first :: (name.others ++ rest), n, l₁⟩
      ⟨name.others ++ rest, n + 1, l₂⟩) (.word .identifier name.chars) rest f := by
  have letter := name.alphabetic
  have mark {d : Char} (hd : Text.isAlphabetic d = false) : name.first ≠ d :=
    Text.ne_of_isAlphabetic letter hd
  have noBlank : Text.isMarkupBlank name.first = false := by
    simp [Text.isMarkupBlank, mark (d := ' ') rfl, mark (d := '\t') rfl, mark (d := '\r') rfl,
      mark (d := '\n') rfl]
  obtain ⟨l₃, run⟩ := skipRun_append name.named stops (n + 1) l₂
  -- a letter is none of the marks that `inTag` looks for first
  rw [markup_of_tag h (mark rfl), inTag, if_neg (fun h => mark rfl h.1),
    if_neg (fun h => mark rfl h.1), if_neg (mark rfl), if_neg (mark rfl),
    if_neg (fun h => h.elim (mark rfl) (mark rfl)),
    if_neg (by rw [noBlank]; exact Bool.false_ne_true)]
  simp only [skipWhile, run, textTo_run]
  exact ⟨reads_word _ _ _ _, rfl, rfl⟩

/-- The inside of an attribute value, up to its closing quote. -/
theorem attributeFrom_append {quote : Char} {value : List Char} (unquoted : ∀ c ∈ value, c ≠ quote)
    (oneLine : ∀ c ∈ value, Text.isLineEnd c = false) (rest : List Char) (n : Nat) (l : Location)
    (content : List Char) :
    ∃ l', attributeFrom quote (value ++ quote :: rest) n l content []
      = (content.reverse ++ value, [], ⟨rest, n + value.length + 1, l'⟩) := by
  induction value generalizing n l content with
  | nil =>
    refine ⟨l.after quote rest.head?, ?_⟩
    simp [attributeFrom]
  | cons c value ih =>
    have notQuote := unquoted c List.mem_cons_self
    have inLine := oneLine c List.mem_cons_self
    obtain ⟨l', eq⟩ := ih (fun d hd => unquoted d (List.mem_cons_of_mem c hd))
      (fun d hd => oneLine d (List.mem_cons_of_mem c hd)) (n + 1)
      (l.after c (value ++ quote :: rest).head?) (c :: content)
    refine ⟨l', ?_⟩
    rw [List.cons_append, attributeFrom]
    simp only [notQuote, if_false, inLine, Bool.false_eq_true, eq, List.reverse_cons,
      List.append_assoc, List.singleton_append, List.length_cons, Prod.mk.injEq, Reader.mk.injEq,
      true_and, and_true]
    omega

/-- The value of an attribute with its quotes. -/
theorem reads_attributeValue (h : f.inTag = true) (a : Markup.Attribute) (rest : List Char) :
    MarkupReads (markup f '\x22' ⟨'\x22' :: (a.value ++ '\x22' :: rest), n, l₁⟩
      ⟨a.value ++ '\x22' :: rest, n + 1, l₂⟩)
      { kind := .literalString, text := String.ofList ('\x22' :: (a.value ++ ['\x22']))
        value := .string (String.ofList a.value), format := .stringLiteral } rest f := by
  obtain ⟨l₃, inside⟩ := attributeFrom_append a.unquoted a.oneLine rest (n + 1) l₂ []
  have text : textTo ⟨'\x22' :: (a.value ++ '\x22' :: rest), n, l₁⟩
      ⟨rest, n + 1 + a.value.length + 1, l₃⟩ = '\x22' :: (a.value ++ ['\x22']) := by
    have := textTo_run '\x22' (a.value ++ ['\x22']) rest n l₁ l₃
    simpa [Nat.add_assoc] using this
  have value : attributeValue '\x22' ⟨'\x22' :: (a.value ++ '\x22' :: rest), n, l₁⟩
      ⟨a.value ++ '\x22' :: rest, n + 1, l₂⟩
      = literal .literalString ⟨'\x22' :: (a.value ++ '\x22' :: rest), n, l₁⟩
        ⟨rest, n + 1 + a.value.length + 1, l₃⟩ (.string (String.ofList a.value))
        .stringLiteral [] := by
    simp only [attributeValue, inside, List.reverse_nil, List.nil_append]
  rw [markup_of_tag (.inl h) (by decide)]
  refine ⟨?_, rfl, rfl⟩
  show (attributeValue _ _ _).Reads _ _
  rw [value]
  refine ⟨?_, rfl, rfl, rfl⟩
  simp only [literal, Numeral.literal, Option.map_some, Token.lexeme, text]

/-- Character data, up to the next less-than sign. -/
theorem reads_content (h : f.inTag = false) (h' : f.inCloseTag = false)
    (d : Markup.CharacterData) (cs : List Char) :
    MarkupReads (markup f d.first ⟨d.first :: (d.others ++ '<' :: cs), n, l₁⟩
      ⟨d.others ++ '<' :: cs, n + 1, l₂⟩) (.word .xmlContent d.chars) ('<' :: cs) f := by
  have first : d.first ≠ '<' := d.free d.first List.mem_cons_self
  have others : ∀ c ∈ d.others, (c != '<') = true := by
    intro c hc
    exact bne_iff_ne.2 (d.free c (List.mem_cons_of_mem _ hc))
  have stops : ∀ c, ('<' :: cs).head? = some c → (c != '<') = false := by
    intro c hc
    cases hc
    rfl
  obtain ⟨l₃, run⟩ := skipRun_append others stops (n + 1) l₂
  unfold markup
  rw [if_neg first, h, h', Bool.false_or, if_neg Bool.false_ne_true]
  simp only [skipWhile, run, textTo_run]
  exact ⟨reads_word _ _ _ _, rfl, rfl⟩

/-! ## Sections -/

/-- The first occurrence of a closing mark is where the section ends. The mark cannot begin inside
    the section and end outside, since its last character differs from the other two. -/
theorem lengthBefore?_append {a : Char} (ha : a ≠ '>') {body : List Char}
    (free : ¬[a, a, '>'] <:+: body) (rest : List Char) (k : Nat) :
    lengthBefore? [a, a, '>'] (body ++ a :: a :: '>' :: rest) k = some (k + body.length) := by
  induction body generalizing k with
  | nil => simp [lengthBefore?, List.isPrefixOf]
  | cons b body ih =>
    have free' : ¬[a, a, '>'] <:+: body := fun h => free (List.IsInfix.trans h ⟨[b], [], by simp⟩)
    have elsewhere : [a, a, '>'].isPrefixOf (b :: (body ++ a :: a :: '>' :: rest)) = false := by
      rw [Bool.eq_false_iff]
      intro starts
      obtain ⟨after, spelled⟩ := List.isPrefixOf_iff_prefix.1 starts
      -- the mark would need its last character among the first two of the real one
      match body with
      | [] =>
        simp only [List.cons_append, List.nil_append, List.cons.injEq] at spelled
        exact ha spelled.2.2.1.symm
      | [c] =>
        simp only [List.cons_append, List.nil_append, List.cons.injEq] at spelled
        exact ha spelled.2.2.1.symm
      | c :: d :: body =>
        simp only [List.cons_append, List.nil_append, List.cons.injEq] at spelled
        obtain ⟨rfl, rfl, rfl, -⟩ := spelled
        exact free ⟨[], body, rfl⟩
    rw [List.cons_append, lengthBefore?, elsewhere, if_neg Bool.false_ne_true, ih free',
      List.length_cons]
    simp only [Option.some.injEq]
    omega

/-- A section, up to and including its closing mark. -/
theorem reads_sectionTo (kind : TokenKind) {a : Char} (ha : a ≠ '>') {body : List Char}
    (free : ¬[a, a, '>'] <:+: body) (start : Reader) (rest : List Char) (n : Nat) (l : Location) :
    (sectionTo kind [a, a, '>'] start ⟨body ++ a :: a :: '>' :: rest, n, l⟩).Reads
      (.word kind body) rest := by
  unfold sectionTo
  rw [lengthBefore?_append ha free rest 0]
  have text : (body ++ a :: a :: '>' :: rest).take (0 + body.length) = body := by simp
  have after : (body ++ a :: a :: '>' :: rest).drop (0 + body.length + 3) = rest := by
    rw [Nat.zero_add, ← List.drop_drop, List.drop_left]
    rfl
  dsimp only
  rw [text]
  refine ⟨rfl, rfl, rfl, ?_⟩
  exact (rest_skipMany _ _).trans after

/-- Whatever section follows an exclamation mark, the literal remembers whether it was a comment. -/
theorem reads_section {cs rest body : List Char} {kind : TokenKind}
    (h : (markupSection ⟨'<' :: '!' :: cs, n, l₁⟩ (skip ⟨'!' :: cs, n + 1, l₂⟩)).Reads
      (.word kind body) rest) :
    MarkupReads (markup f '<' ⟨'<' :: '!' :: cs, n, l₁⟩ ⟨'!' :: cs, n + 1, l₂⟩)
      (.word kind body) rest { f with wasComment := kind == .xmlComment } := by
  refine ⟨h, ?_, rfl⟩
  obtain ⟨t, token, lexeme⟩ := Option.map_eq_some_iff.1 h.token
  have kinds : t.kind = kind := congrArg Lexeme.kind lexeme
  show { f with wasComment := _ } = _
  rw [token, Option.any_some, kinds]

theorem reads_comment {body : List Char} (free : ¬Markup.commentEnd <:+: body)
    (rest : List Char) :
    MarkupReads (markup f '<'
      ⟨'<' :: '!' :: '-' :: '-' :: (body ++ '-' :: '-' :: '>' :: rest), n, l₁⟩
      ⟨'!' :: '-' :: '-' :: (body ++ '-' :: '-' :: '>' :: rest), n + 1, l₂⟩)
      (.word .xmlComment body) rest { f with wasComment := true } :=
  reads_section f n l₁ l₂ (reads_sectionTo .xmlComment (by decide) free _ rest _ _)

theorem reads_cdata {body : List Char} (free : ¬Markup.cdataEnd <:+: body) (rest : List Char) :
    MarkupReads (markup f '<'
      ⟨'<' :: '!' :: '[' :: 'C' :: 'D' :: 'A' :: 'T' :: 'A' :: '['
        :: (body ++ ']' :: ']' :: '>' :: rest), n, l₁⟩
      ⟨'!' :: '[' :: 'C' :: 'D' :: 'A' :: 'T' :: 'A' :: '[' :: (body ++ ']' :: ']' :: '>' :: rest),
        n + 1, l₂⟩)
      (.word .xmlCData body) rest { f with wasComment := false } :=
  reads_section f n l₁ l₂ (reads_sectionTo .xmlCData (by decide) free _ rest _ _)

end Marks

/-! ## Outside of literals -/

section Standard

variable (s : Setting) (n : Nat) (l₁ l₂ : Location)

/-- Outside of literals, a piece that is no number is read by its first character. -/
theorem next_of_outside {outer : List MarkupFrame} {c : Char} {start : Reader}
    (h : Numeral.startsAt start = false) (r : Reader) :
    next s ⟨false, outer⟩ c start r = standard s ⟨false, outer⟩ c start r := by
  rw [next, if_neg Bool.false_ne_true, if_neg (by rw [h]; exact Bool.false_ne_true)]

/-- Most characters have no part in XML. -/
theorem standard_of_plain {m : XmlMode} {c : Char} (percent : c ≠ '%') (angle : c ≠ '<')
    (start r : Reader) : standard s m c start r = (plain s c start r, m) := by
  rw [standard, if_neg (fun h => percent h.1), if_neg (fun h => angle h.1)]

/-- A letter starts a word. -/
theorem plain_of_letter {c : Char} (h : Text.isAlphabetic c = true) (start r : Reader) :
    plain s c start r = letters s start r := by
  have mark {d : Char} (hd : Text.isAlphabetic d = false) : c ≠ d := Text.ne_of_isAlphabetic h hd
  rw [plain, if_neg (by rw [Text.isBlank_of_isAlphabetic h]; exact Bool.false_ne_true),
    if_neg (mark rfl), if_neg (mark rfl), if_neg (mark rfl), if_neg (mark rfl),
    if_neg (by rw [Text.isCommentQuote_of_isAlphabetic h]; exact Bool.false_ne_true), if_pos h]

/-- An XML literal starts where one may start, unless too many are open. -/
theorem readsAs_enter {c : Char} (h : Text.isAlphabetic c = true) (cs : List Char)
    (outer : List MarkupFrame) (may : s.hints.xmlMayStart = true)
    (whole : s.hints.singleTagNext = false) (room : outer.length < Limits.maxXmlNesting) :
    Config.ReadsAs (next s ⟨false, outer⟩ '<' ⟨'<' :: c :: cs, n, l₁⟩ ⟨c :: cs, n + 1, l₂⟩)
      (.symbol .xmlOpenTag) (c :: cs) ⟨true, { level := 1, inTag := true } :: outer⟩ := by
  obtain ⟨piece, frame, goesOn⟩ := reads_openTag (.new false) n l₁ l₂ h cs
  have opens : s.xmlMayStart = true := by rw [Setting.xmlMayStart, may, Bool.true_or]
  have entered : next s ⟨false, outer⟩ '<' ⟨'<' :: c :: cs, n, l₁⟩ ⟨c :: cs, n + 1, l₂⟩
      = XmlMode.enter ⟨false, outer⟩ false ⟨'<' :: c :: cs, n, l₁⟩ ⟨c :: cs, n + 1, l₂⟩ := by
    rw [next_of_outside s rfl, standard, if_neg (fun h => absurd h.1 (by decide)),
      if_pos ⟨rfl, opens⟩, if_pos room, whole]
  rw [entered]
  refine ⟨piece, ?_⟩
  rw [XmlMode.enter, goesOn, frame]
  rfl

theorem skipsAs_space (cs : List Char) (outer : List MarkupFrame) :
    Config.SkipsAs (next s ⟨false, outer⟩ ' ' ⟨' ' :: cs, n, l₁⟩ ⟨cs, n + 1, l₂⟩) cs
      ⟨false, outer⟩ := by
  rw [next_of_outside s rfl, standard_of_plain s (by decide) (by decide)]
  exact ⟨⟨rfl, rfl, rfl, rfl⟩, rfl⟩

/-- The end of an embedded expression, after which the literal around it goes on. -/
theorem readsAs_expressionEnd (cs : List Char) (frame : MarkupFrame) (outer : List MarkupFrame) :
    Config.ReadsAs (next s ⟨false, frame :: outer⟩ '%' ⟨'%' :: '>' :: cs, n, l₁⟩
      ⟨'>' :: cs, n + 1, l₂⟩) (.symbol .xmlExpressionEnd) cs ⟨true, frame :: outer⟩ :=
  ⟨⟨rfl, rfl, rfl, rfl⟩, rfl⟩

theorem readsAs_lineEnd (later : s.freshLine = false) :
    Config.ReadsAs (next s ⟨false, []⟩ '\n' ⟨['\n'], n, l₁⟩ ⟨[], n + 1, l₂⟩)
      (.symbol .eol) [] ⟨false, []⟩ := by
  rw [next_of_outside s rfl, standard_of_plain s (by decide) (by decide)]
  have ends : plain s '\n' ⟨['\n'], n, l₁⟩ ⟨[], n + 1, l₂⟩
      = endOfLine s.freshLine l₁ ⟨[], n + 1, l₂⟩
        (if s.freshLine then [.trivia (.blankLine l₁)] else []) := rfl
  rw [ends, later]
  exact ⟨⟨rfl, rfl, rfl, rfl⟩, rfl⟩

/-- The characters of an identifier end with the space after it. -/
theorem skipWhile_identifier (i : Markup.Identifier) (cs : List Char) :
    ∃ l₃, skipWhile Text.isWordChar ⟨i.others ++ ' ' :: cs, n + 1, l₂⟩
      = ⟨' ' :: cs, n + 1 + i.others.length, l₃⟩ := by
  refine skipRun_append i.word ?_ (n + 1) l₂
  intro c hc
  cases hc
  decide

theorem wordEnd_space (cs : List Char) (k : Nat) (l : Location) :
    wordEnd ⟨' ' :: cs, k, l⟩ = { rest := ⟨' ' :: cs, k, l⟩ } := rfl

theorem reads_identifier (i : Markup.Identifier) (cs : List Char)
    (plainName : s.hints.xmlNameNext = false) :
    (Piece.name s ⟨i.first :: (i.others ++ ' ' :: cs), n, l₁⟩
      ⟨i.others ++ ' ' :: cs, n + 1, l₂⟩).Reads (.word .identifier i.chars) (' ' :: cs) := by
  obtain ⟨l₃, run⟩ := skipWhile_identifier n l₂ i cs
  have short : checkNameLength ⟨i.first :: (i.others ++ ' ' :: cs), n, l₁⟩ (i.first :: i.others)
      = [] := if_neg (Nat.not_lt_of_le i.short)
  unfold Piece.name
  rw [plainName, if_neg Bool.false_ne_true]
  simp only [run, wordEnd_space, textTo_run, Option.toList_none, List.append_nil, short]
  exact ⟨rfl, rfl, rfl, rfl⟩

theorem letters_of_identifier (i : Markup.Identifier) (cs : List Char)
    (plainName : s.hints.xmlNameNext = false) :
    letters s ⟨i.first :: (i.others ++ ' ' :: cs), n, l₁⟩ ⟨i.others ++ ' ' :: cs, n + 1, l₂⟩
      = Piece.name s ⟨i.first :: (i.others ++ ' ' :: cs), n, l₁⟩
        ⟨i.others ++ ' ' :: cs, n + 1, l₂⟩ := by
  obtain ⟨l₃, run⟩ := skipWhile_identifier n l₂ i cs
  rw [letters, plainName, if_neg Bool.false_ne_true]
  simp only [run, wordEnd_space, textTo_run, i.noKeyword]

/-- An identifier outside of literals, up to the space after it. -/
theorem readsAs_identifier (i : Markup.Identifier) (cs : List Char) (outer : List MarkupFrame)
    (plainName : s.hints.xmlNameNext = false) :
    Config.ReadsAs (next s ⟨false, outer⟩ i.first ⟨i.first :: (i.others ++ ' ' :: cs), n, l₁⟩
      ⟨i.others ++ ' ' :: cs, n + 1, l₂⟩) (.word .identifier i.chars) (' ' :: cs)
      ⟨false, outer⟩ := by
  have reads := reads_identifier s n l₁ l₂ i cs plainName
  rcases i.starts with letter | ⟨underscored, more⟩
  · have mark {d : Char} (hd : Text.isAlphabetic d = false) : i.first ≠ d :=
      Text.ne_of_isAlphabetic letter hd
    have noNumber : Numeral.startsAt ⟨i.first :: (i.others ++ ' ' :: cs), n, l₁⟩ = false := by
      simp [Numeral.startsAt, peek, Text.isDigit_of_isAlphabetic letter, mark (d := '&') rfl,
        mark (d := '.') rfl]
    rw [next_of_outside s noNumber, standard_of_plain s (mark rfl) (mark rfl),
      plain_of_letter s letter, letters_of_identifier s n l₁ l₂ i cs plainName]
    exact ⟨reads, rfl⟩
  · -- a low line and a space would continue the line, so the next character decides
    obtain ⟨first, others, starts, word, noKeyword, short⟩ := i
    dsimp only at *
    subst underscored
    cases others with
    | nil => exact absurd rfl more
    | cons c others =>
      have solid := Text.isBlank_of_isWordChar (word c List.mem_cons_self)
      rw [next_of_outside s rfl, standard_of_plain s (by decide) (by decide)]
      refine ⟨?_, rfl⟩
      show (underscore s _ _).Reads _ _
      rw [underscore, if_pos (by simp [peekIs, peek, solid])]
      exact reads

end Standard

end Piece

end BasicLexis
