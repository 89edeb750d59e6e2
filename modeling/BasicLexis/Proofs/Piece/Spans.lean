import BasicLexis.Proofs.Piece.Comment
import BasicLexis.Proofs.Piece.Shape

set_option autoImplicit false

/-! # The spans of comments and directives

A span is recorded as two locations. `Span.Covers` says which text of the source it takes. The text is
unique, because no two places of a source have the same location, and it stays the same when the
source is looked at from an earlier place.

The spans of comments and tag comments take what they are recorded with. The span of a directive does
not: it is as long as name and argument together, so it ends too early by the whitespace between the
number sign, the name and the argument. -/

namespace BasicLexis

open Reader

/-! ## The text of a span -/

/-- The span takes a stretch of what is left to read, and this is its text. -/
inductive Span.Covers (span : Span) (r : Reader) (text : List Char) : Prop where
  | stretch {a b : Reader} (before : r.Reaches a) (within : a.Reaches b)
      (span : span = ⟨a.location, b.location⟩) (text : a.textTo b = text)

namespace Span.Covers

variable {span : Span} {r r' : Reader} {text text' : List Char}

theorem of_reaches (h : span.Covers r' text) (reaches : r.Reaches r') : span.Covers r text := by
  obtain ⟨before, within, span, text⟩ := h
  exact ⟨reaches.trans before, within, span, text⟩

/-- A span takes only one text. -/
theorem unique (h : span.Covers r text) (h' : span.Covers r text') : text = text' := by
  obtain @⟨a, b, before, within, same, rfl⟩ := h
  obtain @⟨a', b', before', within', same', rfl⟩ := h'
  rw [same, Span.mk.injEq] at same'
  rw [before.eq_of_location before' same'.1,
    (before.trans within).eq_of_location (before'.trans within') same'.2]

end Span.Covers

namespace Reader

variable {r r' : Reader}

theorem line_of_over (h : Over (!Text.isLineEnd ·) r r') : r.line = r.textTo r' ++ r'.line := by
  have inline := h.forall_textTo
  unfold line
  rw [← h.reaches.textTo_append, List.takeWhile_append_of_pos inline]

theorem line_isPrefix (r : Reader) : r.line <+: r.rest := List.takeWhile_prefix _

theorem line_append (r : Reader) : r.line ++ (r.skipMany r.line.length).rest = r.rest := by
  rw [rest_skipMany]
  exact List.prefix_iff_eq_append.1 r.line_isPrefix

theorem over_line (r : Reader) : Over (!Text.isLineEnd ·) r (r.skipMany r.line.length) := by
  rw [line, ← skipWhile_eq_skipMany]
  exact .skipWhile _ r

/-- The place within a line that so many characters precede. -/
theorem over_skipMany {n : Nat} (few : n ≤ r.line.length) :
    Over (!Text.isLineEnd ·) r (r.skipMany n) ∧ (r.skipMany n).position = r.position + n := by
  have all := r.line_isPrefix.length_le
  have here : (r.skipMany n).position = r.position + n := position_skipMany (Nat.le_trans few all)
  have there : (r.skipMany r.line.length).position = r.position + r.line.length :=
    position_skipMany all
  exact ⟨r.over_line.cut (reaches_skipMany n r) (by omega), here⟩

theorem location_skipMany {n : Nat} (few : n ≤ r.line.length) :
    (r.skipMany n).location = r.location.right n := by
  obtain ⟨across, position⟩ := over_skipMany few
  rw [across.location_of_inline, position, Nat.add_sub_cancel_left]

/-- A span takes a part of a line. -/
theorem covers_inline (before text after : List Char) (split : r.line = before ++ text ++ after) :
    Span.Covers ⟨r.location.right before.length, r.location.right (before.length + text.length)⟩ r
      text := by
  have length : r.line.length = before.length + text.length + after.length := by
    rw [split, List.length_append, List.length_append]
  obtain ⟨rest, split'⟩ := r.line_isPrefix
  rw [split] at split'
  refine .stretch (reaches_skipMany before.length r) (reaches_skipMany text.length _) ?_ ?_
  · rw [← skipMany_add, location_skipMany (by omega), location_skipMany (by omega)]
  · refine (reaches_skipMany text.length _).textTo_eq ?_
    rw [← skipMany_add, rest_skipMany, rest_skipMany, ← split']
    simp [List.drop_append]

/-- A span takes the beginning of a line. -/
theorem covers_front {text : List Char} (front : text <+: r.line) :
    Span.Covers ⟨r.location, r.location.right text.length⟩ r text := by
  obtain ⟨after, split⟩ := front
  have covers := covers_inline (r := r) [] text after (by rw [List.nil_append, split])
  simpa [Location.right] using covers

end Reader

/-! ## Comments -/

/-- How many quotes introduce a comment that is introduced by quotes. -/
def CommentStyle.quotes : CommentStyle → Nat
  | singleLine => 1
  | documentation => 3

/-- If the span of a comment starts with a quote, it takes the quotes that introduce the comment, and
    the text of the comment. -/
def Comment.SpansText (c : Comment) (r : Reader) : Prop :=
  ∃ text, c.span.Covers r text ∧ (text.head?.any Text.isCommentQuote = true →
    ∃ marks : List Char, text = marks ++ c.text.toList ∧ marks.length = c.style.quotes
      ∧ ∀ q ∈ marks, Text.isCommentQuote q = true)

/-- The span of a tag comment takes the tag and the text after it. -/
def TagComment.SpansText (t : TagComment) (r : Reader) : Prop :=
  t.span.Covers r (t.tag.toList ++ t.text.toList)

theorem TagComment.Tells.spansText {t : TagComment} {tags : List String} {r : Reader}
    {before : List Char} (h : t.Tells tags r.line before)
    (span : t.span = ⟨r.location.right before.length, (r.skipMany r.line.length).location⟩) :
    t.SpansText r := by
  have split : r.line = before ++ (t.tag.toList ++ t.text.toList) ++ [] := by
    rw [List.append_nil, ← List.append_assoc]
    exact h.word.split
  have covers := covers_inline _ _ _ split
  rw [← List.length_append, ← List.append_nil (before ++ _), ← split,
    ← location_skipMany (Nat.le_refl _), ← span] at covers
  exact covers

/-- The quotes that introduce a comment and its text make up the line from the first quote on. -/
theorem Comment.Tells.exists_marks {c : Comment} {line : List Char} (h : c.Tells true line)
    {q : Char} (quote : Text.isCommentQuote q = true) :
    ∃ marks : List Char, q :: line = marks ++ c.text.toList ∧ marks.length = c.style.quotes
      ∧ ∀ q ∈ marks, Text.isCommentQuote q = true := by
  rw [h.text]
  cases style : c.style with
  | singleLine => exact ⟨[q], by simp, rfl, by simpa using quote⟩
  | documentation =>
    obtain ⟨-, a, b, text, rfl, first, second⟩ := h.style.1 style
    exact ⟨[q, a, b], by simp, rfl, by simp [quote, first, second]⟩

namespace Piece

/-- The spans of what is recorded of a comment. The line of a comment that no quote introduces comes
    after a keyword, and possibly after a mark. -/
theorem spansText_comment {quoted : Bool} {start r : Reader} {mark : Option Token}
    (introduced : Comment.Introduced start quoted mark r)
    (plain : quoted = false → start.peekIs Text.isCommentQuote = false) {c : Comment}
    (tells : c.Tells quoted r.line)
    (span : c.span = ⟨start.location, (r.skipMany r.line.length).location⟩) : c.SpansText start := by
  have reaches := start.reaches_skip.trans introduced.reaches
  have line := reaches_skipMany r.line.length r
  refine ⟨_, .stretch (.refl _) (reaches.trans line) span rfl, fun quote => ?_⟩
  have ahead : start.peekIs Text.isCommentQuote = true := by
    obtain ⟨q, first, quote⟩ := (Option.any_eq_true _ _).1 quote
    obtain ⟨more, text⟩ := List.head?_eq_some_iff.1 first
    obtain ⟨after, split⟩ := textTo_isPrefix start (r.skipMany r.line.length)
    simp [peekIs, peek, ← split, text, quote]
  cases introduced with
  | keyword | access =>
    rw [plain rfl] at ahead
    cases ahead
  | @quote q first mark =>
    have text : start.textTo (start.skip.skipMany start.skip.line.length)
        = q :: start.skip.line := by
      refine (reaches.trans line).textTo_eq ?_
      rw [rest_of_peek first, List.cons_append, line_append]
    rw [text]
    exact tells.exists_marks mark

end Piece

/-! ## Directives -/

namespace Text

theorem exists_trim (text : List Char) :
    ∃ before after, text = before ++ trim text ++ after ∧ ∀ c ∈ before, isBlank c = true := by
  have back := List.takeWhile_append_dropWhile (p := isBlank) (l := (text.dropWhile isBlank).reverse)
  have front := List.takeWhile_append_dropWhile (p := isBlank) (l := text)
  refine ⟨text.takeWhile isBlank,
    ((text.dropWhile isBlank).reverse.takeWhile isBlank).reverse, ?_, fun c => List.mem_takeWhile_imp⟩
  rw [List.append_assoc, trim, ← List.reverse_append, back, List.reverse_reverse, front]

end Text

/-- The stretch of source that spells a directive: its number sign, whitespace, its name, whitespace
    and its argument. There is no whitespace before a name or an argument that is empty, unless
    something follows. -/
structure Directive.SpelledOver (d : Directive) (r : Reader) (whole : Span)
    (blanks name gap : List Char) : Prop where
  named : d.name.toList = '#' :: name
  blank : ∀ c ∈ blanks ++ gap, Text.isInlineBlank c = true
  noGap : d.argument.toList = [] → gap = []
  noBlanks : d.argument.toList = [] → name = [] → blanks = []
  covers : whole.Covers r ('#' :: blanks ++ name ++ gap ++ d.argument.toList)

/-- The span of a directive starts at its number sign and takes as many characters as the name and
    the argument have. It ends with the directive exactly if there is no whitespace within it. -/
def Directive.SpansLength (d : Directive) (r : Reader) : Prop :=
  ∃ whole blanks name gap, d.SpelledOver r whole blanks name gap
    ∧ d.span = ⟨whole.start, whole.start.right (d.name.length + d.argument.length)⟩
    ∧ (d.span = whole ↔ blanks = [] ∧ gap = [])

theorem Directive.spansLength_of_line {r : Reader} (blanks name before argument after : List Char)
    (line : r.line = '#' :: blanks ++ name ++ (before ++ argument ++ after))
    (blank : ∀ c ∈ blanks ++ before, Text.isInlineBlank c = true) :
    Directive.SpansLength
      { name := String.ofList ('#' :: name)
        argument := String.ofList argument
        span := ⟨r.location, r.location.right (1 + name.length + argument.length)⟩ } r := by
  -- what stands before an empty name or argument is not part of the directive
  obtain ⟨blanks', gap, isFront, blank', noGap, noBlanks⟩ : ∃ blanks' gap,
      '#' :: blanks' ++ name ++ gap ++ argument <+: r.line
        ∧ (∀ c ∈ blanks' ++ gap, Text.isInlineBlank c = true)
        ∧ (argument = [] → gap = []) ∧ (argument = [] → name = [] → blanks' = []) := by
    by_cases empty : argument = []
    · subst empty
      by_cases nameless : name = []
      · subst nameless
        exact ⟨[], [], by rw [line]; simp, by simp, fun _ => rfl, fun _ _ => rfl⟩
      · refine ⟨blanks, [], ?_, fun c hc => blank c ?_, fun _ => rfl, fun _ => (absurd · nameless)⟩
        · rw [line]
          simp
        · exact List.mem_append_left _ (by simpa using hc)
    · exact ⟨blanks, before, by rw [line]; simp, blank, (absurd · empty), (absurd · empty)⟩
  have length : ('#' :: blanks' ++ name ++ gap ++ argument).length
      = 1 + name.length + argument.length + (blanks'.length + gap.length) := by
    simp only [List.length_append, List.length_cons]
    omega
  refine ⟨⟨r.location, r.location.right ('#' :: blanks' ++ name ++ gap ++ argument).length⟩, blanks',
    name, gap, ⟨String.toList_ofList, blank', ?_, ?_, ?_⟩, ?_, ?_⟩
  · rwa [String.toList_ofList]
  · rwa [String.toList_ofList]
  · rw [String.toList_ofList]
    exact covers_front isFront
  · rw [String.length_ofList, String.length_ofList, List.length_cons, Nat.add_comm name.length]
  · rw [length, ← List.length_eq_zero_iff, ← List.length_eq_zero_iff]
    simp only [Span.mk.injEq, Location.right, Location.mk.injEq, true_and]
    omega

namespace Piece

theorem spansLength_directive {start r : Reader} (s : Setting) (ahead : start.peek = some '#')
    (blanks : Over Text.isInlineBlank start.skip r) :
    ∃ d : Directive, (directive s start r).entries = [.trivia (.directive d)]
      ∧ d.SpansLength start := by
  -- the number sign, whitespace, the name and the rest of the line
  have name := Over.skipWhile Text.isWordChar r
  have sign : start.textTo start.skip = ['#'] := start.reaches_skip.textTo_eq (rest_of_peek ahead)
  have whole : start.line = '#' :: start.skip.textTo r ++ r.textTo (r.skipWhile Text.isWordChar)
      ++ (r.skipWhile Text.isWordChar).line := by
    rw [line_of_over (.skip ahead rfl), line_of_over (blanks.mono inline_of_isInlineBlank),
      line_of_over (name.mono inline_of_isWordChar), sign]
    simp
  rw [directive_eq]
  refine ⟨_, rfl, ?_⟩
  rw [textTo_skipLine]
  obtain ⟨before, after, trimmed, blank⟩ := Text.exists_trim (r.skipWhile Text.isWordChar).line
  have inline : ∀ c ∈ before, Text.isInlineBlank c = true := by
    intro c hc
    have within : c ∈ (r.skipWhile Text.isWordChar).line := by
      rw [trimmed]
      simp [hc]
    simp [Text.isInlineBlank, blank c hc, List.mem_takeWhile_imp within]
  refine Directive.spansLength_of_line (start.skip.textTo r) _ before _ after ?_
    (List.forall_mem_append.2 ⟨blanks.forall_textTo, inline⟩)
  rw [← trimmed]
  exact whole

end Piece

end BasicLexis
