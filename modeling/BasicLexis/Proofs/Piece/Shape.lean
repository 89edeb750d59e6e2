import BasicLexis.Proofs.Piece.CommentLine
import BasicLexis.Proofs.Piece.Tokens
import BasicLexis.Proofs.Source.Places

set_option autoImplicit false

/-! # The shapes of pieces

What a piece of the source can be, said once for all ways to read one: whitespace, a line end, a
continuation of the line, a character that no token starts with, a comment, a directive, or a token.
`Piece.Shape` says for each of them which stretch of the source its tokens and its trivia take, and
how a token's text is read off the source. Whatever holds of all tokens and all trivia of a source,
such as their order, follows from the shapes of its pieces.

Two tokens can come from one piece. The dot after `1.` starts where the number ends, but the
exclamation mark of `a!b` lies within the stretch that the name before it takes. After the keyword
`Rem`, such a mark even lies within a comment. -/

namespace BasicLexis

open Reader

/-! ## Tokens -/

/-- The text of the tokens of a kind whose text does not vary. -/
def TokenKind.spelling (kind : TokenKind) : List Char := (kind.symbol?.getD "").toList

/-- A name between brackets, which stand in the source and not in its text. -/
def Token.IsBracketed (t : Token) (r : Reader) : Prop :=
  t.kind = .identifier ∧ r.peek = some '[' ∧ t.text.toList.head? ≠ some '['

/-- The source spells the text of a token from a place on. A name in brackets comes after its opening
    bracket, and the text of an XML section is only its inside. -/
def Token.SpelledAt (t : Token) (r : Reader) : Prop :=
  t.kind ≠ .xmlComment → t.kind ≠ .xmlCData →
    t.text.toList <+: r.rest ∨ (t.IsBracketed r ∧ '[' :: t.text.toList <+: r.rest)

/-- The token takes the stretch from one place to another. -/
structure Token.Stands (t : Token) (r r' : Reader) : Prop where
  reaches : r.Reaches r'
  start : t.start = r.location
  stop : t.stop = r'.location
  inner : t.IsInner
  spelled : t.SpelledAt r

/-- The text of a token is what the source has at a place. -/
theorem Token.SpelledAt.of_isPrefix {t : Token} {r : Reader} (h : t.text.toList <+: r.rest) :
    t.SpelledAt r := fun _ _ => .inl h

/-! ## Comments -/

/-- The exclamation mark at a place. -/
def Token.accessAt (r : Reader) : Token := .symbol .exclamation r.location r.skip.location

/-- What introduces a comment: a quote or the keyword `Rem`. The line of the comment starts after
    it, or after the exclamation mark that is read with the keyword and waits to become a token. -/
inductive Comment.Introduced (start : Reader) : Bool → Option Token → Reader → Prop where
  | quote {c : Char} (ahead : start.peek = some c) (quote : Text.isCommentQuote c = true) :
    Introduced start true none start.skip
  | keyword {stop : Reader} (reaches : start.skip.Reaches stop)
      (spells : Keyword.ofWord? (start.textTo stop) = some .Rem) : Introduced start false none stop
  | access {stop : Reader} (reaches : start.skip.Reaches stop)
      (spells : Keyword.ofWord? (start.textTo stop) = some .Rem) (ahead : stop.peek = some '!') :
    Introduced start false (some (.accessAt stop)) stop.skip

/-- The text of a comment, given the rest of its line after what introduces it. -/
def Comment.textOf (quoted : Bool) (line : List Char) : List Char :=
  if quoted then (Piece.documentationText? line).getD line else line

/-- The comment takes the stretch from a place to the end of the line, and all of the line after what
    introduces it is its text. The mark is a token that was read with the keyword. -/
structure Comment.Stands (c : Comment) (start stop : Reader) (mark : Option Token) : Prop where
  span : c.span = ⟨start.location, stop.location⟩
  ends : stop.peekIs (!Text.isLineEnd ·) = false
  text : ∃ quoted after, Introduced start quoted mark after ∧ Over (!Text.isLineEnd ·) after stop
    ∧ c.text = String.ofList (textOf quoted (after.textTo stop))

theorem Comment.Introduced.reaches {start after : Reader} {quoted : Bool} {mark : Option Token}
    (h : Introduced start quoted mark after) : start.skip.Reaches after := by
  cases h with
  | quote => exact .refl _
  | keyword reaches => exact reaches
  | access reaches => exact reaches.trans (reaches_skip _)

/-- A comment goes from what introduces it to the end of the line. -/
theorem Comment.Stands.reaches {c : Comment} {start stop : Reader} {mark : Option Token}
    (h : c.Stands start stop mark) : start.skip.Reaches stop := by
  obtain ⟨quoted, after, introduced, across, -⟩ := h.text
  exact introduced.reaches.trans across.reaches

/-! ## Pieces -/

namespace Piece

/-- The trivia of a piece. -/
def trivia (p : Piece) : List Trivia := p.entries.filterMap Entry.trivia?

/-- The piece has neither tokens nor trivia. -/
structure IsSilent (p : Piece) : Prop where
  token : p.token = none
  queued : p.queued = none
  trivia : p.trivia = []

/-- The line ends with the piece: with a token that starts at a location, if one precedes it on the
    line. -/
def EndsLine (freshLine : Bool) (p : Piece) (l : Location) : Prop :=
  p.token = if freshLine then none else some (.lineEnd l p.rest.location)

/-- What a piece that starts at a place can be. -/
inductive Shape (freshLine : Bool) (start : Reader) (p : Piece) : Prop where
  /-- Whitespace. -/
  | blank (across : Over Text.isBlank start p.rest) (silent : p.IsSilent)
  /-- The end of a line, or a line without anything on it. -/
  | lineEnd (across : Over Text.isBlank start p.rest) (ends : p.EndsLine freshLine start.location)
      (queued : p.queued = none)
      (trivia : p.trivia = if freshLine then [.blankLine start.location] else [])
  /-- An underscore before whitespace, and the whitespace. -/
  | continuation (ahead : start.peek = some '_') (blank : (start.peekAt 1).all Text.isBlank = true)
      (across : Over Text.isBlank start.skip p.rest) (silent : p.IsSilent)
  /-- A character that no token starts with. -/
  | unknown {c : Char} (ahead : start.peek = some c) (rest : p.rest = start.skip)
      (silent : p.IsSilent) (reported : problem start.location (.unknownCharacter c) ∈ p.entries)
  /-- A comment and the end of its line. -/
  | comment {c : Comment} {stop : Reader} (stands : c.Stands start stop p.queued)
      (rest : p.rest = stop.skipLineEnd) (ends : p.EndsLine freshLine stop.location)
      (trivia : p.trivia = [.comment c])
  /-- A directive and the end of its line. The stretch that it is recorded with is shorter than the
      line by the whitespace that its name and argument go without. -/
  | directive {d : Directive} {last stop : Reader} (reaches : start.skip.Reaches last)
      (across : Over (!Text.isLineEnd ·) start stop) (within : last.Reaches stop)
      (lineEnd : stop.peekIs (!Text.isLineEnd ·) = false)
      (rest : p.rest = stop.skipLineEnd) (ends : p.EndsLine freshLine last.location)
      (queued : p.queued = none) (span : d.span = ⟨start.location, last.location⟩)
      (trivia : p.trivia = [.directive d])
  /-- A token after whitespace, which only XML sections come after. -/
  | token {t : Token} {place : Reader} (across : Over Text.isBlank start place)
      (filled : start.position < place.position → place.position < p.rest.position)
      (stands : t.Stands place p.rest) (token : p.token = some t) (queued : p.queued = none)
      (trivia : p.trivia = [])
  /-- A number and a dot. -/
  | dotted {t : Token} {stop : Reader} (stands : t.Stands start stop) (ahead : stop.peek = some '.')
      (rest : p.rest = stop.skip) (token : p.token = some t)
      (queued : p.queued = some (.symbol .dot stop.location stop.skip.location))
      (trivia : p.trivia = [])
  /-- A word and an exclamation mark, which both end at the same place. -/
  | accessed {t : Token} {stop : Reader} (stands : t.Stands start stop.skip)
      (reaches : start.skip.Reaches stop) (ahead : stop.peek = some '!') (rest : p.rest = stop.skip)
      (token : p.token = some t) (queued : p.queued = some (.accessAt stop))
      (trivia : p.trivia = [])

variable {freshLine : Bool} {start : Reader}

theorem Shape.reaches {p : Piece} (h : Shape freshLine start p) : start.Reaches p.rest := by
  cases h with
  | blank across silent => exact across.reaches
  | lineEnd across ends queued trivia => exact across.reaches
  | continuation ahead blank across silent => exact start.reaches_skip.trans across.reaches
  | unknown ahead rest silent reported =>
    rw [rest]
    exact start.reaches_skip
  | comment stands rest ends trivia =>
    rw [rest]
    exact start.reaches_skip.trans (stands.reaches.trans (reaches_skipLineEnd _))
  | directive reaches across within lineEnd rest ends queued span trivia =>
    rw [rest]
    exact across.reaches.trans (reaches_skipLineEnd _)
  | token across filled stands token queued trivia => exact across.reaches.trans stands.reaches
  | dotted stands ahead rest token queued trivia =>
    rw [rest]
    exact stands.reaches.trans (reaches_skip _)
  | accessed stands reaches ahead rest token queued trivia =>
    rw [rest]
    exact stands.reaches

/-- A piece of one token, which takes all of it. -/
theorem shape_of_stands {p : Piece} {t : Token} (stands : t.Stands start p.rest)
    (token : p.token = some t) (queued : p.queued = none) (trivia : p.trivia = []) :
    Shape freshLine start p :=
  .token (.refl _ _) (absurd · (Nat.lt_irrefl _)) stands token queued trivia

/-- A further note on a piece, which is no trivia. -/
theorem Shape.withEvent {p : Piece} (h : Shape freshLine start p) (event : LogEvent) :
    Shape freshLine start { p with entries := .event event :: p.entries } := by
  cases h with
  | blank across silent => exact .blank across ⟨silent.token, silent.queued, silent.trivia⟩
  | lineEnd across ends queued trivia => exact .lineEnd across ends queued trivia
  | continuation ahead blank across silent =>
    exact .continuation ahead blank across ⟨silent.token, silent.queued, silent.trivia⟩
  | unknown ahead rest silent reported =>
    exact .unknown ahead rest ⟨silent.token, silent.queued, silent.trivia⟩ (.tail _ reported)
  | comment stands rest ends trivia => exact .comment stands rest ends trivia
  | directive reaches across within lineEnd rest ends queued span trivia =>
    exact .directive reaches across within lineEnd rest ends queued span trivia
  | token across filled stands token queued trivia =>
    exact .token across filled stands token queued trivia
  | dotted stands ahead rest token queued trivia =>
    exact .dotted stands ahead rest token queued trivia
  | accessed stands reaches ahead rest token queued trivia =>
    exact .accessed stands reaches ahead rest token queued trivia

/-! ## Single tokens -/

/-- The kind spells `front`, which precedes a place, and the text from there to another place. -/
def Spells (front : List Char) (r : Reader) (found : TokenKind × Reader) : Prop :=
  found.1.spelling ++ found.2.rest = front ++ r.rest

theorem spells_here {kind : TokenKind} {front : List Char} (r : Reader)
    (spelling : kind.spelling = front) : Spells front r (kind, r) := by
  unfold Spells
  rw [spelling]

/-- One more character is part of the operator. -/
theorem Spells.of_skip {front : List Char} {c : Char} {r : Reader} {found : TokenKind × Reader}
    (h : Spells (front ++ [c]) r.skip found) (ahead : r.peek = some c) : Spells front r found := by
  unfold Spells at *
  rw [h, rest_of_peek ahead, List.append_assoc]
  rfl

theorem stands_symbol {kind : TokenKind} {rest : Reader} (reaches : start.Reaches rest)
    (spells : Spells [] start (kind, rest)) (eol : kind ≠ .eol) (eof : kind ≠ .eof) :
    (Token.symbol kind start.location rest.location).Stands start rest := by
  refine ⟨reaches, rfl, rfl, ⟨eol, eof⟩, .of_isPrefix ?_⟩
  exact ⟨rest.rest, spells⟩

/-- A mark of one character. -/
theorem stands_mark {kind : TokenKind} {c : Char} (ahead : start.peek = some c)
    (spelling : kind.spelling = [c]) (eol : kind ≠ .eol) (eof : kind ≠ .eof) :
    (Token.symbol kind start.location start.skip.location).Stands start start.skip :=
  stands_symbol start.reaches_skip ((spells_here _ spelling).of_skip ahead) eol eof

theorem shape_symbol {kind : TokenKind} {rest : Reader} (reaches : start.Reaches rest)
    (spells : Spells [] start (kind, rest)) (eol : kind ≠ .eol) (eof : kind ≠ .eof) :
    Shape freshLine start (symbol kind start rest) :=
  shape_of_stands (stands_symbol reaches spells eol eof) rfl rfl rfl

theorem shape_word {k : TokenKind} {rest : Reader} {text : List Char} {entries : List Entry}
    (reaches : start.Reaches rest) (text_ : text <+: start.rest)
    (noTrivia : ∀ e ∈ entries, e.trivia? = none) (eol : k ≠ .eol) (eof : k ≠ .eof) :
    Shape freshLine start (word k start rest text entries) := by
  refine shape_of_stands ⟨reaches, rfl, rfl, ⟨eol, eof⟩, .of_isPrefix ?_⟩ rfl rfl
    (List.filterMap_eq_nil_iff.2 noTrivia)
  simpa using text_

/-- The inside of an XML section. -/
theorem stands_section {kind : TokenKind} {rest : Reader} (reaches : start.Reaches rest)
    (text : List Char) (h : kind = .xmlComment ∨ kind = .xmlCData) :
    Token.Stands { kind, start := start.location, stop := rest.location, text := String.ofList text }
      start rest := by
  refine ⟨reaches, rfl, rfl, ?_, fun comment cdata => ?_⟩
  · rcases h with rfl | rfl <;> exact ⟨nofun, nofun⟩
  · rcases h with rfl | rfl
    · exact absurd rfl comment
    · exact absurd rfl cdata

end Piece

/-! ## Literals -/

theorem Numeral.stands_literal {start stop : Reader} (reaches : start.Reaches stop)
    {kind : TokenKind} (literal_ : kind.isLiteral = true) (value : LiteralValue)
    (format : LiteralFormat) : (literal start stop kind value format).Stands start stop := by
  refine ⟨reaches, rfl, rfl, ?_, .of_isPrefix ?_⟩
  · constructor <;> rintro (rfl : kind = _) <;> cases literal_
  · simpa [literal] using textTo_isPrefix start stop

theorem Piece.shape_literal {freshLine : Bool} {start rest : Reader} (reaches : start.Reaches rest)
    {kind : TokenKind} (literal_ : kind.isLiteral = true) (value : LiteralValue)
    (format : LiteralFormat) {entries : List Entry} (noTrivia : ∀ e ∈ entries, e.trivia? = none) :
    Shape freshLine start (literal kind start rest value format entries) :=
  shape_of_stands (Numeral.stands_literal reaches literal_ value format) rfl rfl
    (List.filterMap_eq_nil_iff.2 noTrivia)

namespace Numeral

/-- The literal takes the stretch from the start to where the reading ends, or a dot follows it. -/
inductive Shape (start : Reader) (n : Numeral) : Prop where
  | whole (stands : n.token.Stands start n.rest) (dot : n.dot = none)
  | dotted {stop : Reader} (stands : n.token.Stands start stop) (ahead : stop.peek = some '.')
      (rest : n.rest = stop.skip)
      (dot : n.dot = some (.symbol .dot stop.location stop.skip.location))

variable {start stop r : Reader}

theorem stands_integer (reaches : start.Reaches stop) (radix : Radix) (digits : List Char)
    (type : Option IntegerType) (diagnostics : List Diagnostic) :
    (integer start stop radix digits type diagnostics).token.Stands start stop := by
  unfold integer
  split <;> exact stands_literal reaches rfl _ _

theorem shape_integer (reaches : start.Reaches stop) (radix : Radix) (digits : List Char)
    (type : Option IntegerType) (diagnostics : List Diagnostic) :
    Shape start (integer start stop radix digits type diagnostics) := by
  refine .whole ?_ (isWhole_integer _ _ _ _ _ _).2
  rw [rest_integer]
  exact stands_integer reaches _ _ _ _

theorem shape_real (reaches : start.Reaches stop) (parts : Parts) (type : RealType) :
    Shape start (real start stop parts type) := by
  refine .whole ?_ (isWhole_real _ _ _ _).2
  rw [rest_real]
  unfold real
  cases type with
  | double => exact stands_literal reaches rfl _ _
  | single => exact stands_literal reaches rfl _ _
  | decimal =>
    dsimp only
    split <;> exact stands_literal reaches rfl _ _

theorem shape_radixInteger (reaches : start.Reaches r) : Shape start (radixInteger start r) := by
  unfold radixInteger
  generalize (if r.peekIs fun c => c == 'H' || c == 'h' then Radix.hexadecimal else .octal) = radix
  have digits := reaches.trans (r.reaches_skip.trans (reaches_readWhile radix.isDigit r.skip))
  dsimp only
  split
  · exact .whole (stands_literal digits rfl _ _) rfl
  · exact shape_integer (digits.trans (reaches_integerSuffix _)) _ _ _ _

theorem shape_tail (reaches : start.Reaches r) (integral fraction : List Char) :
    Shape start (tail start r integral fraction) := by
  unfold tail
  have power := reaches.trans (reaches_exponent r)
  dsimp only
  split
  · exact shape_real (power.trans (reaches_skip _)) _ _
  · split
    · exact shape_integer (power.trans (reaches_integerSuffix _)) _ _ _ _
    · exact shape_real power _ _

theorem shape_decimal (start : Reader) : Shape start (decimal start) := by
  unfold decimal
  have digits := start.reaches_readWhile Text.isDigit
  dsimp only
  split
  · next ahead =>
    split
    · exact shape_tail (digits.trans ((reaches_skip _).trans (reaches_readWhile _ _))) _ _
    · split
      · exact .dotted (stands_integer digits _ _ _ _) ahead rfl rfl
      · exact shape_tail digits _ _
  · exact shape_tail digits _ _

theorem shape_scan (start : Reader) : Shape start (scan start) := by
  unfold scan
  split
  · next eaten => exact shape_radixInteger (reaches_of_eat? eaten)
  · exact shape_decimal start

end Numeral

namespace Piece

variable {freshLine : Bool} {start : Reader}

theorem shape_ofNumeral {n : Numeral} (h : n.Shape start) : Shape freshLine start (ofNumeral n) := by
  have noTrivia : (ofNumeral n).trivia = [] := by
    simp [trivia, ofNumeral, List.filterMap_eq_nil_iff, Entry.trivia?]
  cases h with
  | whole stands dot => exact shape_of_stands stands rfl dot noTrivia
  | dotted stands ahead rest dot => exact .dotted stands ahead rest rfl dot noTrivia

/-! ## Entries that are no trivia -/

theorem noTrivia_nil : ∀ e ∈ ([] : List Entry), e.trivia? = none := by simp

theorem noTrivia_append {a b : List Entry} (ha : ∀ e ∈ a, e.trivia? = none)
    (hb : ∀ e ∈ b, e.trivia? = none) : ∀ e ∈ a ++ b, e.trivia? = none :=
  List.forall_mem_append.2 ⟨ha, hb⟩

theorem noTrivia_problem (l : Location) (p : Problem) : ∀ e ∈ [problem l p], e.trivia? = none := by
  simp [problem, Entry.trivia?]

/-- A problem that is reported on a condition. -/
theorem noTrivia_if {condition : Prop} [Decidable condition] (l : Location) (p : Problem) :
    ∀ e ∈ if condition then [problem l p] else [], e.trivia? = none := by
  split
  · exact noTrivia_problem l p
  · exact noTrivia_nil

theorem noTrivia_checkNameLength (start : Reader) (name : List Char) :
    ∀ e ∈ checkNameLength start name, e.trivia? = none :=
  noTrivia_if _ _

/-- What there is to note about the inside of a literal. -/
theorem noTrivia_inside (found : List Diagnostic) (closed : Bool) (l : Location) (p : Problem) :
    ∀ e ∈ found.map .problem ++ (if closed then [] else [problem l p]), e.trivia? = none := by
  refine noTrivia_append (by simp [Entry.trivia?]) ?_
  cases closed with
  | true => exact noTrivia_nil
  | false => exact noTrivia_problem l p

/-! ## Strings, dates and directives -/

theorem shape_character {rest : Reader} (reaches : start.Reaches rest) (content : List Char)
    {entries : List Entry} (noTrivia : ∀ e ∈ entries, e.trivia? = none) :
    Shape freshLine start (character start rest content entries) := by
  unfold character
  split
  · exact shape_literal reaches rfl _ _ noTrivia
  · exact shape_literal reaches rfl _ _ (noTrivia_append noTrivia (noTrivia_problem _ _))

theorem shape_string (start : Reader) : Shape freshLine start (string start start.skip) := by
  have inside := start.reaches_skip.trans (Enclosure.string.reaches_read start.skip)
  unfold string
  dsimp only
  split
  · exact shape_character (inside.trans (reaches_skip _)) _
      (noTrivia_append (noTrivia_inside _ _ _ _) (noTrivia_if _ _))
  · exact shape_literal inside rfl _ _
      (noTrivia_append (noTrivia_inside _ _ _ _) (noTrivia_if _ _))

theorem shape_date {r : Reader} (reaches : start.Reaches r) :
    Shape freshLine start (date start r) := by
  have inside := reaches.trans (Enclosure.date.reaches_read r)
  unfold date
  dsimp only
  split
  · exact shape_literal inside rfl _ _ (noTrivia_inside _ _ _ _)
  · exact shape_literal inside rfl _ _
      (noTrivia_append (noTrivia_inside _ _ _ _) (noTrivia_problem _ _))

/-- No character of a word ends a line. -/
theorem inline_of_isWordChar (c : Char) (h : Text.isWordChar c = true) :
    (!Text.isLineEnd c) = true := by
  cases ends : Text.isLineEnd c with
  | false => rfl
  | true =>
    simp only [Text.isLineEnd, Bool.or_eq_true, beq_iff_eq] at ends
    rcases ends with rfl | rfl <;> exact absurd h (by decide)

theorem inline_of_isInlineBlank (c : Char) (h : Text.isInlineBlank c = true) :
    (!Text.isLineEnd c) = true :=
  (Bool.and_eq_true_iff.1 h).2

theorem length_trim_le (text : List Char) : (Text.trim text).length ≤ text.length := by
  unfold Text.trim
  rw [List.length_reverse]
  refine Nat.le_trans (List.dropWhile_suffix _).length_le ?_
  rw [List.length_reverse]
  exact (List.dropWhile_suffix _).length_le

theorem directive_eq (s : Setting) (start r : Reader) :
    let stop := r.skipWhile Text.isWordChar
    let line := stop.skipWhile (!Text.isLineEnd ·)
    let argument := Text.trim (stop.textTo line)
    let last := start.location.right (1 + (r.textTo stop).length + argument.length)
    directive s start r = endOfLine s.freshLine last line.skipLineEnd
      [.trivia (.directive
        { name := String.ofList ('#' :: r.textTo stop)
          argument := String.ofList argument
          span := ⟨start.location, last⟩ })] := by
  simp only [directive, readWhile_eq, readLine_eq]

theorem shape_directive {r : Reader} (s : Setting) (ahead : start.peek = some '#')
    (blanks : Over Text.isInlineBlank start.skip r) :
    Shape s.freshLine start (directive s start r) := by
  -- the number sign, whitespace, the name and the rest of the line
  have sign : Over (!Text.isLineEnd ·) start start.skip := .skip ahead rfl
  have front := sign.trans (blanks.mono inline_of_isInlineBlank)
  have name := (Over.skipWhile Text.isWordChar r).mono inline_of_isWordChar
  have line := Over.skipWhile (!Text.isLineEnd ·) (r.skipWhile Text.isWordChar)
  have across := (front.trans name).trans line
  have first := position_skip_of_peek ahead
  have nameLength := name.reaches.length_textTo
  have lineLength := line.reaches.length_textTo
  have shorter := length_trim_le ((r.skipWhile Text.isWordChar).textTo
    ((r.skipWhile Text.isWordChar).skipWhile (!Text.isLineEnd ·)))
  have positions := And.intro blanks.reaches.position_le
    (And.intro name.reaches.position_le line.reaches.position_le)
  obtain ⟨last, reaches, within, position⟩ := across.reaches.exists_between
    (n := 1 + (r.textTo (r.skipWhile Text.isWordChar)).length
      + (Text.trim ((r.skipWhile Text.isWordChar).textTo
          ((r.skipWhile Text.isWordChar).skipWhile (!Text.isLineEnd ·)))).length) (by omega)
  have place := (across.cut reaches within.position_le).location_of_inline
  rw [position, Nat.add_sub_cancel_left] at place
  rw [directive_eq]
  refine .directive (start.reaches_skip.of_position_le reaches (by omega)) across within
    (peek_skipWhile _ _) rfl ?_ rfl ?_ rfl
  · unfold EndsLine
    rw [place]
    rfl
  · rw [place]

theorem shape_numberSign (s : Setting) (ahead : start.peek = some '#') :
    Shape s.freshLine start (numberSign s start start.skip) := by
  have blanks := Over.skipWhile Text.isInlineBlank start.skip
  unfold numberSign
  dsimp only
  split
  · exact shape_date (start.reaches_skip.trans blanks.reaches)
  · exact shape_directive s ahead blanks

/-! ## Comments and words -/

/-- A comment is the only trivia of its piece. -/
theorem trivia_comment (s : Setting) (quoted : Bool) (start r : Reader) :
    ∃ c : Comment, (commentOfLine s quoted start r).trivia = [.comment c]
      ∧ c.span = ⟨start.location, (r.skipWhile (!Text.isLineEnd ·)).location⟩
      ∧ c.text = String.ofList
        (Comment.textOf quoted (r.textTo (r.skipWhile (!Text.isLineEnd ·)))) := by
  let line := r.textTo (r.skipWhile (!Text.isLineEnd ·))
  let style :=
    if (if quoted then documentationText? line else none).isSome then CommentStyle.documentation
    else .singleLine
  refine ⟨⟨style, _, s.freshLine, _⟩, ?_, rfl, rfl⟩
  unfold trivia commentOfLine endOfLine
  dsimp only
  rw [List.filterMap_append, List.filterMap_eq_nil_iff.2, List.nil_append]
  · cases quoted <;> rfl
  · exact noTrivia_append (by simp [Entry.trivia?]) (noTrivia_if _ _)

theorem shape_comment {quoted : Bool} {mark : Option Token} {r : Reader}
    (introduced : Comment.Introduced start quoted mark r) (s : Setting) :
    Shape s.freshLine start { comment s quoted start r with queued := mark } := by
  obtain ⟨c, trivia, span, text⟩ := trivia_comment s quoted start r
  rw [comment_eq]
  exact .comment ⟨span, peek_skipWhile _ _, quoted, r, introduced, .skipWhile _ r, text⟩ rfl rfl
    trivia

/-- How a word ends: where it does, with a type character, or with an exclamation mark that
    accesses a member. -/
inductive WordEnd.Shape (r : Reader) (e : WordEnd) : Prop where
  | plain (rest : e.rest = r) (mark : e.mark = none) (access : e.access = none)
  | marked {c : Char} (ahead : r.peek = some c) (rest : e.rest = r.skip) (mark : e.mark = some c)
      (access : e.access = none)
  | access (ahead : r.peek = some '!') (rest : e.rest = r.skip) (mark : e.mark = none)
      (access : e.access = some (.accessAt r))

theorem shape_wordEnd (r : Reader) : (wordEnd r).Shape r := by
  unfold wordEnd
  split
  · next c ahead =>
    dsimp only
    split
    · split
      · exact .plain rfl rfl rfl
      · split
        · next access =>
          have mark : c = '!' := by simpa using (Bool.and_eq_true_iff.1 access).1
          subst mark
          exact .access ahead rfl rfl rfl
        · exact .marked ahead rfl rfl rfl
    · exact .plain rfl rfl rfl
  · exact .plain rfl rfl rfl

/-- A word with its type character is what the source has from its start on. -/
theorem textTo_append_peek {stop : Reader} (reaches : start.Reaches stop) {c : Char}
    (ahead : stop.peek = some c) : start.textTo stop ++ [c] <+: start.rest := by
  refine ⟨stop.skip.rest, ?_⟩
  rw [← reaches.textTo_append, rest_of_peek ahead, List.append_assoc]
  rfl

/-- A word and the exclamation mark after it. -/
theorem shape_accessed {k : TokenKind} {stop : Reader} (inner : start.skip.Reaches stop)
    (ahead : stop.peek = some '!') {entries : List Entry}
    (noTrivia : ∀ e ∈ entries, e.trivia? = none) (eol : k ≠ .eol) (eof : k ≠ .eof) :
    Shape freshLine start { word k start stop.skip (start.textTo stop) entries with
      queued := some (.accessAt stop) } := by
  have reaches := start.reaches_skip.trans (inner.trans stop.reaches_skip)
  refine .accessed ⟨reaches, rfl, rfl, ⟨eol, eof⟩, .of_isPrefix ?_⟩ inner ahead rfl rfl rfl
    (List.filterMap_eq_nil_iff.2 noTrivia)
  simpa using textTo_isPrefix _ _

theorem shape_name (s : Setting) (start : Reader) :
    Shape freshLine start (name s start start.skip) := by
  unfold name
  split
  · have reaches := start.reaches_skip.trans (reaches_skipWhile Text.isMarkupNameChar start.skip)
    exact shape_word reaches (textTo_isPrefix _ _) noTrivia_nil nofun nofun
  · have inner := reaches_skipWhile Text.isWordChar start.skip
    have reaches := start.reaches_skip.trans inner
    dsimp only
    cases shape_wordEnd (start.skip.skipWhile Text.isWordChar) with
    | plain rest mark access =>
      rw [rest, mark, access, Option.toList_none, List.append_nil]
      exact shape_word (k := .identifier) reaches (textTo_isPrefix _ _)
        (noTrivia_checkNameLength _ _) nofun nofun
    | marked ahead rest mark access =>
      rw [rest, mark, access]
      exact shape_word (k := .identifier) (reaches.trans (reaches_skip _))
        (textTo_append_peek reaches ahead) (noTrivia_checkNameLength _ _) nofun nofun
    | access ahead rest mark access =>
      rw [rest, mark, access, Option.toList_none, List.append_nil]
      exact shape_accessed inner ahead (noTrivia_checkNameLength _ _) nofun nofun

theorem shape_letters (s : Setting) (start : Reader) :
    Shape s.freshLine start (letters s start start.skip) := by
  unfold letters
  split
  · exact shape_name s start
  · have inner := reaches_skipWhile Text.isWordChar start.skip
    have reaches := start.reaches_skip.trans inner
    have ends := shape_wordEnd (start.skip.skipWhile Text.isWordChar)
    dsimp only
    split
    · next noMark spells =>
      -- what is read after the keyword `Rem` waits in line, although a comment follows
      cases ends with
      | plain rest mark access =>
        rw [rest, access]
        exact shape_comment (.keyword inner spells) s
      | marked ahead rest mark access =>
        rw [mark] at noMark
        cases noMark
      | access ahead rest mark access =>
        rw [rest, access]
        exact shape_comment (.access inner spells ahead) s
    · next keyword _ noMark _ =>
      cases ends with
      | plain rest mark access =>
        rw [rest, access]
        exact shape_word (k := .keyword keyword) reaches (textTo_isPrefix _ _) noTrivia_nil nofun
          nofun
      | marked ahead rest mark access =>
        rw [mark] at noMark
        cases noMark
      | access ahead rest mark access =>
        rw [rest, access]
        exact shape_accessed (k := .keyword keyword) inner ahead noTrivia_nil nofun nofun
    · exact shape_name s start

theorem shape_bracketed (ahead : start.peek = some '[') :
    Shape freshLine start (bracketed start start.skip) := by
  have across := Over.skipWhile Text.isWordChar start.skip
  have text : '[' :: start.skip.textTo (start.skip.skipWhile Text.isWordChar) <+: start.rest := by
    rw [rest_of_peek ahead]
    exact List.cons_prefix_cons.2 ⟨rfl, textTo_isPrefix _ _⟩
  have inside : (start.skip.textTo (start.skip.skipWhile Text.isWordChar)).head? ≠ some '[' := by
    intro first
    have := across.forall_textTo '[' (List.mem_of_head? first)
    exact absurd this (by decide)
  have noTrivia : ∀ e ∈ (bracketed start start.skip).entries, e.trivia? = none := by
    refine noTrivia_append (noTrivia_append ?_ ?_) (noTrivia_checkNameLength _ _)
    · split
      · exact noTrivia_nil
      · exact noTrivia_problem _ _
    · split
      · exact noTrivia_nil
      · exact noTrivia_problem _ _
  refine shape_of_stands (t := (bracketed start start.skip).token.get rfl)
    ⟨start.reaches_skip.trans (reaches_bracketed _ _), rfl, rfl, ⟨nofun, nofun⟩, ?_⟩ rfl rfl
    (List.filterMap_eq_nil_iff.2 noTrivia)
  intro _ _
  refine .inr ⟨⟨rfl, ahead, ?_⟩, ?_⟩
  · simpa [bracketed, word, readWhile_eq] using inside
  · simpa [bracketed, word, readWhile_eq] using text

/-! ## Whitespace -/

theorem shape_blank (s : Setting) {c : Char} (ahead : start.peek = some c)
    (blank_ : Text.isBlank c = true) : Shape s.freshLine start (blank s c start start.skip) := by
  have first : Over Text.isBlank start start.skip := .skip ahead blank_
  unfold blank
  split
  · next rest finished =>
    refine .lineEnd (first.trans (over_of_finishLineEnd? finished).1) rfl rfl ?_
    cases s.freshLine <;> rfl
  · exact .blank first ⟨rfl, rfl, rfl⟩

theorem shape_continuation (ahead : start.peek = some '_')
    (blank_ : (start.peekAt 1).all Text.isBlank = true) :
    Shape freshLine start (continuation start.skip) := by
  have blanks : Over Text.isBlank start.skip (start.skip.skipWhile Text.isInlineBlank) :=
    (Over.skipWhile _ _).mono fun c h => (Bool.and_eq_true_iff.1 h).1
  unfold continuation
  dsimp only
  split
  · exact .continuation ahead blank_ blanks ⟨rfl, rfl, rfl⟩
  · split
    · exact .continuation ahead blank_ (blanks.trans (over_skipLineEnd _)) ⟨rfl, rfl, rfl⟩
    · exact .continuation ahead blank_ blanks ⟨rfl, rfl, rfl⟩

theorem shape_underscore (s : Setting) (ahead : start.peek = some '_') :
    Shape freshLine start (underscore s start start.skip) := by
  unfold underscore
  split
  · exact shape_name s start
  · next blank_ =>
    refine shape_continuation ahead ?_
    rw [peekAt_one]
    simp only [peekIs] at blank_
    cases next : start.skip.peek with
    | none => rfl
    | some c => simpa [next] using blank_

/-! ## Operators -/

theorem spells_orAssign {plain assigning : TokenKind} {front : List Char} (r : Reader)
    (spelling : plain.spelling = front) (longer : assigning.spelling = front ++ ['=']) :
    Spells front r (orAssign r plain assigning) := by
  unfold orAssign eat?
  by_cases ahead : r.peek = some '='
  · rw [if_pos ahead]
    exact (spells_here r.skip longer).of_skip ahead
  · rw [if_neg ahead]
    exact spells_here r spelling

theorem spells_afterLess (r : Reader) : Spells ['<'] r (afterLess r) := by
  unfold afterLess
  split
  · next ahead => exact (spells_here r.skip rfl).of_skip ahead
  · next ahead => exact (spells_here r.skip rfl).of_skip ahead
  · next ahead => exact (spells_orAssign r.skip rfl rfl).of_skip ahead
  · exact spells_here r rfl

theorem spells_afterGreater (r : Reader) : Spells ['>'] r (afterGreater r) := by
  unfold afterGreater
  split
  · next ahead => exact (spells_here r.skip rfl).of_skip ahead
  · next ahead => exact (spells_orAssign r.skip rfl rfl).of_skip ahead
  · exact spells_here r rfl

theorem spells_afterDot (r : Reader) : Spells ['.'] r (afterDot r) := by
  unfold afterDot
  split
  · next ahead => exact (spells_here r.skip rfl).of_skip ahead
  · split
    · next ahead =>
      have second : r.skip.peek = some '.' := by rw [← peekAt_one, ahead.2]
      exact ((spells_here r.skip.skip rfl).of_skip second).of_skip ahead.1
    · exact spells_here r rfl

/-- An operator spells the character that it starts with and those after it that it takes. -/
theorem spells_operatorKind? {c : Char} {r : Reader} {found : TokenKind × Reader}
    (h : operatorKind? c r = some found) : Spells [c] r found := by
  unfold operatorKind? at h
  split at h <;> cases h
  all_goals with_reducible first
    | exact spells_afterLess r
    | exact spells_afterGreater r
    | exact spells_afterDot r
    | refine spells_orAssign r ?_ ?_
    | refine spells_here r ?_
  all_goals rfl

theorem shape_operator {c : Char} (ahead : start.peek = some c) :
    Shape freshLine start (operator c start start.skip) := by
  unfold operator
  split
  · next kind rest found =>
    obtain ⟨eol, eof⟩ := operatorKind?_ne found
    exact shape_symbol (start.reaches_skip.trans (reaches_of_operatorKind? found))
      ((spells_operatorKind? found).of_skip ahead) eol eof
  · exact .unknown ahead rfl ⟨rfl, rfl, rfl⟩ (.head _)

/-! ## XML literals -/

section Sections

variable {k : TokenKind} {place r rest : Reader}

/-- A section after whitespace is one token, whatever its text. -/
theorem shape_section (across : Over Text.isBlank start place)
    (filled : start.position < place.position → place.position < rest.position)
    (reaches : place.Reaches rest) (h : k = .xmlComment ∨ k = .xmlCData) (text : List Char)
    {entries : List Entry} (noTrivia : ∀ e ∈ entries, e.trivia? = none) :
    Shape freshLine start (word k place rest text entries) :=
  .token across filled (stands_section reaches text h) rfl rfl (List.filterMap_eq_nil_iff.2 noTrivia)

theorem shape_sectionTo (across : Over Text.isBlank start place)
    (filled : start.position < place.position → place.position < r.position)
    (reaches : place.Reaches r) (h : k = .xmlComment ∨ k = .xmlCData) (close : List Char) :
    Shape freshLine start (sectionTo k close place r) := by
  have longer {rest : Reader} (more : r.Reaches rest) (far : start.position < place.position) :
      place.position < rest.position := Nat.lt_of_lt_of_le (filled far) more.position_le
  unfold sectionTo
  split
  · next n _ =>
    have inside := reaches_skipMany (n + close.length) r
    exact shape_section across (longer inside) (reaches.trans inside) h _ noTrivia_nil
  · have inside := reaches_skipWhile (fun _ => true) r
    exact shape_section across (longer inside) (reaches.trans inside) h _ (noTrivia_problem _ _)

theorem shape_markupSection (across : Over Text.isBlank start place)
    (filled : start.position < place.position → place.position < r.position)
    (reaches : place.Reaches r) : Shape freshLine start (markupSection place r) := by
  have longer {rest : Reader} (more : r.Reaches rest) (far : start.position < place.position) :
      place.position < rest.position := Nat.lt_of_lt_of_le (filled far) more.position_le
  unfold markupSection
  split
  · next eaten =>
    have inside := reaches_of_eatText? eaten
    exact shape_sectionTo across (longer inside) (reaches.trans inside) (.inl rfl) _
  · split
    · next eaten =>
      have inside := reaches_of_eatText? eaten
      exact shape_sectionTo across (longer inside) (reaches.trans inside) (.inr rfl) _
    · have inside := (reaches_readWhile (· != '>') r).trans (reaches_eatOptional '>' _)
      exact shape_section across (longer inside) (reaches.trans inside) (.inl rfl) _
        (noTrivia_problem _ _)

end Sections

/-- A mark of two characters. -/
theorem shape_pair {kind : TokenKind} {c d : Char} (ahead : start.peek = some c)
    (second : start.skip.peek = some d) (spelling : kind.spelling = [c, d]) (eol : kind ≠ .eol)
    (eof : kind ≠ .eof) : Shape freshLine start (symbol kind start start.skip.skip) := by
  have later : Spells [c] start.skip (kind, start.skip.skip) :=
    (spells_here _ spelling).of_skip second
  exact shape_symbol (start.reaches_skip.trans (reaches_skip _)) (later.of_skip ahead) eol eof

theorem shape_single {kind : TokenKind} {c : Char} (ahead : start.peek = some c)
    (spelling : kind.spelling = [c]) (eol : kind ≠ .eol) (eof : kind ≠ .eof) :
    Shape freshLine start (symbol kind start start.skip) :=
  shape_of_stands (stands_mark ahead spelling eol eof) rfl rfl rfl

theorem shape_afterAngle (f : MarkupFrame) (ahead : start.peek = some '<') :
    Shape freshLine start (afterAngle f start start.skip).piece := by
  unfold afterAngle
  split
  · next second => exact shape_pair ahead second rfl nofun nofun
  · next second => exact shape_pair ahead second rfl nofun nofun
  · exact shape_markupSection (.refl _ _) (absurd · (Nat.lt_irrefl _))
      (start.reaches_skip.trans (reaches_skip _))
  · split
    · next rest eaten =>
      have marks := append_of_eatText? eaten
      have reaches := start.reaches_skip.trans (reaches_of_eatText? eaten)
      refine shape_symbol reaches (Spells.of_skip ?_ ahead) nofun nofun
      unfold Spells
      rw [← marks]
      exact congrArg (· ++ rest.rest) (rfl : TokenKind.xmlExpressionStart.spelling = ['<', '%', '='])
    · exact shape_single ahead rfl nofun nofun

theorem noTrivia_attributeFrom (quote : Char) (cs : List Char) (n : Nat) (l : Location)
    (content : List Char) {found : List Entry} (h : ∀ e ∈ found, e.trivia? = none) :
    ∀ e ∈ (attributeFrom quote cs n l content found).2.1, e.trivia? = none := by
  induction cs generalizing n l content found with
  | nil =>
    intro e he
    rw [attributeFrom, List.mem_reverse] at he
    rcases List.mem_cons.1 he with rfl | old
    · rfl
    · exact h e old
  | cons c cs ih =>
    unfold attributeFrom
    dsimp only
    split
    · intro e he
      exact h e (List.mem_reverse.1 he)
    · split
      · refine ih _ _ _ ?_
        intro e he
        rcases List.mem_cons.1 he with rfl | old
        · rfl
        · exact h e old
      · exact ih _ _ _ h

theorem shape_inTag (f : MarkupFrame) {c : Char} (ahead : start.peek = some c) :
    Shape freshLine start (inTag f c start start.skip).piece := by
  unfold inTag
  split
  · next h => exact shape_pair ahead h.2 (by rw [h.1]; rfl) nofun nofun
  split
  · next h => exact shape_pair ahead h.2 (by rw [h.1]; rfl) nofun nofun
  split
  · next h => exact shape_single ahead (by rw [h]; rfl) nofun nofun
  split
  · next h => exact shape_single ahead (by rw [h]; rfl) nofun nofun
  split
  · exact shape_literal (start.reaches_skip.trans (reaches_attributeValue c start start.skip)) rfl
      _ _ (noTrivia_attributeFrom _ _ _ _ _ noTrivia_nil)
  split
  · next blank_ => exact .blank (.skip ahead (isBlank_of_isMarkupBlank blank_)) ⟨rfl, rfl, rfl⟩
  · exact shape_word (start.reaches_skip.trans (reaches_skipWhile _ _)) (textTo_isPrefix _ _)
      noTrivia_nil nofun nofun

theorem shape_read (m : XmlMode) {c : Char} (ahead : start.peek = some c) :
    Shape freshLine start (m.read c start start.skip).1 := by
  unfold XmlMode.read markup
  split
  · dsimp only
    split
    · next angle => exact shape_afterAngle _ (by rw [ahead, angle])
    · split
      · exact shape_inTag _ ahead
      · exact shape_word (start.reaches_skip.trans (reaches_skipWhile _ _)) (textTo_isPrefix _ _)
          noTrivia_nil nofun nofun
  · refine shape_word start.reaches_skip ⟨start.skip.rest, ?_⟩ noTrivia_nil nofun nofun
    rw [rest_of_peek ahead]
    rfl

/-! ## The next piece -/

theorem shape_plain (s : Setting) {c : Char} (ahead : start.peek = some c) :
    Shape s.freshLine start (plain s c start start.skip) := by
  unfold plain
  split
  · next blank_ => exact shape_blank s ahead blank_
  split
  · next h => exact shape_underscore s (by rw [ahead, h])
  split
  · next h => exact shape_numberSign s (by rw [ahead, h])
  split
  · next h => exact shape_bracketed (by rw [ahead, h])
  split
  · exact shape_string start
  split
  · next quote => exact shape_comment (.quote ahead quote) s
  split
  · exact shape_letters s start
  · exact shape_operator ahead

theorem shape_standard (s : Setting) (m : XmlMode) {c : Char} (ahead : start.peek = some c) :
    Shape s.freshLine start (standard s m c start start.skip).1 := by
  unfold standard
  split
  · next h => exact shape_pair ahead h.2 (by rw [h.1]; rfl) nofun nofun
  split
  · next h =>
    split
    · exact shape_afterAngle _ (by rw [ahead, h.1])
    · exact (shape_operator ahead).withEvent _
  · exact shape_plain s ahead

/-- What the next piece can be. -/
theorem shape_next {s : Setting} {m : XmlMode} {c : Char} {r : Reader}
    (h : start.read? = some (c, r)) : Shape s.freshLine start (next s m c start r).1 := by
  have ahead := peek_of_read? h
  rw [skip_eq_of_read? h]
  unfold next
  split
  · exact shape_read m ahead
  split
  · exact shape_ofNumeral (Numeral.shape_scan start)
  · exact shape_standard s m ahead

end Piece

/-- What follows a complete XML literal can be a section. -/
theorem XmlMode.shape_of_trailing? {freshLine : Bool} {m : XmlMode} {r : Reader} {p : Piece}
    (h : m.trailing? r = some p) : p.Shape freshLine r := by
  unfold trailing? at h
  split at h
  · obtain ⟨inside, eaten, rfl⟩ := Option.map_eq_some_iff.1 h
    have blanks := (Over.skipWhile Text.isMarkupBlank r).mono fun _ => isBlank_of_isMarkupBlank
    have reaches := reaches_of_eatText? eaten
    refine Piece.shape_markupSection blanks (fun _ => reaches.position_lt ?_) reaches
    rw [← append_of_eatText? eaten, List.length_append]
    exact Nat.lt_add_of_pos_left (Nat.succ_pos _)
  · cases h

end BasicLexis
