import BasicLexis.Proofs.Number.Alone
import BasicLexis.Proofs.Piece.Shape

set_option autoImplicit false

/-! # Literals that stand alone

Outside of XML literals, which literal starts at a place follows from the text alone, and from no
more of it than the literal itself. `Piece.LiteralAt` is the literal at a place: a number, a string
or character, or a date. Every literal that is read is the one at its place, and where its text
stands alone, the same literal starts. -/

namespace BasicLexis

/-! ## Strings and dates -/

/-- The inside of an enclosed literal, without any places. -/
structure Enclosed where
  content : List Char
  closed : Bool
  rest : List Char

/-- One more character of the content. -/
def Enclosed.push (c : Char) (i : Enclosed) : Enclosed := ⟨c :: i.content, i.closed, i.rest⟩

namespace Enclosure

open Reader

/-- How a text is split after the inside of a literal. -/
def split (e : Enclosure) : List Char → Enclosed
  | [] => ⟨[], false, []⟩
  | c :: cs =>
    if c = e.close then
      match cs with
      | d :: ds =>
        if e.doubles ∧ d = c then (split e ds).push c
        else ⟨[], true, d :: ds⟩
      | [] => ⟨[], true, []⟩
    else if Text.isLineEnd c then split e cs
    else (split e cs).push c

section Split

variable {e : Enclosure}

theorem split_lineEnd {c : Char} (ne : c ≠ e.close) (ends : Text.isLineEnd c = true)
    (cs : List Char) : e.split (c :: cs) = e.split cs := by
  rw [split.eq_def]
  dsimp only
  rw [if_neg ne, if_pos ends]

theorem split_char {c : Char} (ne : c ≠ e.close) (inline : Text.isLineEnd c = false)
    (cs : List Char) : e.split (c :: cs) = (e.split cs).push c := by
  rw [split.eq_def]
  dsimp only
  rw [if_neg ne, if_neg (by simp [inline])]

theorem split_double (doubles : e.doubles = true) (cs : List Char) :
    e.split (e.close :: e.close :: cs) = (e.split cs).push e.close := by
  rw [split, if_pos rfl]
  exact if_pos ⟨doubles, rfl⟩

theorem split_close {cs : List Char} (single : ¬(e.doubles = true ∧ cs.head? = some e.close)) :
    e.split (e.close :: cs) = ⟨[], true, cs⟩ := by
  cases cs with
  | nil => simp [split]
  | cons d ds =>
    rw [split, if_pos rfl]
    exact if_neg fun double => single ⟨double.1, congrArg some double.2⟩

theorem length_split_le (e : Enclosure) (cs : List Char) :
    (e.split cs).rest.length ≤ cs.length := by
  fun_induction split e cs
  all_goals
    simp only [Enclosed.push, List.length_cons, List.length_nil, Nat.le_refl] at *
    try omega

/-- Something is taken of a text. -/
theorem length_split_cons_le (e : Enclosure) (c : Char) (cs : List Char) :
    (e.split (c :: cs)).rest.length ≤ cs.length := by
  have fewer := length_split_le e cs
  by_cases close : c = e.close
  · subst close
    by_cases double : e.doubles = true ∧ cs.head? = some e.close
    · obtain ⟨doubles, head⟩ := double
      cases cs with
      | nil => cases head
      | cons d ds =>
        cases head
        rw [split_double doubles]
        exact Nat.le_succ_of_le (length_split_le e ds)
    · exact Nat.le_of_eq (congrArg (·.rest.length) (split_close double))
  · cases ends : Text.isLineEnd c with
    | true =>
      rw [split_lineEnd close ends]
      exact fewer
    | false =>
      rw [split_char close ends]
      exact fewer

theorem rest_split_ne (e : Enclosure) (c : Char) (cs : List Char) :
    (e.split cs).rest ≠ c :: cs ∧ (e.split (c :: cs)).rest ≠ c :: cs := by
  constructor
  · intro same
    have fewer := length_split_le e cs
    rw [same, List.length_cons] at fewer
    exact Nat.not_succ_le_self _ fewer
  · intro same
    have fewer := length_split_cons_le e c cs
    rw [same, List.length_cons] at fewer
    exact Nat.not_succ_le_self _ fewer

/-- A literal is the same before another text, if that does not start with the closing character. -/
theorem split_append {xs ys zs : List Char} (ends : (e.split (xs ++ ys)).rest = ys)
    (next : zs = [] ∨ ((e.split (xs ++ ys)).closed = true ∧ zs.head? ≠ some e.close)) :
    e.split (xs ++ zs) = ⟨(e.split (xs ++ ys)).content, (e.split (xs ++ ys)).closed, zs⟩ := by
  induction size : xs.length using Nat.strongRecOn generalizing xs with
  | ind size ih =>
    subst size
    cases xs with
    | nil =>
      cases ys with
      | nil =>
        rcases next with rfl | ⟨closed, -⟩
        · rfl
        · cases closed
      | cons y ys => exact absurd ends (rest_split_ne e y ys).2
    | cons c cs =>
      rw [List.cons_append] at ends next ⊢
      by_cases close : c = e.close
      · subst close
        by_cases double : e.doubles = true ∧ (cs ++ ys).head? = some e.close
        · obtain ⟨doubles, head⟩ := double
          cases cs with
          | nil =>
            -- the closing character after the literal would belong to it
            cases ys with
            | nil => cases head
            | cons y ys =>
              cases head
              rw [List.nil_append, split_double doubles] at ends
              exact absurd ends (rest_split_ne e e.close ys).1
          | cons d ds =>
            cases head
            rw [List.cons_append, split_double doubles] at ends next
            simp only [List.cons_append, split_double doubles]
            rw [ih ds.length (Nat.lt_succ_of_lt (Nat.lt_succ_self _)) ends next rfl]
            rfl
        · rw [split_close double] at ends next
          have empty : cs = [] := by simpa using ends
          subst empty
          rw [List.cons_append, List.nil_append, split_close double, split_close]
          rintro ⟨-, head⟩
          rcases next with rfl | ⟨-, ne⟩
          · cases head
          · exact ne head
      · cases lineEnd : Text.isLineEnd c with
        | true =>
          rw [split_lineEnd close lineEnd] at ends next
          rw [List.cons_append, split_lineEnd close lineEnd, split_lineEnd close lineEnd]
          exact ih _ (Nat.lt_succ_self _) ends next rfl
        | false =>
          rw [split_char close lineEnd] at ends next
          rw [List.cons_append, split_char close lineEnd, split_char close lineEnd,
            ih _ (Nat.lt_succ_self _) ends next rfl]
          rfl

end Split

/-- Reading is splitting. -/
theorem readFrom_eq_split {e : Enclosure} (inline : Text.isLineEnd e.close = false)
    (cs : List Char) (n : Nat) (l : Location) (content : List Char) (found : List Diagnostic) :
    (e.readFrom cs n l content found).content = content.reverse ++ (e.split cs).content
      ∧ (e.readFrom cs n l content found).closed = (e.split cs).closed
      ∧ (e.readFrom cs n l content found).rest.rest = (e.split cs).rest := by
  have feed : '\n' ≠ e.close := by
    intro same
    rw [← same] at inline
    cases inline
  fun_induction readFrom e cs n l content found with
  | case1 => simp [split]
  | case2 n l content found d ds double ih =>
    obtain ⟨doubles, rfl⟩ := double
    simpa [split_double doubles, Enclosed.push] using ih
  | case3 n l content found d ds single =>
    have split : e.split (e.close :: d :: ds) = ⟨[], true, d :: ds⟩ :=
      split_close (by simpa using single)
    simp [split]
  | case4 n l content found => simp [split]
  | case5 n l content found ds close ih =>
    rw [split_lineEnd close rfl, split_lineEnd feed rfl]
    exact ih
  | case6 n l content found d ds _ close ih =>
    rw [split_lineEnd close rfl]
    exact ih
  | case7 n l content found close ih =>
    rw [split_lineEnd close rfl]
    exact ih
  | case8 cs n l content found close _ ih =>
    rw [split_lineEnd close rfl]
    exact ih
  | case9 c cs n l content found close noReturn noFeed ih =>
    rw [split_char close (by simp [Text.isLineEnd, noReturn, noFeed])]
    simpa [Enclosed.push] using ih

theorem read_eq_split {e : Enclosure} (inline : Text.isLineEnd e.close = false) (r : Reader) :
    (e.read r).content = (e.split r.rest).content ∧ (e.read r).closed = (e.split r.rest).closed
      ∧ (e.read r).rest.rest = (e.split r.rest).rest := by
  simpa [read] using readFrom_eq_split inline r.rest r.position r.location [] []

/-- Something is read if there is something to read. -/
theorem skip_reaches_read {e : Enclosure} (inline : Text.isLineEnd e.close = false) {r : Reader}
    {c : Char} (ahead : r.peek = some c) : r.skip.Reaches (e.read r).rest := by
  have reaches := e.reaches_read r
  refine r.reaches_skip.of_position_le reaches ?_
  rw [position_skip_of_peek ahead]
  refine reaches.position_lt ?_
  rw [(read_eq_split inline r).2.2, rest_of_peek ahead]
  exact Nat.lt_succ_of_le (length_split_cons_le e c _)

/-- The inside of a literal is the same in a text that is cut off after it, or after something that
    does not start with the closing character. -/
theorem cut_read {e : Enclosure} (inline : Text.isLineEnd e.close = false) {stop r q : Reader}
    (h : Cut stop r q) (within : (e.read r).rest.Reaches stop)
    (next : (e.read r).rest = stop
      ∨ ((e.read r).closed = true ∧ (e.read r).rest.peek ≠ some e.close)) :
    (e.read q).content = (e.read r).content ∧ (e.read q).closed = (e.read r).closed
      ∧ Cut stop (e.read r).rest (e.read q).rest := by
  obtain ⟨content, closed, rest⟩ := read_eq_split inline r
  obtain ⟨content', closed', rest'⟩ := read_eq_split inline q
  have front := (e.reaches_read r).textTo_append
  have back := within.textTo_append
  generalize r.textTo (e.read r).rest = xs at front
  generalize (e.read r).rest.textTo stop = zs at back
  have text : q.rest = xs ++ zs := by
    unfold Cut at h
    rw [← front, ← back, ← List.append_assoc] at h
    exact (List.append_cancel_right h).symm
  have follows : zs = [] ∨ ((e.split r.rest).closed = true ∧ zs.head? ≠ some e.close) := by
    rcases next with rfl | ⟨isClosed, ne⟩
    · left
      simpa using back
    · cases zs with
      | nil => exact .inl rfl
      | cons z zs =>
        refine .inr ⟨by rw [← closed, isClosed], fun head => ne ?_⟩
        rw [peek, ← back]
        exact head
  rw [← front] at follows rest
  have same := split_append rest.symm follows
  rw [front, ← text] at same
  rw [same] at content' closed' rest'
  refine ⟨by rw [content, content'], by rw [closed, closed'], ?_⟩
  unfold Cut
  rw [rest', back]

end Enclosure

namespace Piece

open Reader

variable {start : Reader}

theorem lexeme_literal {start' stop stop' : Reader} (text : start'.textTo stop' = start.textTo stop)
    (kind : TokenKind) (value : LiteralValue) (format : LiteralFormat) :
    (Numeral.literal start' stop' kind value format).lexeme
      = (Numeral.literal start stop kind value format).lexeme := by
  simp [Numeral.literal, Token.lexeme, text]

/-- A string is a character if this letter follows it. -/
def isCharacterMark (c : Char) : Bool := c == 'c' || c == 'C'

/-- The string or character whose opening quotation mark is at a place. -/
def stringToken (start : Reader) : Token :=
  let inside := Enclosure.string.read start.skip
  if inside.closed && inside.rest.peekIs isCharacterMark then
    Numeral.literal start inside.rest.skip .literalCharacter
      (.char (inside.content.head?.getD '\x00')) .charLiteral
  else Numeral.literal start inside.rest .literalString (.string (String.ofList inside.content))
    .stringLiteral

theorem token_string (start : Reader) :
    (string start start.skip).token = some (stringToken start) := by
  unfold string stringToken isCharacterMark
  dsimp only
  split
  · unfold character
    split
    · next content =>
      rw [content]
      rfl
    · rfl
  · rfl

/-- A string with the letter that makes it a character does not depend on what follows it. -/
theorem alone_character (ahead : start.peek = some '"')
    (closed : (Enclosure.string.read start.skip).closed = true)
    (mark : (Enclosure.string.read start.skip).rest.peekIs isCharacterMark = true) :
    StandsAlone stringToken start (Enclosure.string.read start.skip).rest.skip := by
  have inside := (Enclosure.string.reaches_read start.skip).trans (reaches_skip _)
  have whole := start.reaches_skip.trans inside
  have noQuote : (Enclosure.string.read start.skip).rest.peek ≠ some '"' := by
    intro quote
    simp [peekIs, quote, isCharacterMark] at mark
  refine ⟨whole, by simp [stringToken, closed, mark, Numeral.literal], fun {start'} first => ?_⟩
  have after := first.skip (first.ahead ahead inside)
  obtain ⟨content', closed', rest'⟩ :=
    Enclosure.cut_read rfl after (reaches_skip _) (.inr ⟨closed, noQuote⟩)
  have mark' : (Enclosure.string.read start'.skip).rest.peekIs isCharacterMark = true := by
    rw [rest'.peekIs_eq fun _ => .refl _, mark]
  simp only [stringToken, closed, mark, closed', mark', content', Bool.and_true, if_true]
  refine lexeme_literal (first.textTo (rest'.skip_of_peekIs mark (.refl _)) whole ?_) _ _ _
  exact start'.reaches_skip.trans ((Enclosure.string.reaches_read _).trans (reaches_skip _))

/-- A string without that letter does not depend on what follows it. -/
theorem alone_plain (ahead : start.peek = some '"')
    (plain : ¬((Enclosure.string.read start.skip).closed
      && (Enclosure.string.read start.skip).rest.peekIs isCharacterMark) = true) :
    StandsAlone stringToken start (Enclosure.string.read start.skip).rest := by
  have inside := Enclosure.string.reaches_read start.skip
  have whole := start.reaches_skip.trans inside
  refine ⟨whole, by simp only [stringToken, if_neg plain]; rfl, fun {start'} first => ?_⟩
  have after := first.skip (first.ahead ahead inside)
  obtain ⟨content', closed', rest'⟩ := Enclosure.cut_read rfl after (.refl _) (.inl rfl)
  have noMark : (Enclosure.string.read start'.skip).rest.peekIs isCharacterMark = false := by
    simp [peekIs, rest'.peek_eq_none]
  simp only [stringToken, if_neg plain, noMark, content', Bool.and_false, Bool.false_eq_true,
    if_false]
  refine lexeme_literal (first.textTo rest' whole ?_) _ _ _
  exact start'.reaches_skip.trans (Enclosure.string.reaches_read _)

/-- The date whose opening number sign is at a place. -/
def dateToken (start : Reader) : Token :=
  let inside := Enclosure.date.read (start.skip.skipWhile Text.isInlineBlank)
  Numeral.literal start inside.rest .literalDate
    (.date ((Moment.ofText? inside.content).getD .default)) .dateTimeLiteral

theorem token_date (start : Reader) :
    (date start (start.skip.skipWhile Text.isInlineBlank)).token = some (dateToken start) := by
  unfold date dateToken
  dsimp only
  split
  · next moment found =>
    rw [found]
    rfl
  · next found =>
    rw [found]
    rfl

/-- A date does not depend on what follows it. -/
theorem alone_date (ahead : start.peek = some '#') :
    StandsAlone dateToken start
      (Enclosure.date.read (start.skip.skipWhile Text.isInlineBlank)).rest := by
  have inside := Enclosure.date.reaches_read (start.skip.skipWhile Text.isInlineBlank)
  have fromSign := (reaches_skipWhile Text.isInlineBlank start.skip).trans inside
  have whole := start.reaches_skip.trans fromSign
  refine ⟨whole, rfl, fun {start'} first => ?_⟩
  have after := (first.skip (first.ahead ahead fromSign)).skipWhile Text.isInlineBlank inside
  obtain ⟨content', -, rest'⟩ := Enclosure.cut_read rfl after (.refl _) (.inl rfl)
  simp only [dateToken, content']
  refine lexeme_literal (first.textTo rest' whole ?_) _ _ _
  exact start'.reaches_skip.trans ((reaches_skipWhile _ _).trans (Enclosure.date.reaches_read _))

/-! ## The literal at a place -/

/-- The literal that starts at a place. -/
inductive LiteralAt (start : Reader) : Token → Prop where
  | number (starts : Numeral.startsAt start = true) : LiteralAt start (Numeral.scan start).token
  | string (ahead : start.peek = some '"') : LiteralAt start (stringToken start)
  | date (ahead : start.peek = some '#')
      (digit : (start.skip.skipWhile Text.isInlineBlank).peekIs Text.isDigit = true) :
    LiteralAt start (dateToken start)

/-- There is something to read where a literal starts. -/
theorem LiteralAt.peek_ne_none {t : Token} (h : LiteralAt start t) : start.peek ≠ none := by
  intro done
  cases h with
  | number starts => simp [Numeral.startsAt, done] at starts
  | string ahead | date ahead =>
    rw [done] at ahead
    cases ahead

/-- A literal has the text up to some place, and where the text is cut off at that place, the same
    literal starts. -/
theorem LiteralAt.alone {t : Token} (h : LiteralAt start t) :
    ∃ stop, start.Reaches stop ∧ t.text = String.ofList (start.textTo stop)
      ∧ ∀ {start'}, Cut stop start start' → ∃ t', LiteralAt start' t' ∧ t'.lexeme = t.lexeme := by
  cases h with
  | number starts =>
    obtain ⟨stop, alone, starts'⟩ := Numeral.alone_scan starts
    exact ⟨stop, alone.reaches, alone.text,
      fun first => ⟨_, .number (starts' first), alone.same first⟩⟩
  | string ahead =>
    have inside := Enclosure.string.reaches_read start.skip
    by_cases character : ((Enclosure.string.read start.skip).closed
        && (Enclosure.string.read start.skip).rest.peekIs isCharacterMark) = true
    · obtain ⟨closed, mark⟩ := Bool.and_eq_true_iff.1 character
      have alone := alone_character ahead closed mark
      exact ⟨_, alone.reaches, alone.text, fun first =>
        ⟨_, .string (first.ahead ahead (inside.trans (reaches_skip _))), alone.same first⟩⟩
    · have alone := alone_plain ahead character
      exact ⟨_, alone.reaches, alone.text,
        fun first => ⟨_, .string (first.ahead ahead inside), alone.same first⟩⟩
  | date ahead digit =>
    have alone := alone_date ahead
    have inside := Enclosure.date.reaches_read (start.skip.skipWhile Text.isInlineBlank)
    have fromSign := (reaches_skipWhile Text.isInlineBlank start.skip).trans inside
    refine ⟨_, alone.reaches, alone.text,
      fun first => ⟨_, .date (first.ahead ahead fromSign) ?_, alone.same first⟩⟩
    have after := (first.skip (first.ahead ahead fromSign)).skipWhile Text.isInlineBlank inside
    obtain ⟨c, next, -⟩ := (Option.any_eq_true _ _).1 digit
    rw [after.peekIs_eq fun _ => Enclosure.skip_reaches_read rfl next, digit]

/-- The literal at a place is read outside of XML literals. -/
theorem LiteralAt.next {t : Token} (h : LiteralAt start t) {s : Setting} {m : XmlMode} {c : Char}
    {r : Reader} (read : start.read? = some (c, r)) (outside : m.active = false) :
    (next s m c start r).1.token = some t := by
  have here := peek_of_read? read
  rw [skip_eq_of_read? read]
  cases h with
  | number starts => simp [Piece.next, outside, starts, ofNumeral]
  | string ahead =>
    cases here.symm.trans ahead
    have noNumber : Numeral.startsAt start = false := by
      simp only [Numeral.startsAt, here]
      rfl
    have piece : standard s m '"' start start.skip = (Piece.string start start.skip, m) := by
      rw [standard, if_neg (by simp), if_neg (by simp)]
      rfl
    simp only [Piece.next, outside, noNumber, piece, Bool.false_eq_true, if_false]
    exact token_string start
  | date ahead digit =>
    cases here.symm.trans ahead
    have noNumber : Numeral.startsAt start = false := by
      simp only [Numeral.startsAt, here]
      rfl
    have piece : standard s m '#' start start.skip = (numberSign s start start.skip, m) := by
      rw [standard, if_neg (by simp), if_neg (by simp)]
      rfl
    simp only [Piece.next, outside, noNumber, piece, Bool.false_eq_true, if_false, numberSign,
      digit, if_true]
    exact token_date start

/-! ## Pieces without literals -/

/-- The token of the piece is no literal. -/
def NoLiteral (p : Piece) : Prop := ∀ t, p.token = some t → t.kind.isLiteral = false

theorem noLiteral_of_none {p : Piece} (h : p.token = none) : p.NoLiteral := by
  intro t token
  rw [h] at token
  cases token

theorem noLiteral_of_some {p : Piece} {t : Token} (h : p.token = some t)
    (other : t.kind.isLiteral = false) : p.NoLiteral := by
  intro u token
  rw [h] at token
  cases token
  exact other

theorem noLiteral_endOfLine (freshLine : Bool) (l : Location) (rest : Reader)
    (entries : List Entry) : (endOfLine freshLine l rest entries).NoLiteral := by
  cases freshLine with
  | true => exact noLiteral_of_none rfl
  | false => exact noLiteral_of_some rfl rfl

theorem noLiteral_name (s : Setting) (start r : Reader) : (name s start r).NoLiteral := by
  unfold name
  split <;> exact noLiteral_of_some rfl rfl

theorem noLiteral_comment (s : Setting) (quoted : Bool) (start r : Reader) :
    (comment s quoted start r).NoLiteral :=
  noLiteral_endOfLine _ _ _ _

theorem noLiteral_letters (s : Setting) (start r : Reader) : (letters s start r).NoLiteral := by
  unfold letters
  split
  · exact noLiteral_name s start r
  · dsimp only
    split
    · exact fun t token => noLiteral_comment s false start _ t token
    · exact noLiteral_of_some rfl rfl
    · exact noLiteral_name s start r

theorem noLiteral_underscore (s : Setting) (start r : Reader) :
    (underscore s start r).NoLiteral := by
  unfold underscore continuation
  split
  · exact noLiteral_name s start r
  · dsimp only
    repeat' split
    all_goals exact noLiteral_of_none rfl

theorem noLiteral_blank (s : Setting) (c : Char) (start r : Reader) :
    (blank s c start r).NoLiteral := by
  unfold blank
  split
  · exact noLiteral_endOfLine _ _ _ _
  · exact noLiteral_of_none rfl

theorem spelling_of_isLiteral {kind : TokenKind} (h : kind.isLiteral = true) :
    kind.spelling = [] := by
  cases kind with
  | literalInteger | literalDouble | literalSingle | literalDecimal | literalString
  | literalCharacter | literalDate => rfl
  | _ => cases h

theorem noLiteral_operator (c : Char) (start r : Reader) : (operator c start r).NoLiteral := by
  unfold operator
  split
  · next kind rest found =>
    refine noLiteral_of_some rfl (Bool.eq_false_iff.2 fun literal => ?_)
    -- an operator has a text, which is taken from the source
    have empty : kind.spelling = [] := spelling_of_isLiteral literal
    have shorter := (reaches_of_operatorKind? found).length_le
    have spells := spells_operatorKind? found
    simp only [Spells, empty, List.nil_append] at spells
    rw [spells, List.singleton_append, List.length_cons] at shorter
    omega
  · exact noLiteral_of_none rfl

theorem noLiteral_afterAngle (f : MarkupFrame) (start r : Reader) :
    (afterAngle f start r).piece.NoLiteral := by
  unfold afterAngle
  split
  · exact noLiteral_of_some rfl rfl
  · exact noLiteral_of_some rfl rfl
  · unfold markupSection sectionTo
    repeat' split
    all_goals exact noLiteral_of_some rfl rfl
  · split <;> exact noLiteral_of_some rfl rfl

/-- If the token of the piece is a literal, it is the one at a place. -/
def FindsLiteral (start : Reader) (p : Piece) : Prop :=
  ∀ t, p.token = some t → t.kind.isLiteral = true → LiteralAt start t

theorem NoLiteral.finds {p : Piece} (h : p.NoLiteral) (start : Reader) : p.FindsLiteral start := by
  intro t token literal
  rw [h t token] at literal
  cases literal

theorem LiteralAt.finds {t : Token} (h : LiteralAt start t) {p : Piece} (token : p.token = some t) :
    p.FindsLiteral start := by
  intro u token' _
  rw [token] at token'
  cases token'
  exact h

theorem findsLiteral_numberSign (s : Setting) (ahead : start.peek = some '#') :
    (numberSign s start start.skip).FindsLiteral start := by
  unfold numberSign
  dsimp only
  split
  · next digit => exact (LiteralAt.date ahead digit).finds (token_date start)
  · exact (noLiteral_endOfLine _ _ _ _).finds start

theorem findsLiteral_plain (s : Setting) {c : Char} (ahead : start.peek = some c) :
    (plain s c start start.skip).FindsLiteral start := by
  unfold plain
  split
  · exact (noLiteral_blank _ _ _ _).finds start
  split
  · exact (noLiteral_underscore _ _ _).finds start
  split
  · next sign => exact findsLiteral_numberSign s (by rw [ahead, sign])
  split
  · exact (noLiteral_of_some rfl rfl).finds start
  split
  · next quote => exact (LiteralAt.string (by rw [ahead, quote])).finds (token_string start)
  split
  · exact (noLiteral_comment _ _ _ _).finds start
  split
  · exact (noLiteral_letters _ _ _).finds start
  · exact (noLiteral_operator _ _ _).finds start

theorem findsLiteral_standard (s : Setting) (m : XmlMode) {c : Char} (ahead : start.peek = some c) :
    (standard s m c start start.skip).1.FindsLiteral start := by
  unfold standard
  split
  · exact (noLiteral_of_some rfl rfl).finds start
  split
  · split
    · exact (noLiteral_afterAngle _ _ _).finds start
    · have operator : (operator c start start.skip).NoLiteral := noLiteral_operator _ _ _
      exact fun t token => operator.finds start t token
  · exact findsLiteral_plain s ahead

/-- Every literal outside of XML literals is the one at its place. -/
theorem findsLiteral_next {s : Setting} {m : XmlMode} {c : Char} {r : Reader}
    (read : start.read? = some (c, r)) (outside : m.active = false) :
    (next s m c start r).1.FindsLiteral start := by
  have ahead := peek_of_read? read
  rw [skip_eq_of_read? read, Piece.next, outside]
  simp only [Bool.false_eq_true, if_false]
  split
  · next starts => exact (LiteralAt.number starts).finds rfl
  · exact findsLiteral_standard s m ahead

end Piece

end BasicLexis
