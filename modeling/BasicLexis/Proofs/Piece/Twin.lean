import BasicLexis.Proofs.Number.Twin
import BasicLexis.Proofs.Piece.Shape

set_option autoImplicit false

/-! # Pieces at twins

Pieces of ordinary source that are read at twins match: the tokens and the trivia are the same as
far as they are compared, and the same is reported. Strings, dates and directives go on across what
differs between the two texts, or leave it out; all other tokens end before it. -/

namespace BasicLexis

open Reader

/-! ## Strings and dates -/

namespace Enclosure

variable {K : Comparison} {r r' : Reader} {e : Enclosure}

/-- Reads the inside of a literal from a place within it on. -/
def readAt (e : Enclosure) (r : Reader) (content : List Char) (found : List Diagnostic) : Inside :=
  e.readFrom r.rest r.position r.location content found

theorem readAt_eq (e : Enclosure) (r : Reader) (content : List Char)
    (found : List Diagnostic) :
    e.readAt r content found
      = match r.peek with
        | none => ⟨content.reverse, false, found.reverse, r⟩
        | some c =>
          if c = e.close then
            if e.doubles ∧ r.skip.peek = some c then e.readAt r.skip.skip (c :: content) found
            else ⟨content.reverse, true, found.reverse, r.skip⟩
          else match r.skip.finishLineEnd? c with
            | some next => e.readAt next content (⟨r.location, e.lineEnd⟩ :: found)
            | none => e.readAt r.skip (c :: content) found := by
  obtain ⟨rest, position, location⟩ := r
  unfold readAt
  cases rest with
  | nil => rfl
  | cons c cs =>
    simp only [peek, List.head?_cons, skip, read?]
    rw [readFrom.eq_def]
    dsimp only
    by_cases close : c = e.close
    · rw [if_pos close, if_pos close]
      cases cs with
      | nil => simp
      | cons d ds => simp [close]
    · rw [if_neg close, if_neg close]
      by_cases ret : c = '\r'
      · rw [if_pos ret, ret]
        cases cs with
        | nil => simp [finishLineEnd?, eatOptional, eat?, peek]
        | cons d ds =>
          by_cases feed : d = '\n'
          · simp [finishLineEnd?, eatOptional, eat?, peek, feed, skip, read?]
          · simp [finishLineEnd?, eatOptional, eat?, peek, feed]
      · rw [if_neg ret]
        by_cases feed : c = '\n'
        · simp [finishLineEnd?, feed]
        · simp [finishLineEnd?, feed, ret]

theorem reaches_readAt (e : Enclosure) (r : Reader) (content : List Char)
    (found : List Diagnostic) :
    r.Reaches (e.readAt r content found).rest :=
  e.reaches_readFrom _ _ _ _ _

/-- The two insides are the same, and the same was reported. -/
structure SameInside (K : Comparison) (a a' : Inside) : Prop where
  content : a'.content = a.content
  closed : a'.closed = a.closed
  found : a'.found.map K.problem = a.found.map K.problem
  rest : Twin K a.rest a'.rest

/-- The inside of a literal is the same however its line ends are spelled: they are left out. -/
theorem same_readAt (h : Twin K r r') (inline : Text.isLineEnd e.close = false)
    (solid : e.close ≠ ' ')
    (content : List Char) {found found' : List Diagnostic}
    (same : found'.map K.problem = found.map K.problem)
    (within : Compared K (e.readAt r content found).rest) :
    SameInside K (e.readAt r content found) (e.readAt r' content found') := by
  induction size : r.rest.length using Nat.strongRecOn generalizing r r' content found found' with
  | ind size ih =>
    subst size
    have reversed : found'.reverse.map K.problem = found.reverse.map K.problem := by
      rw [List.map_reverse, List.map_reverse, same]
    have reported : (⟨r'.location, e.lineEnd⟩ :: found').map K.problem
        = (⟨r.location, e.lineEnd⟩ :: found).map K.problem := by
      simp [Comparison.problem, Diagnostic.code, h.place, same]
    rw [readAt_eq] at within
    rw [readAt_eq e r, readAt_eq e r']
    cases h.ahead with
    | done ahead ahead' =>
      rw [ahead, ahead']
      exact ⟨rfl, rfl, reversed, h⟩
    | feed pairs ahead ahead' second next =>
      -- the line feed of a pair belongs to the line end that the carriage return begins
      have ne {c : Char} (lineEnd : Text.isLineEnd c = true) : c ≠ e.close := by
        rintro rfl
        rw [inline] at lineEnd
        cases lineEnd
      have feed : r.skip.finishLineEnd? '\n' = some r.skip := rfl
      have pair : r'.skip.finishLineEnd? '\r' = some r'.skip.skip := by
        simp [finishLineEnd?, eatOptional, eat?, second]
      simp only [ahead, ahead', if_neg (ne (c := '\n') rfl), if_neg (ne (c := '\r') rfl), feed,
        pair] at within ⊢
      exact ih _ (length_skip_of_peek ahead) next content reported within rfl
    | char c ahead ahead' plain next =>
      simp only [ahead, ahead'] at within ⊢
      by_cases close : c = e.close
      · have quote := h.same_skip_solid ahead (close ▸ inline) (close ▸ solid)
        simp only [if_pos close, quote.last.peek_eq_some_iff (close ▸ inline)] at within ⊢
        by_cases doubled : e.doubles = true ∧ r.skip.peek = some c
        · rw [if_pos doubled] at within ⊢
          rw [if_pos doubled]
          have second := quote.last.same_skip_solid doubled.2 (close ▸ inline) (close ▸ solid)
          have shorter := length_skip_of_peek doubled.2
          exact ih _ (Nat.lt_trans shorter (length_skip_of_peek ahead)) second.last _ same within
            rfl
        · rw [if_neg doubled, if_neg doubled]
          exact ⟨rfl, rfl, reversed, quote.last⟩
      · rw [if_neg close] at within ⊢
        rw [if_neg close]
        have passed : Compared K r.skip := by
          split at within
          · next place ends =>
            exact within.of_reaches
              ((reaches_of_finishLineEnd? ends).trans (e.reaches_readAt _ _ _))
          · exact within.of_reaches (e.reaches_readAt _ _ _)
        have finished := (next passed).finishLineEnd? plain
        have shorter := length_skip_of_peek ahead
        cases ends : r.skip.finishLineEnd? c with
        | none =>
          rw [ends] at within finished
          generalize r'.skip.finishLineEnd? c = ends' at finished ⊢
          cases finished
          exact ih _ shorter (next passed) _ same within rfl
        | some place =>
          rw [ends] at within finished
          generalize r'.skip.finishLineEnd? c = ends' at finished ⊢
          cases finished with
          | some twin =>
            have later := (reaches_of_finishLineEnd? ends).length_le
            exact ih _ (Nat.lt_of_le_of_lt later shorter)
              (twin (within.of_reaches (e.reaches_readAt _ _ _))) content reported within rfl

theorem same_read (h : Twin K r r') (inline : Text.isLineEnd e.close = false)
    (solid : e.close ≠ ' ')
    (within : Compared K (e.read r).rest) : SameInside K (e.read r) (e.read r') :=
  same_readAt h inline solid [] rfl within

end Enclosure

namespace Piece

variable {K : Comparison} {start start' r r' : Reader}

theorem matches_ofNumeral {n n' : Numeral} (h : Numeral.Matches K n n') :
    Matches K (ofNumeral n) (ofNumeral n') := by
  refine ⟨h.rest, ?_, h.dot, .of_eq ?_ ?_⟩
  · simp [ofNumeral, h.token]
  · simp [ofNumeral, h.diagnostics]
  · simp [ofNumeral]

theorem matches_character (first : Twin K start start') (h : Twin K r r')
    (reaches : start.Reaches r) (reaches' : start'.Reaches r') (content : List Char)
    {entries entries' : List Entry} (notes : K.Notes ∅ entries entries') :
    Matches K (character start r content entries) (character start' r' content entries') := by
  unfold character
  split
  · exact matches_literal _ first h reaches reaches' (fun _ => rfl) _ notes.of_empty
  · exact matches_literal _ first h reaches reaches' (fun _ => rfl) _
      (notes.append (.of_problem first.place rfl)).of_empty

/-- What is noted about the inside of a literal. -/
theorem notes_inside {a a' : Enclosure.Inside} (h : Enclosure.SameInside K a a') (p : Problem) :
    K.Notes ∅
      (a.found.map .problem ++ if a.closed then [] else [problem a.rest.location p])
      (a'.found.map .problem ++ if a'.closed then [] else [problem a'.rest.location p]) := by
  rw [h.closed]
  split
  · exact .of_eq (by simp [h.found]) (by simp)
  · exact .of_eq (by simp [h.found, h.rest.place]) (by simp)

theorem matches_string (h : Same K start start' r r')
    (within : Compared K (string start r).rest) :
    Matches K (string start r) (string start' r') := by
  have stops : (Enclosure.string.read r).rest.Reaches (string start r).rest := by
    unfold string
    dsimp only
    split
    · rw [rest_character]
      exact reaches_skip _
    · exact .refl _
  have inside := Enclosure.same_read h.last rfl (by decide) (within.of_reaches stops)
  have reaches := h.reaches.trans (Enclosure.string.reaches_read r)
  have reaches' := h.reaches'.trans (Enclosure.string.reaches_read r')
  have size : K.Notes ∅
      [problem start.location (.stringTooLarge (Enclosure.string.read r).content.length)]
      [problem start'.location (.stringTooLarge (Enclosure.string.read r).content.length)] :=
    .of_problem h.first.place rfl
  have all := (notes_inside inside .unterminatedString).append
    (.ite (c := Limits.maxStringSize < (Enclosure.string.read r).content.length) size)
  unfold string
  dsimp only
  simp only [inside.content, inside.closed,
    inside.rest.peekIs (p := fun c => c == 'c' || c == 'C') rfl] at all ⊢
  split
  · next mark =>
    obtain ⟨-, letter⟩ := Bool.and_eq_true_iff.1 mark
    obtain ⟨c, ahead, hc⟩ := (Option.any_eq_true _ _).1 letter
    have solid : Solid fun c => c == 'c' || c == 'C' := ⟨⟨rfl, rfl⟩, rfl⟩
    have stop := inside.rest.same_skip_solid ahead (solid.isLineEnd hc) (solid.ne_blank hc)
    exact matches_character h.first stop.last (reaches.trans stop.reaches)
      (reaches'.trans stop.reaches') _ all
  · exact matches_literal _ h.first inside.rest reaches reaches' (fun _ => rfl) _ all.of_empty

theorem matches_date (h : Same K start start' r r') (within : Compared K (date start r).rest) :
    Matches K (date start r) (date start' r') := by
  have stops : (date start r).rest = (Enclosure.date.read r).rest := by
    unfold date
    dsimp only
    split <;> rfl
  rw [stops] at within
  have inside := Enclosure.same_read h.last rfl (by decide) within
  have reaches := h.reaches.trans (Enclosure.date.reaches_read r)
  have reaches' := h.reaches'.trans (Enclosure.date.reaches_read r')
  have notes := notes_inside inside .unterminatedDate
  unfold date
  dsimp only
  rw [inside.content]
  split
  · exact matches_literal _ h.first inside.rest reaches reaches' (fun _ => rfl) _ notes.of_empty
  · exact matches_literal _ h.first inside.rest reaches reaches' (fun _ => rfl) _
      (notes.append (.of_problem h.first.place rfl)).of_empty

/-! ## Directives and comments -/

theorem solid_isWordChar : Solid Text.isWordChar := ⟨⟨by decide, by decide⟩, by decide⟩

theorem matches_directive (s : Setting) (h : Same K start start' r r')
    (within : Compared K (directive s start r).rest) :
    Matches K (directive s start r) (directive s start' r') := by
  have name := h.last.same_skipWhile_solid solid_isWordChar
  unfold directive at *
  simp only [readWhile_eq] at *
  obtain ⟨line, rest⟩ := name.last.readLine within
  simp only [name.text, line]
  refine matches_endOfLine _ (Comparison.place_right h.first.place _) rest (.of_eq rfl ?_)
  simp [Comparison.trivia, Comparison.span, h.first.place,
    Comparison.place_right h.first.place _]

theorem matches_numberSign (s : Setting) (h : Same K start start' r r')
    (within : Compared K (numberSign s start r).rest) :
    Matches K (numberSign s start r) (numberSign s start' r') := by
  have blanks : Inline Text.isInlineBlank := ⟨by decide, by decide⟩
  unfold numberSign at within ⊢
  dsimp only at within ⊢
  split at within
  · next digit =>
    have passed := within.of_reaches (reaches_date start (r.skipWhile Text.isInlineBlank))
    have inner := h.last.same_skipWhile blanks passed
    rw [if_pos digit, if_pos (by rw [inner.last.peekIs (by decide), digit])]
    exact matches_date (h.trans inner) within
  · next noDigit =>
    have passed := within.of_reaches (reaches_directive s start (r.skipWhile Text.isInlineBlank))
    have inner := h.last.same_skipWhile blanks passed
    rw [if_neg noDigit, if_neg (by rw [inner.last.peekIs (by decide)]; exact noDigit)]
    exact matches_directive s (h.trans inner) within

theorem matches_comment (s : Setting) (quoted : Bool) (first : Twin K start start')
    (h : Twin K r r') (within : Compared K (comment s quoted start r).rest) :
    Matches K (comment s quoted start r) (comment s quoted start' r') := by
  simp only [comment_eq] at *
  have stop := h.same_skipWhile inline_not_isLineEnd (within.of_reaches (reaches_skipLineEnd _))
  have rest := stop.last.skipLineEnd within
  unfold commentOfLine
  simp only [stop.text]
  refine matches_endOfLine _ stop.last.place rest ((Comparison.Notes.append ?_ ?_).append ?_)
  · refine .of_eq ?_ ?_ <;>
      cases FoundTag.find? s.tags (r.textTo (r.skipWhile (!Text.isLineEnd ·))) <;> rfl
  · exact .ite (.of_problem first.place rfl)
  · refine .of_eq rfl ?_
    simp [Comparison.trivia, Comparison.span, first.place, stop.last.place]

/-! ## Words -/

/-- The two words end alike. -/
structure SameEnd (K : Comparison) (r r' : Reader) (e e' : WordEnd) : Prop where
  same : Same K r r' e.rest e'.rest
  mark : e'.mark = e.mark
  access : e'.access.map K.token = e.access.map K.token

theorem sameEnd_wordEnd (h : Twin K r r') : SameEnd K r r' (wordEnd r) (wordEnd r') := by
  have plain : SameEnd K r r' { rest := r } { rest := r' } := ⟨.refl h, rfl, rfl⟩
  have marks : Solid Text.isTypeMark := ⟨⟨rfl, rfl⟩, rfl⟩
  unfold wordEnd
  cases h.ahead with
  | done ahead ahead' =>
    rw [ahead, ahead']
    exact plain
  | feed _ ahead ahead' =>
    rw [ahead, ahead']
    exact plain
  | char c ahead ahead' =>
    rw [ahead, ahead']
    dsimp only
    by_cases mark : Text.isTypeMark c = true
    · have next := h.same_skip_solid ahead (marks.isLineEnd mark) (marks.ne_blank mark)
      have word : r'.skip.peek.any (fun d => d == '_' || d == '[' || Text.isAlphabetic d)
          = r.skip.peek.any (fun d => d == '_' || d == '[' || Text.isAlphabetic d) :=
        next.last.peekIs (by decide)
      simp only [if_pos mark, peekAt_one, next.last.peek_eq_some_iff (c := '>') rfl, word]
      split
      · exact plain
      · split
        · refine ⟨next, rfl, ?_⟩
          simp [Token.symbol, Comparison.token, h.place, next.last.place]
        · exact ⟨next, rfl, rfl⟩
    · rw [if_neg mark, if_neg mark]
      exact plain

theorem notes_checkNameLength (first : Twin K start start') (name : List Char) :
    K.Notes ∅ (checkNameLength start name) (checkNameLength start' name) :=
  .ite (.of_problem first.place rfl)

theorem solid_isMarkupNameChar : Solid Text.isMarkupNameChar := ⟨⟨by decide, by decide⟩, by decide⟩

theorem Matches.withQueued {p p' : Piece} (h : Matches K p p') {queued queued' : Option Token}
    (same : queued'.map K.token = queued.map K.token) :
    Matches K { p with queued } { p' with queued := queued' } :=
  ⟨h.rest, h.token, same, h.entries⟩

theorem matches_name (s : Setting) (h : Same K start start' r r') :
    Matches K (name s start r) (name s start' r') := by
  unfold name
  split
  · have stop := h.trans (h.last.same_skipWhile_solid solid_isMarkupNameChar)
    exact matches_word _ h.first stop.last (fun _ => stop.text) (.refl _)
  · have stop := h.trans (h.last.same_skipWhile_solid solid_isWordChar)
    have tail := sameEnd_wordEnd stop.last
    dsimp only
    rw [stop.text, tail.mark]
    exact (matches_word _ h.first tail.same.last (fun _ => rfl)
      (notes_checkNameLength h.first _)).withQueued tail.access

theorem matches_letters (s : Setting) (h : Same K start start' r r')
    (within : Compared K (letters s start r).rest) :
    Matches K (letters s start r) (letters s start' r') := by
  have stop := h.trans (h.last.same_skipWhile_solid solid_isWordChar)
  have tail := sameEnd_wordEnd stop.last
  unfold letters at within ⊢
  split at within
  · next named =>
    rw [if_pos named, if_pos named]
    exact matches_name s h
  · next plain =>
    rw [if_neg plain, if_neg plain]
    dsimp only at within ⊢
    rw [stop.text, tail.mark]
    split at within
    · exact (matches_comment s false h.first tail.same.last within).withQueued tail.access
    · exact (matches_word _ h.first tail.same.last (fun _ => rfl) (.refl _)).withQueued tail.access
    · exact matches_name s h

theorem matches_bracketed (h : Same K start start' r r') :
    Matches K (bracketed start r) (bracketed start' r') := by
  have stop := h.last.same_skipWhile_solid solid_isWordChar
  have missing : K.Notes ∅
      (if r.peekIs Text.isWordChar then [] else [problem r.location .identifierExpected])
      (if r'.peekIs Text.isWordChar then [] else [problem r'.location .identifierExpected]) := by
    rw [h.last.peekIs (by decide)]
    split
    · exact .refl _
    · exact .of_problem h.last.place rfl
  have long := notes_checkNameLength h.first (r.textTo (r.skipWhile Text.isWordChar))
  have bracket := stop.last.eat? (c := ']') rfl (by decide)
  unfold bracketed
  simp only [readWhile_eq, stop.text]
  generalize (r.skipWhile Text.isWordChar).eat? ']' = closed at bracket ⊢
  generalize (r'.skipWhile Text.isWordChar).eat? ']' = closed' at bracket ⊢
  cases bracket with
  | some same =>
    exact matches_word _ h.first same.last (fun _ => rfl) ((missing.append (.refl _)).append long)
  | none =>
    exact matches_word _ h.first stop.last (fun _ => rfl)
      ((missing.append (.of_problem stop.last.place rfl)).append long)

/-! ## Whitespace -/

/-- Whitespace that both texts spell alike. -/
theorem matches_blank (s : Setting) {c : Char} (inline : K.pairs = true → Text.isLineEnd c = false)
    (first : Twin K start start') (h : Twin K r r') (within : Compared K (blank s c start r).rest) :
    Matches K (blank s c start r) (blank s c start' r') := by
  have finished := h.finishLineEnd? inline
  unfold blank at within ⊢
  generalize r.finishLineEnd? c = place at finished within ⊢
  generalize r'.finishLineEnd? c = place' at finished ⊢
  cases finished with
  | some twin =>
    exact matches_endOfLine _ first.place (twin within)
      (.ite (.of_eq rfl (by simp [Comparison.trivia, first.place])))
  | none => exact matches_silent h

/-- A line feed, and the same line end spelled as a pair. -/
theorem matches_blank_feed (s : Setting) (first : Twin K start start')
    (second : r'.peek = some '\n')
    (h : Twin K r r'.skip) : Matches K (blank s '\n' start r) (blank s '\r' start' r') := by
  have pair : r'.finishLineEnd? '\r' = some r'.skip := by
    simp [finishLineEnd?, eatOptional, eat?, second]
  unfold blank
  rw [pair]
  exact matches_endOfLine _ first.place h
    (.ite (.of_eq rfl (by simp [Comparison.trivia, first.place])))

theorem matches_continuation (h : Twin K r r') (within : Compared K (continuation r).rest) :
    Matches K (continuation r) (continuation r') := by
  have blanks : Inline Text.isInlineBlank := ⟨by decide, by decide⟩
  have passes : (r.skipWhile Text.isInlineBlank).Reaches (continuation r).rest := by
    unfold continuation
    dsimp only
    split
    · exact .refl _
    · split
      · exact reaches_skipLineEnd _
      · exact .refl _
  have stop := (h.same_skipWhile blanks (within.of_reaches passes)).last
  unfold continuation at within ⊢
  dsimp only at within ⊢
  cases stop.ahead with
  | done ahead ahead' =>
    rw [ahead, ahead']
    exact ⟨stop, rfl, rfl, .of_problem stop.place rfl⟩
  | feed _ ahead ahead' =>
    rw [ahead] at within ⊢
    rw [ahead']
    exact matches_silent (stop.skipLineEnd within)
  | char c ahead ahead' =>
    rw [ahead] at within ⊢
    rw [ahead']
    dsimp only at within ⊢
    split at within
    · next lineEnd =>
      rw [if_pos lineEnd, if_pos lineEnd]
      exact matches_silent (stop.skipLineEnd within)
    · next other =>
      rw [if_neg other, if_neg other]
      exact ⟨stop, rfl, rfl, .of_problem stop.place rfl⟩

theorem matches_underscore (s : Setting) (h : Same K start start' r r')
    (within : Compared K (underscore s start r).rest) :
    Matches K (underscore s start r) (underscore s start' r') := by
  have next : r'.peekIs (!Text.isBlank ·) = r.peekIs (!Text.isBlank ·) := h.last.peekIs (by decide)
  unfold underscore at within ⊢
  rw [next]
  exact matches_ite (fun _ _ => matches_name s h) (fun _ => matches_continuation h.last) within

/-! ## Operators -/

/-- The two operators are the same and lead to twins. -/
def SameOperator (K : Comparison) (found found' : TokenKind × Reader) : Prop :=
  found'.1 = found.1 ∧ Twin K found.2 found'.2

theorem same_orAssign (h : Twin K r r') (plain assigning : TokenKind) :
    SameOperator K (orAssign r plain assigning) (orAssign r' plain assigning) := by
  have eaten := h.eat? (c := '=') rfl (by decide)
  unfold orAssign
  generalize r.eat? '=' = place at eaten ⊢
  generalize r'.eat? '=' = place' at eaten ⊢
  cases eaten with
  | some same => exact ⟨rfl, same.last⟩
  | none => exact ⟨rfl, h⟩

/-- An operator that goes on if a certain character follows. -/
theorem same_of_next (h : Twin K r r') {c : Char} (inline : Text.isLineEnd c = false)
    (solid : c ≠ ' ')
    {a a' b b' : TokenKind × Reader} (long : Twin K r.skip r'.skip → SameOperator K a a')
    (short : SameOperator K b b') :
    SameOperator K (if r.peek = some c then a else b) (if r'.peek = some c then a' else b') := by
  by_cases ahead : r.peek = some c
  · rw [if_pos ahead, if_pos ((h.peek_eq_some_iff inline).2 ahead)]
    exact long (h.same_skip_solid ahead inline solid).last
  · rw [if_neg ahead, if_neg (mt (h.peek_eq_some_iff inline).1 ahead)]
    exact short

theorem afterLess_eq (r : Reader) :
    afterLess r = if r.peek = some '>' then (.notEqual, r.skip)
      else if r.peek = some '=' then (.lessEqual, r.skip)
      else if r.peek = some '<' then orAssign r.skip .shiftLeft .shiftLeftAssign
      else (.less, r) := by
  unfold afterLess
  split <;> simp_all

theorem afterGreater_eq (r : Reader) :
    afterGreater r = if r.peek = some '=' then (.greaterEqual, r.skip)
      else if r.peek = some '>' then orAssign r.skip .shiftRight .shiftRightAssign
      else (.greater, r) := by
  unfold afterGreater
  split <;> simp_all

theorem same_afterLess (h : Twin K r r') : SameOperator K (afterLess r) (afterLess r') := by
  rw [afterLess_eq, afterLess_eq]
  refine same_of_next h rfl (by decide) (fun next => ⟨rfl, next⟩) ?_
  refine same_of_next h rfl (by decide) (fun next => ⟨rfl, next⟩) ?_
  exact same_of_next h rfl (by decide) (fun next => same_orAssign next _ _) ⟨rfl, h⟩

theorem same_afterGreater (h : Twin K r r') :
    SameOperator K (afterGreater r) (afterGreater r') := by
  rw [afterGreater_eq, afterGreater_eq]
  refine same_of_next h rfl (by decide) (fun next => ⟨rfl, next⟩) ?_
  exact same_of_next h rfl (by decide) (fun next => same_orAssign next _ _) ⟨rfl, h⟩

theorem same_afterDot (h : Twin K r r') : SameOperator K (afterDot r) (afterDot r') := by
  unfold afterDot
  refine same_of_next h rfl (by decide) (fun next => ⟨rfl, next⟩) ?_
  by_cases dot : r.peek = some '.'
  · have first := (h.same_skip_solid dot rfl (by decide)).last
    simp only [dot, (h.peek_eq_some_iff (c := '.') rfl).2 dot, true_and, peekAt_one]
    exact same_of_next first rfl (by decide) (fun next => ⟨rfl, next⟩) ⟨rfl, h⟩
  · have dot' := mt (h.peek_eq_some_iff rfl).1 dot
    simp only [dot, dot', false_and, if_false]
    exact ⟨rfl, h⟩

/-- The operators that start with a character are the same, if there are any. -/
theorem same_operatorKind? (h : Twin K r r') (c : Char) :
    Option.Rel (SameOperator K) (operatorKind? c r) (operatorKind? c r') := by
  unfold operatorKind?
  split
  all_goals first
    | exact .some (same_orAssign h _ _)
    | exact .some ⟨rfl, h⟩
    | exact .some (same_afterLess h)
    | exact .some (same_afterGreater h)
    | exact .some (same_afterDot h)
    | exact .none

theorem matches_operator (c : Char) (first : Twin K start start') (h : Twin K r r') :
    Matches K (operator c start r) (operator c start' r') := by
  have found := same_operatorKind? h c
  unfold operator
  generalize operatorKind? c r = kind at found ⊢
  generalize operatorKind? c r' = kind' at found ⊢
  cases found with
  | @some a a' same =>
    obtain ⟨kinds, rest⟩ := same
    obtain ⟨kind, rest⟩ := a
    obtain ⟨kind', rest'⟩ := a'
    cases kinds
    exact matches_symbol kind first rest
  | none => exact ⟨h, rfl, rfl, .of_problem first.place rfl⟩

/-! ## Ordinary source -/

/-- A piece that begins with a character which both texts spell alike. -/
theorem matches_plain (s : Setting) {c : Char} (ahead : start.peek = some c)
    (inline : K.pairs = true → Text.isLineEnd c = false) (first : Twin K start start')
    (h : Twin K start.skip start'.skip) (within : Compared K (plain s c start start.skip).rest) :
    Matches K (plain s c start start.skip) (plain s c start' start'.skip) := by
  unfold plain at within ⊢
  refine matches_ite (fun _ => matches_blank s inline first h) (fun dark => ?_) within
  have plain_ : Text.isLineEnd c = false := by
    rw [Bool.eq_false_iff]
    exact fun lineEnd => dark (isBlank_of_isLineEnd lineEnd)
  have solid : c ≠ ' ' := by
    rintro rfl
    exact dark rfl
  have same := first.same_skip_solid ahead plain_ solid
  exact matches_ite (fun _ => matches_underscore s same) fun _ =>
    matches_ite (fun _ => matches_numberSign s same) fun _ =>
    matches_ite (fun _ _ => matches_bracketed same) fun _ =>
    matches_ite (fun _ => matches_string same) fun _ =>
    matches_ite (fun _ => matches_comment s true first h) fun _ =>
    matches_ite (fun _ => matches_letters s same) fun _ _ => matches_operator c first h

end Piece

end BasicLexis
