import BasicLexis.Proofs.Piece.Twin

set_option autoImplicit false

/-! # Markup at twins

Markup goes on across line ends: they stand between the parts of a tag, in attribute values, in
sections and in content. Pieces of markup that are read at twins match nevertheless, with two
exceptions. In an attribute value, the two characters of a pair are reported one by one; and between
the parts of a tag they are read one by one, so that one piece of the first text is two pieces of
the second one. -/

namespace BasicLexis

open Reader

namespace Piece

variable {K : Comparison} {start start' r r' : Reader}

/-! ## Sections -/

theorem lengthBefore?_add (close text : List Char) (n k : Nat) :
    lengthBefore? close text (n + k) = (lengthBefore? close text n).map (· + k) := by
  induction text generalizing n with
  | nil => rfl
  | cons c cs ih =>
    unfold lengthBefore?
    split
    · rfl
    · rw [Nat.add_right_comm, ih]

theorem le_of_lengthBefore? {close text : List Char} {k n : Nat}
    (h : lengthBefore? close text k = some n) : n ≤ k + text.length := by
  induction text generalizing k with
  | nil => cases h
  | cons c cs ih =>
    unfold lengthBefore? at h
    split at h
    · cases h
      exact Nat.le_add_right _ _
    · have := ih h
      rw [List.length_cons]
      omega

/-- The place of the first occurrence of a text. -/
def find? (text : List Char) (r : Reader) : Option Reader :=
  (lengthBefore? text r.rest 0).map (skipMany · r)

theorem find?_of_here {text : List Char} {c : Char} (ahead : r.peek = some c)
    (here : r.eatText? text ≠ none) : find? text r = some r := by
  unfold find?
  unfold eatText? at here
  rw [rest_of_peek ahead] at here ⊢
  unfold lengthBefore?
  split at here
  · next spelled => rw [if_pos spelled]; rfl
  · exact absurd rfl here

theorem find?_of_later {text : List Char} {c : Char} (ahead : r.peek = some c)
    (later : r.eatText? text = none) : find? text r = find? text r.skip := by
  have rest := rest_of_peek ahead
  unfold eatText? at later
  split at later
  · cases later
  · next elsewhere =>
    rw [rest] at elsewhere
    rw [find?, find?, rest, lengthBefore?, if_neg elsewhere, lengthBefore?_add, Option.map_map]
    rfl

theorem find?_of_done (text : List Char) (done : r.peek = none) : find? text r = none := by
  unfold find?
  rw [List.head?_eq_none_iff.1 done]
  rfl

theorem reaches_of_find? {text : List Char} {place : Reader} (h : find? text r = some place) :
    r.Reaches place := by
  obtain ⟨n, -, rfl⟩ := Option.map_eq_some_iff.1 h
  exact reaches_skipMany _ _

/-- The place after the first occurrence of a text; the end of the source if there is none. -/
def afterText (text : List Char) (r : Reader) : Reader :=
  (find? text r).elim (r.skipWhile fun _ => true) (skipMany text.length)

theorem afterText_of_later {text : List Char} {c : Char} (ahead : r.peek = some c)
    (later : r.eatText? text = none) : afterText text r = afterText text r.skip := by
  have more : r.peekIs (fun _ => true) = true := by simp [peekIs, ahead]
  rw [afterText, afterText, find?_of_later ahead later, skipWhile_of_true more]

theorem reaches_afterText (text : List Char) (r : Reader) : r.Reaches (afterText text r) := by
  unfold afterText
  cases found : find? text r with
  | none => exact reaches_skipWhile _ _
  | some place => exact (reaches_of_find? found).trans (reaches_skipMany _ _)

/-- A text is at the same place of both texts. -/
theorem same_find? (h : Twin K r r') {a : Char} {as : List Char}
    (solid : Text.isSolid (a :: as) = true)
    (within : Compared K (afterText (a :: as) r)) :
    Option.Rel (fun p p' => Twin K p p'
        ∧ Twin K (skipMany (a :: as).length p) (skipMany (a :: as).length p'))
      (find? (a :: as) r) (find? (a :: as) r') := by
  have inline := ((Text.isSolid_cons a as).1 solid).1.1
  have elsewhere {q : Reader} {c : Char} (ahead : q.peek = some c)
      (lineEnd : Text.isLineEnd c = true) : q.eatText? (a :: as) = none := by
    rw [eatText?_cons, if_neg]
    rw [ahead, Option.some.injEq]
    rintro rfl
    rw [inline] at lineEnd
    cases lineEnd
  have place {q q' : Reader} (eaten : q.eatText? (a :: as) = some q') :
      q' = skipMany (a :: as).length q := by
    unfold Reader.eatText? at eaten
    split at eaten
    · cases eaten
      rfl
    · cases eaten
  induction size : r.rest.length using Nat.strongRecOn generalizing r r' with
  | ind size ih =>
    subst size
    cases h.ahead with
    | done ahead ahead' =>
      rw [find?_of_done _ ahead, find?_of_done _ ahead']
      exact .none
    | feed _ ahead ahead' second next =>
      have none_ := elsewhere ahead rfl
      rw [afterText_of_later ahead none_] at within
      rw [find?_of_later ahead none_, find?_of_later ahead' (elsewhere ahead' rfl),
        find?_of_later second (elsewhere second rfl)]
      exact ih _ (length_skip_of_peek ahead) next within rfl
    | char c ahead ahead' _ next =>
      have eaten := h.eatText? solid
      cases here : r.eatText? (a :: as) with
      | none =>
        rw [here] at eaten
        cases here' : r'.eatText? (a :: as) with
        | some q' => rw [here'] at eaten; cases eaten
        | none =>
          rw [afterText_of_later ahead here] at within
          rw [find?_of_later ahead here, find?_of_later ahead' here']
          exact ih _ (length_skip_of_peek ahead)
            (next (within.of_reaches (reaches_afterText _ _))) within rfl
      | some q =>
        rw [here] at eaten
        cases here' : r'.eatText? (a :: as) with
        | none => rw [here'] at eaten; cases eaten
        | some q' =>
          rw [here'] at eaten
          cases eaten with
          | some same =>
            rw [find?_of_here ahead (by rw [here]; exact Option.some_ne_none _),
              find?_of_here ahead' (by rw [here']; exact Option.some_ne_none _)]
            exact .some ⟨h, by rw [← place here, ← place here']; exact same.last⟩

/-- A section up to its closing mark. -/
theorem sectionTo_eq (kind : TokenKind) (close : List Char) (start r : Reader) :
    sectionTo kind close start r
      = match find? close r with
        | some place => word kind start (skipMany close.length place) (r.textTo place) []
        | none =>
          let rest := r.skipWhile fun _ => true
          word kind start rest (r.textTo rest) [problem rest.location .unterminatedXmlSection] := by
  unfold sectionTo find?
  cases found : lengthBefore? close r.rest 0 with
  | some n =>
    have few : n ≤ r.rest.length := by simpa using le_of_lengthBefore? found
    simp [skipMany_add, Reader.textTo, position_skipMany few]
  | none =>
    have whole := (reaches_skipWhile (fun _ => true) r).textTo_append
    have done : (r.skipWhile fun _ => true).rest = [] := by
      have stops := peek_skipWhile (fun _ => true) r
      cases rest : (r.skipWhile fun _ => true).rest with
      | nil => rfl
      | cons c cs => simp [peekIs, peek, rest] at stops
    rw [done, List.append_nil] at whole
    simp [whole]

theorem rest_sectionTo (kind : TokenKind) (close : List Char) (start r : Reader) :
    (sectionTo kind close start r).rest = afterText close r := by
  rw [sectionTo_eq, afterText]
  cases find? close r <;> rfl

theorem matches_sectionTo (kind : TokenKind) {a : Char} {as : List Char}
    (solid : Text.isSolid (a :: as) = true) (first : Twin K start start')
    (h : Twin K r r') (within : Compared K (sectionTo kind (a :: as) start r).rest) :
    Matches K (sectionTo kind (a :: as) start r) (sectionTo kind (a :: as) start' r') := by
  rw [rest_sectionTo] at within
  have found := same_find? h solid within
  unfold afterText at within
  rw [sectionTo_eq, sectionTo_eq]
  cases place : find? (a :: as) r with
  | none =>
    rw [place] at found within
    cases place' : find? (a :: as) r' with
    | some p' => rw [place'] at found; cases found
    | none =>
      have stop := h.skipWhile (p := fun _ => true) rfl within
      exact matches_word _ first stop
        (h.textTo stop (reaches_skipWhile _ _) (reaches_skipWhile _ _)) (.of_problem stop.place rfl)
  | some p =>
    rw [place] at found
    cases place' : find? (a :: as) r' with
    | none => rw [place'] at found; cases found
    | some p' =>
      rw [place'] at found
      cases found with
      | some same =>
        exact matches_word _ first same.2
          (h.textTo same.1 (reaches_of_find? place) (reaches_of_find? place')) (.refl _)

theorem matches_markupSection (first : Twin K start start') (h : Twin K r r')
    (within : Compared K (markupSection start r).rest) :
    Matches K (markupSection start r) (markupSection start' r') := by
  have dashes := h.eatText? (t := ['-', '-']) rfl
  have bracket := h.eatText? (t := ['[', 'C', 'D', 'A', 'T', 'A', '[']) rfl
  unfold markupSection at within ⊢
  generalize r.eatText? ['-', '-'] = place at dashes within ⊢
  generalize r'.eatText? ['-', '-'] = place' at dashes ⊢
  cases dashes with
  | some same => exact matches_sectionTo _ rfl first same.last within
  | none =>
    dsimp only at within ⊢
    generalize r.eatText? ['[', 'C', 'D', 'A', 'T', 'A', '['] = place at bracket within ⊢
    generalize r'.eatText? ['[', 'C', 'D', 'A', 'T', 'A', '['] = place' at bracket ⊢
    cases bracket with
    | some same => exact matches_sectionTo _ rfl first same.last within
    | none =>
      simp only [readWhile_eq] at within ⊢
      have stop := h.skipWhile (p := (· != '>')) rfl (within.of_reaches (reaches_eatOptional _ _))
      have close := stop.eatOptional (c := '>') rfl (by decide)
      exact matches_word _ first close.last
        (h.textTo stop (reaches_skipWhile _ _) (reaches_skipWhile _ _))
        (.of_problem first.place rfl)

/-! ## Tags -/

/-- The two pieces match, and leave the same open. -/
structure SameMarkup (K : Comparison) (m m' : MarkupPiece) : Prop where
  piece : Matches K m.piece m'.piece
  frame : m'.frame = m.frame
  goesOn : m'.goesOn = m.goesOn

theorem SameMarkup.of_piece {p p' : Piece} (h : Matches K p p') (f : MarkupFrame) (goesOn : Bool) :
    SameMarkup K ⟨p, f, goesOn⟩ ⟨p', f, goesOn⟩ := ⟨h, rfl, rfl⟩

theorem afterAngle_eq (f : MarkupFrame) (start r : Reader) :
    afterAngle f start r
      = if r.peek = some '/' then
          { piece := symbol .xmlOpenEndTag start r.skip, frame := { f with inCloseTag := true } }
        else if r.peek = some '?' then
          { piece := symbol .xmlInstructionStart start r.skip, frame := { f with inTag := true } }
        else if r.peek = some '!' then
          { piece := markupSection start r.skip
            frame := { f with
              wasComment := (markupSection start r.skip).token.any (·.kind == .xmlComment) } }
        else match r.eatText? ['%', '='] with
          | some rest =>
            { piece := symbol .xmlExpressionStart start rest, frame := f, goesOn := false }
          | none =>
            { piece := symbol .xmlOpenTag start r
              frame := { f with
                level := f.level + 1, inTag := true, wasComment := false
                wasInstruction := false } } := by
  unfold afterAngle
  split
  · next ahead => rw [if_pos ahead]
  · next ahead => rw [if_neg (by rw [ahead]; decide), if_pos ahead]
  · next ahead =>
    rw [if_neg (by rw [ahead]; decide), if_neg (by rw [ahead]; decide), if_pos ahead]
  · next slash question mark =>
    exact ((if_neg slash).trans ((if_neg question).trans (if_neg mark))).symm

/-- Markup of which a certain character is the second one, or is not. -/
theorem sameMarkup_of_next (h : Twin K r r') {c : Char} (inline : Text.isLineEnd c = false)
    (solid : c ≠ ' ') {a a' b b' : MarkupPiece}
    (long : Twin K r.skip r'.skip → Compared K a.piece.rest → SameMarkup K a a')
    (short : Compared K b.piece.rest → SameMarkup K b b')
    (within : Compared K (if r.peek = some c then a else b).piece.rest) :
    SameMarkup K (if r.peek = some c then a else b) (if r'.peek = some c then a' else b') := by
  by_cases ahead : r.peek = some c
  · rw [if_pos ahead] at within ⊢
    rw [if_pos ((h.peek_eq_some_iff inline).2 ahead)]
    exact long (h.same_skip_solid ahead inline solid).last within
  · rw [if_neg ahead] at within ⊢
    rw [if_neg (mt (h.peek_eq_some_iff inline).1 ahead)]
    exact short within

theorem sameMarkup_afterAngle (f : MarkupFrame) (first : Twin K start start') (h : Twin K r r')
    (within : Compared K (afterAngle f start r).piece.rest) :
    SameMarkup K (afterAngle f start r) (afterAngle f start' r') := by
  rw [afterAngle_eq] at within
  rw [afterAngle_eq, afterAngle_eq]
  refine sameMarkup_of_next h rfl (by decide)
    (fun next _ => .of_piece (matches_symbol _ first next) _ _) (fun within => ?_) within
  refine sameMarkup_of_next h rfl (by decide)
    (fun next _ => .of_piece (matches_symbol _ first next) _ _) (fun within => ?_) within
  refine sameMarkup_of_next h rfl (by decide) (fun next within => ?_) (fun within => ?_) within
  · have section_ := matches_markupSection first next within
    refine ⟨section_, ?_, rfl⟩
    rw [Comparison.any_kind_of_map section_.token (· == .xmlComment)]
  · have open_ := h.eatText? (t := ['%', '=']) rfl
    generalize r.eatText? ['%', '='] = place at open_ within ⊢
    generalize r'.eatText? ['%', '='] = place' at open_ ⊢
    cases open_ with
    | some same => exact .of_piece (matches_symbol _ first same.last) _ _
    | none => exact .of_piece (matches_symbol _ first h) _ _

/-! ## Attribute values -/

/-- Reads the inside of an attribute value from a place within it on. -/
def attributeAt (quote : Char) (r : Reader) (content : List Char) (found : List Entry) :
    List Char × List Entry × Reader :=
  attributeFrom quote r.rest r.position r.location content found

theorem attributeAt_of_done {quote : Char} (done : r.peek = none) (content : List Char)
    (found : List Entry) :
    attributeAt quote r content found
      = (content.reverse, found.reverse ++ [problem r.location .unterminatedString], r) := by
  obtain ⟨rest, position, location⟩ := r
  obtain rfl : rest = [] := List.head?_eq_none_iff.1 done
  simp [attributeAt, attributeFrom]

theorem attributeAt_of_char {quote c : Char} (ahead : r.peek = some c) (content : List Char)
    (found : List Entry) :
    attributeAt quote r content found
      = if c = quote then (content.reverse, found.reverse, r.skip)
        else if Text.isLineEnd c then
          attributeAt quote r.skip (c :: content) (problem r.location .newlineInString :: found)
        else attributeAt quote r.skip (c :: content) found := by
  have next := skip_of_cons (rest_of_peek ahead)
  unfold attributeAt
  rw [rest_of_peek ahead, attributeFrom]
  rw [next]

theorem reaches_attributeAt (quote : Char) (r : Reader) (content : List Char) (found : List Entry) :
    r.Reaches (attributeAt quote r content found).2.2 :=
  reaches_attributeFrom quote _ _ _ _ _

/-- The locations from the given one up to a place, if the content that was read on the way has a
    line feed. -/
def feedLocations (from_ : Location) (content : List Char) (r : Reader) : Set Location :=
  {l | '\n' ∈ content ∧ from_ ≤ l ∧ l < r.location}

/-- The two values, which begin at the given location, end alike. Their texts may differ if line ends
    are spelled as pairs. -/
structure SameValue (K : Comparison) (from_ : Location) (a a' : List Char × List Entry × Reader) :
    Prop where
  content : K.pairs = false → a'.1 = a.1
  entries : K.Notes (feedLocations from_ a.1 a.2.2) a.2.1 a'.2.1
  rest : Twin K a.2.2 a'.2.2

/-- Both characters of a pair are reported, the second one right after the first. -/
theorem notes_pair (pairs : K.pairs = true) {l l' : Location} (place : K.place l' = K.place l)
    {feeds : Set Location} (feed : l ∈ feeds) :
    K.Notes feeds [problem l .newlineInString]
      [problem l' .newlineInString, problem (l'.right 1) .newlineInString] := by
  have placed (l : Location) : K.place l = l := if_pos pairs
  rw [placed, placed] at place
  refine ⟨?_, rfl⟩
  simp only [Comparison.problems_cons_problem, Comparison.problems_nil, placed, place]
  have allowed : K.pairs = true ∧ l ∈ feeds := ⟨pairs, feed⟩
  exact .twice allowed .nil

/-- A character more makes the locations reach further. -/
theorem feedLocations_subset_skip {from_ : Location} {c : Char} (ahead : r.peek = some c)
    {content content' : List Char} (more : content ⊆ content') :
    feedLocations from_ content r ⊆ feedLocations from_ content' r.skip :=
  fun _ ⟨feed, after, before⟩ => ⟨more feed, after, before.trans (location_lt_skip ahead)⟩

theorem sameValue_attributeAt (h : Twin K r r') {quote : Char}
    (inline : Text.isLineEnd quote = false) (solid : quote ≠ ' ') {content content' : List Char}
    (same : K.pairs = false → content' = content) {found found' : List Entry} {from_ : Location}
    (begun : from_ ≤ r.location)
    (notes : K.Notes (feedLocations from_ content r) found.reverse found'.reverse)
    (within : Compared K (attributeAt quote r content found).2.2) :
    SameValue K from_ (attributeAt quote r content found)
      (attributeAt quote r' content' found') := by
  have reversed (content : List Char) (r : Reader) :
      feedLocations from_ content.reverse r = feedLocations from_ content r := by
    simp [feedLocations]
  induction size : r.rest.length using Nat.strongRecOn
    generalizing r r' content content' found found' with
  | ind size ih =>
    subst size
    cases h.ahead with
    | done ahead ahead' =>
      rw [attributeAt_of_done ahead, attributeAt_of_done ahead']
      rw [← reversed] at notes
      exact ⟨fun pairs => by rw [same pairs], notes.append (.of_problem h.place rfl), h⟩
    | feed pairs ahead ahead' second next =>
      have ne {c : Char} (lineEnd : Text.isLineEnd c = true) : c ≠ quote := by
        rintro rfl
        rw [inline] at lineEnd
        cases lineEnd
      have between : r'.skip.location = r'.location.right 1 := by
        have feed : r'.skip.rest.head? = some '\n' := second
        rw [skip_of_cons (rest_of_peek ahead'), feed]
        rfl
      have feed : Text.isLineEnd '\n' = true := rfl
      have ret : Text.isLineEnd '\r' = true := rfl
      rw [attributeAt_of_char ahead, if_neg (ne feed), if_pos feed] at within ⊢
      rw [attributeAt_of_char ahead', if_neg (ne ret), if_pos ret,
        attributeAt_of_char second, if_neg (ne feed), if_pos feed]
      have further := location_lt_skip ahead
      refine ih _ (length_skip_of_peek ahead) next (fun noPairs => ?_) (begun.trans further.le) ?_
        within rfl
      · rw [pairs] at noPairs
        cases noPairs
      · have inside : r.location ∈ feedLocations from_ ('\n' :: content) r.skip :=
          ⟨List.mem_cons_self, begun, further⟩
        have all := (notes.mono (feedLocations_subset_skip ahead (List.subset_cons_self _ content))).append
          (notes_pair pairs h.place inside)
        rw [between]
        simpa using all
    | char c ahead ahead' _ next =>
      rw [attributeAt_of_char ahead] at within
      rw [attributeAt_of_char ahead, attributeAt_of_char ahead']
      have more (pairs : K.pairs = false) : c :: content' = c :: content := by rw [same pairs]
      by_cases close : c = quote
      · rw [if_pos close, if_pos close]
        have whole : content ⊆ content.reverse := fun _ => List.mem_reverse.2
        exact ⟨fun pairs => by rw [same pairs], notes.mono (feedLocations_subset_skip ahead whole),
          (h.same_skip_solid ahead (close ▸ inline) (close ▸ solid)).last⟩
      · rw [if_neg close] at within ⊢
        rw [if_neg close]
        have shorter := length_skip_of_peek ahead
        have further := begun.trans (location_lt_skip ahead).le
        have later := notes.mono (feedLocations_subset_skip ahead (List.subset_cons_self c content))
        by_cases lineEnd : Text.isLineEnd c = true
        · rw [if_pos lineEnd] at within ⊢
          rw [if_pos lineEnd]
          refine ih _ shorter (next (within.of_reaches (reaches_attributeAt _ _ _ _))) more further ?_
            within rfl
          rw [List.reverse_cons, List.reverse_cons]
          exact later.append (.of_problem h.place rfl)
        · rw [if_neg lineEnd] at within ⊢
          rw [if_neg lineEnd]
          exact ih _ shorter (next (within.of_reaches (reaches_attributeAt _ _ _ _))) more further
            later within rfl

theorem matches_attributeValue {quote : Char} (inline : Text.isLineEnd quote = false)
    (solid : quote ≠ ' ') (h : Same K start start' r r')
    (within : Compared K (attributeValue quote start r).rest) :
    Matches K (attributeValue quote start r) (attributeValue quote start' r') := by
  have nothing : K.Notes (feedLocations start.location [] r) ([] : List Entry).reverse
      ([] : List Entry).reverse := .refl []
  have value := sameValue_attributeAt h.last inline solid (fun _ => rfl) h.reaches.location_le
    nothing within
  have inside : feedLocations start.location (attributeAt quote r [] []).1
      (attributeAt quote r [] []).2.2
      ⊆ (Numeral.literal start (attributeAt quote r [] []).2.2 .literalString
        (.string (String.ofList (attributeAt quote r [] []).1)) .stringLiteral).feedLocations := by
    intro l ⟨feed, after, before⟩
    refine ⟨?_, after, before⟩
    simpa [Numeral.literal, LiteralValue.hasLineFeed] using feed
  have entries := value.entries.mono inside
  exact matches_literal _ h.first value.rest (h.reaches.trans (reaches_attributeAt _ _ _ _))
    (h.reaches'.trans (reaches_attributeAt _ _ _ _))
    (fun pairs => congrArg (LiteralValue.string ∘ String.ofList) (value.content pairs)) _ entries

/-! ## The inside of a literal -/

theorem sameMarkup_ite {c : Prop} [Decidable c] {a a' b b' : MarkupPiece}
    (yes : c → Compared K a.piece.rest → SameMarkup K a a')
    (no : ¬c → Compared K b.piece.rest → SameMarkup K b b')
    (within : Compared K (if c then a else b).piece.rest) :
    SameMarkup K (if c then a else b) (if c then a' else b') :=
  rel_ite (·.piece.rest) yes no within

/-- A piece of a tag that begins with a character which both texts spell alike. -/
theorem sameMarkup_inTag (f : MarkupFrame) {c : Char} (ahead : start.peek = some c)
    (first : Twin K start start') (h : Twin K start.skip start'.skip)
    (within : Compared K (inTag f c start start.skip).piece.rest) :
    SameMarkup K (inTag f c start start.skip) (inTag f c start' start'.skip) := by
  have closes (d : Char) : (c = d ∧ start'.skip.peek = some '>')
      ↔ (c = d ∧ start.skip.peek = some '>') := by
    rw [h.peek_eq_some_iff rfl]
  have mark (kind : TokenKind) (after : start.skip.peek = some '>') (frame : MarkupFrame) :
      SameMarkup K { piece := symbol kind start start.skip.skip, frame }
        { piece := symbol kind start' start'.skip.skip, frame } :=
    .of_piece (matches_symbol kind first (h.same_skip_solid after rfl (by decide)).last) _ _
  unfold inTag at within ⊢
  simp only [closes]
  refine sameMarkup_ite (fun slash _ => mark _ slash.2 _) (fun _ => ?_) within
  refine sameMarkup_ite (fun question _ => mark _ question.2 _) fun _ => ?_
  refine sameMarkup_ite (fun _ _ => .of_piece (matches_symbol _ first h) _ _) fun _ => ?_
  refine sameMarkup_ite (fun _ _ => .of_piece (matches_symbol _ first h) _ _) fun _ => ?_
  refine sameMarkup_ite (fun quote within => ?_) fun _ => ?_
  · have inline : Text.isLineEnd c = false ∧ c ≠ ' ' := by
      rcases quote with rfl | rfl <;> decide
    exact .of_piece (matches_attributeValue inline.1 inline.2
      (first.same_skip_solid ahead inline.1 inline.2) within) _ _
  refine sameMarkup_ite (fun _ _ => .of_piece (matches_silent h) _ _) fun _ _ => ?_
  have stop := h.same_skipWhile_solid solid_isMarkupNameChar
  exact .of_piece (matches_word _ first stop.last
    (first.textTo stop.last (start.reaches_skip.trans stop.reaches)
      (start'.reaches_skip.trans stop.reaches')) (.refl _)) _ _

/-- The inside of a literal that begins with a character which both texts spell alike. -/
theorem sameMarkup_markup (f : MarkupFrame) {c : Char} (ahead : start.peek = some c)
    (first : Twin K start start') (h : Twin K start.skip start'.skip)
    (within : Compared K (markup f c start start.skip).piece.rest) :
    SameMarkup K (markup f c start start.skip) (markup f c start' start'.skip) := by
  unfold markup at within ⊢
  refine sameMarkup_ite (fun _ => sameMarkup_afterAngle f first h) (fun _ => ?_) within
  refine sameMarkup_ite (fun _ => sameMarkup_inTag f ahead first h) fun _ within => ?_
  have stop := h.skipWhile (p := (· != '<')) rfl within
  exact .of_piece (matches_word _ first stop
    (first.textTo stop (start.reaches_skip.trans (reaches_skipWhile _ _))
      (start'.reaches_skip.trans (reaches_skipWhile _ _))) (.refl _)) _ _

/-- Content that begins with a line feed, or with the pair that stands for it. -/
theorem sameMarkup_markup_feed {f : MarkupFrame} (outside : (f.inTag || f.inCloseTag) = false)
    (first : Twin K start start') (second : start'.skip.peek = some '\n')
    (h : Twin K start.skip start'.skip.skip) (pairs : K.pairs = true)
    (within : Compared K (markup f '\n' start start.skip).piece.rest) :
    SameMarkup K (markup f '\n' start start.skip) (markup f '\r' start' start'.skip) := by
  have content (q : Reader) {c : Char} (other : c ≠ '<') : markup f c q q.skip
      = { piece := word .xmlContent q (q.skip.skipWhile (· != '<'))
            (q.textTo (q.skip.skipWhile (· != '<'))) []
          frame := f } := by
    simp [markup, other, outside]
  have more : start'.skip.peekIs (· != '<') = true := by simp [peekIs, second]
  rw [content start (by decide)] at within
  rw [content start (by decide), content start' (by decide), skipWhile_of_true more]
  refine .of_piece (matches_word _ first (h.skipWhile rfl within) (fun noPairs => ?_) (.refl _)) _ _
  rw [pairs] at noPairs
  cases noPairs

/-! ## The next piece -/

/-- The two pieces match, and lead to the same mode. -/
structure SameNext (K : Comparison) (n n' : Piece × XmlMode) : Prop where
  piece : Matches K n.1 n'.1
  mode : n'.2 = n.2

theorem sameNext_ite {c : Prop} [Decidable c] {a a' b b' : Piece × XmlMode}
    (yes : c → Compared K a.1.rest → SameNext K a a')
    (no : ¬c → Compared K b.1.rest → SameNext K b b')
    (within : Compared K (if c then a else b).1.rest) :
    SameNext K (if c then a else b) (if c then a' else b') :=
  rel_ite (·.1.rest) yes no within

theorem sameNext_enter (m : XmlMode) (singleTag : Bool) (first : Twin K start start')
    (h : Twin K r r') (within : Compared K (m.enter singleTag start r).1.rest) :
    SameNext K (m.enter singleTag start r) (m.enter singleTag start' r') := by
  have angle := sameMarkup_afterAngle _ first h within
  refine ⟨angle.piece, ?_⟩
  simp only [XmlMode.enter, angle.frame, angle.goesOn]

theorem sameNext_read (m : XmlMode) {c : Char} (ahead : start.peek = some c)
    (first : Twin K start start') (h : Twin K start.skip start'.skip)
    (within : Compared K (m.read c start start.skip).1.rest) :
    SameNext K (m.read c start start.skip) (m.read c start' start'.skip) := by
  unfold XmlMode.read at within ⊢
  split at within
  · have inner := sameMarkup_markup _ ahead first h within
    exact ⟨inner.piece, by simp only [inner.frame, inner.goesOn]⟩
  · exact ⟨matches_word _ first h (fun _ => rfl) (.refl _), rfl⟩

theorem sameNext_standard (s : Setting) (m : XmlMode) {c : Char} (ahead : start.peek = some c)
    (inline : K.pairs = true → Text.isLineEnd c = false) (first : Twin K start start')
    (h : Twin K start.skip start'.skip)
    (within : Compared K (standard s m c start start.skip).1.rest) :
    SameNext K (standard s m c start start.skip) (standard s m c start' start'.skip) := by
  unfold standard at within ⊢
  simp only [h.peek_eq_some_iff (c := '>') rfl]
  refine sameNext_ite (fun closes _ => ?_) (fun _ => ?_) within
  · exact ⟨matches_symbol _ first (h.same_skip_solid closes.2 rfl (by decide)).last, rfl⟩
  refine sameNext_ite (fun _ => ?_) fun _ within => ?_
  · refine sameNext_ite (fun _ => sameNext_enter m _ first h) fun _ _ => ⟨?_, rfl⟩
    have less := matches_operator c first h
    exact ⟨less.rest, less.token, less.queued,
      .append (.refl [nestingLimit m.literals.length]) less.entries⟩
  · exact ⟨matches_plain s ahead inline first h within, rfl⟩

/-- A piece that begins with a character which both texts spell alike. -/
theorem sameNext_next (s : Setting) (m : XmlMode) {c : Char} (ahead : start.peek = some c)
    (inline : K.pairs = true → Text.isLineEnd c = false) (first : Twin K start start')
    (h : Compared K start.skip → Twin K start.skip start'.skip)
    (within : Compared K (next s m c start start.skip).1.rest) :
    SameNext K (next s m c start start.skip) (next s m c start' start'.skip) := by
  have read := read?_of_peek ahead
  have here := h (within.of_reaches (reaches_next read))
  unfold next at within ⊢
  rw [Numeral.startsAt_eq first]
  refine sameNext_ite (fun _ => sameNext_read m ahead first here) (fun _ => ?_) within
  refine sameNext_ite (fun starts _ => ?_) fun _ => sameNext_standard s m ahead inline first here
  exact ⟨matches_ofNumeral (Numeral.matches_scan first starts), rfl⟩

end Piece

namespace XmlMode

variable {K : Comparison} {start start' r r' : Reader}

/-- The next piece belongs to a tag. -/
def WithinTag (m : XmlMode) : Prop :=
  ∃ frame outer, m = ⟨true, frame :: outer⟩ ∧ (frame.inTag || frame.inCloseTag) = true

/-- A piece of markup has a literal that it belongs to. -/
def Proper (m : XmlMode) : Prop := m.active = true → m.literals ≠ []

/-- Between the parts of a tag, whitespace is read one character at a time. -/
theorem WithinTag.next {m : XmlMode} (h : m.WithinTag) (s : Setting) {c : Char}
    (blank : Text.isMarkupBlank c = true) (start r : Reader) :
    Piece.next s m c start r = ({ rest := r }, m) := by
  obtain ⟨frame, outer, rfl, open_⟩ := h
  have silent : Piece.inTag frame c start r = { piece := { rest := r }, frame } := by
    simp only [Text.isMarkupBlank, Bool.or_eq_true, beq_iff_eq] at blank
    rcases blank with ((rfl | rfl) | rfl) | rfl <;> rfl
  have other : c ≠ '<' := by
    rintro rfl
    cases blank
  simp [Piece.next, read, Piece.markup, other, open_, silent]

/-- A tag that is open belongs to the literal at hand, which is not complete. -/
theorem WithinTag.isComplete {m : XmlMode} (h : m.WithinTag) : m.isComplete = false := by
  obtain ⟨frame, outer, rfl, open_⟩ := h
  cases tag : frame.inTag <;> simp_all [XmlMode.isComplete, MarkupFrame.isComplete]

theorem WithinTag.trailing? {m : XmlMode} (h : m.WithinTag) (r : Reader) :
    m.trailing? r = none := by
  simp [XmlMode.trailing?, h.isComplete]

theorem WithinTag.leave {m : XmlMode} (h : m.WithinTag) : m.leave = m := by
  simp [XmlMode.leave, h.isComplete]

/-- A piece that begins with a line feed, or with the pair that stands for it, unless the line end
    stands between the parts of a tag. -/
theorem sameNext_next_feed (s : Setting) {m : XmlMode} (proper : m.Proper)
    (elsewhere : ¬m.WithinTag) (pairs : K.pairs = true) (ahead : start.peek = some '\n')
    (ahead' : start'.peek = some '\r') (second : start'.skip.peek = some '\n')
    (first : Twin K start start')
    (h : Twin K start.skip start'.skip.skip)
    (within : Compared K (Piece.next s m '\n' start start.skip).1.rest) :
    Piece.SameNext K (Piece.next s m '\n' start start.skip)
      (Piece.next s m '\r' start' start'.skip) := by
  cases active : m.active with
  | false =>
    have plain {q : Reader} {c : Char} (here : q.peek = some c) (lineEnd : c = '\n' ∨ c = '\r') :
        Piece.next s m c q q.skip = (Piece.blank s c q q.skip, m) := by
      rcases lineEnd with rfl | rfl <;>
        simp [Piece.next, active, Numeral.startsAt, here, Text.isDigit, Piece.standard, Piece.plain,
          Text.isBlank]
    rw [plain ahead (.inl rfl), plain ahead' (.inr rfl)]
    exact ⟨Piece.matches_blank_feed s first second h, rfl⟩
  | true =>
    obtain ⟨frame, outer, literals⟩ := List.exists_cons_of_ne_nil (proper active)
    have outside : (frame.inTag || frame.inCloseTag) = false := by
      rw [Bool.eq_false_iff]
      refine fun open_ => elsewhere ⟨frame, outer, ?_, open_⟩
      rw [← active, ← literals]
    have inner {q : Reader} {c : Char} : Piece.next s m c q q.skip
        = ((Piece.markup frame c q q.skip).piece,
          { active := (Piece.markup frame c q q.skip).goesOn
            literals := (Piece.markup frame c q q.skip).frame :: outer }) := by
      simp [Piece.next, active, read, literals]
    rw [inner] at within
    rw [inner, inner]
    have content := Piece.sameMarkup_markup_feed outside first second h pairs within
    exact ⟨content.piece, by simp only [content.frame, content.goesOn]⟩

/-! ## After a literal -/

/-- If the comparison ends within the whitespace after a literal, no comment follows in the second
    text, because an underscore does. -/
theorem noMarkup_of_past (h : Twin K r r') (past : ¬Compared K (r.skipWhile Text.isMarkupBlank)) :
    (r'.skipWhile Text.isMarkupBlank).peek ≠ some '<' := by
  induction size : r.rest.length using Nat.strongRecOn generalizing r r' with
  | ind size ih =>
    subst size
    cases blank : r.peekIs Text.isMarkupBlank with
    | false =>
      rw [skipWhile_of_false blank] at past
      exact absurd h.compared past
    | true =>
      have blank' : r'.peekIs Text.isMarkupBlank = true := by rw [h.peekIs rfl, blank]
      rw [skipWhile_of_true blank] at past
      rw [skipWhile_of_true blank']
      cases h.ahead with
      | done ahead => simp [peekIs, ahead] at blank
      | feed _ ahead _ second next =>
        have more : r'.skip.peekIs Text.isMarkupBlank = true := by
          rw [peekIs, second]
          rfl
        rw [skipWhile_of_true more]
        exact ih _ (length_skip_of_peek ahead) next past rfl
      | char c ahead ahead' _ next =>
        by_cases inside : Compared K r.skip
        · exact ih _ (length_skip_of_peek ahead) (next inside) past rfl
        · obtain ⟨later, -, rest'⟩ := h.ended ahead inside
          have underscore : r'.skip.peek = some '_' := by rw [peek, rest_skip, rest']; rfl
          have stops : r'.skip.peekIs Text.isMarkupBlank = false := by
            rw [peekIs, underscore]
            rfl
          rw [skipWhile_of_false stops, underscore]
          decide

theorem matches_trailing? (m : XmlMode) (h : Twin K r r')
    (within : ∀ p, m.trailing? r = some p → Compared K p.rest) :
    Option.Rel (Piece.Matches K) (m.trailing? r) (m.trailing? r') := by
  unfold XmlMode.trailing? at within ⊢
  by_cases complete : m.isComplete = true
  · rw [if_pos complete] at within ⊢
    rw [if_pos complete]
    dsimp only at within ⊢
    by_cases inside : Compared K (r.skipWhile Text.isMarkupBlank)
    · have stop := h.skipWhile (p := Text.isMarkupBlank) rfl inside
      have open_ := stop.eatText? (t := ['<', '!']) rfl
      generalize (r.skipWhile Text.isMarkupBlank).eatText? ['<', '!'] = place at open_ within ⊢
      generalize (r'.skipWhile Text.isMarkupBlank).eatText? ['<', '!'] = place' at open_ ⊢
      cases open_ with
      | some same => exact .some (Piece.matches_markupSection stop same.last (within _ rfl))
      | none => exact .none
    · have none_' : (r'.skipWhile Text.isMarkupBlank).eatText? ['<', '!'] = none := by
        rw [eatText?_cons, if_neg (noMarkup_of_past h inside)]
      have none_ : (r.skipWhile Text.isMarkupBlank).eatText? ['<', '!'] = none := by
        cases eaten : (r.skipWhile Text.isMarkupBlank).eatText? ['<', '!'] with
        | none => rfl
        | some place =>
          rw [eaten] at within
          have passed := (reaches_of_eatText? eaten).trans
            (Piece.reaches_markupSection (r.skipWhile Text.isMarkupBlank) _)
          exact absurd ((within _ rfl).of_reaches passed) inside
      rw [none_, none_']
      exact .none
  · rw [if_neg complete, if_neg complete]
    exact .none

end XmlMode

end BasicLexis
