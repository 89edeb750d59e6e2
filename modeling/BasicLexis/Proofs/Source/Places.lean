import BasicLexis.Source.Reach
import Mathlib.Order.Defs.LinearOrder

set_option autoImplicit false

/-! # Places of a source

All places that can be reached from one place lie on a line. They follow each other as their
positions do, and so do their locations: of two places, the earlier one has the smaller location. A
token that is known to stand between two places is thereby ordered with respect to all others.

`Reader.Over p r r'` says what stands between two places: only characters that satisfy `p`. -/

namespace BasicLexis

/-! ## Locations -/

namespace Location

theorem le_iff {a b : Location} :
    a ≤ b ↔ a.line < b.line ∨ (a.line = b.line ∧ a.column ≤ b.column) := Iff.rfl

theorem lt_iff {a b : Location} :
    a < b ↔ a.line < b.line ∨ (a.line = b.line ∧ a.column < b.column) := Iff.rfl

instance : LinearOrder Location where
  le_refl a := .inr ⟨rfl, Nat.le_refl _⟩
  le_trans a b c := by
    simp only [le_iff]
    omega
  le_antisymm a b := by
    obtain ⟨line, column⟩ := a
    obtain ⟨line', column'⟩ := b
    simp only [le_iff, mk.injEq]
    omega
  le_total a b := by
    simp only [le_iff]
    omega
  lt_iff_le_not_ge a b := by
    simp only [le_iff, lt_iff]
    omega
  toDecidableLE := inferInstance

/-- Every character leads to a later location. -/
theorem lt_after (l : Location) (c : Char) (following : Option Char) : l < l.after c following := by
  unfold after
  split
  · exact .inl (Nat.lt_succ_self _)
  · exact .inr ⟨rfl, Nat.lt_succ_self _⟩

/-- A character that ends no line leads to the next column. -/
theorem after_of_inline {c : Char} (h : Text.isLineEnd c = false) (l : Location)
    (following : Option Char) : l.after c following = l.right 1 := by
  simp only [Text.isLineEnd, Bool.or_eq_false_iff, beq_eq_false_iff_ne] at h
  unfold after
  rw [if_neg]
  rintro (feed | ⟨ret, -⟩)
  · exact h.1 feed
  · exact h.2 ret

theorem right_right (l : Location) (m n : Nat) : (l.right m).right n = l.right (m + n) := by
  simp only [right, Nat.add_assoc]

end Location

theorem Span.contains_iff {s : Span} {l : Location} :
    s.contains l = true ↔ s.start ≤ l ∧ l < s.stop := by
  simp [contains]

namespace Reader

variable {r r' a b : Reader}

/-! ## Single characters -/

theorem skip_of_cons {c : Char} {cs : List Char} (h : r.rest = c :: cs) :
    r.skip = ⟨cs, r.position + 1, r.location.after c cs.head?⟩ := by
  simp [skip, read?, h]

theorem skip_of_nil (h : r.rest = []) : r.skip = r := by
  simp [skip, read?, h]

theorem peek_of_read? {c : Char} (h : r.read? = some (c, r')) : r.peek = some c := by
  simp [peek, rest_eq_of_read? h]

theorem rest_of_peek {c : Char} (h : r.peek = some c) : r.rest = c :: r.skip.rest := by
  obtain ⟨rest, position, location⟩ := r
  cases rest with
  | nil => cases h
  | cons d ds =>
    cases h
    rfl

theorem read?_of_peek {c : Char} (h : r.peek = some c) : r.read? = some (c, r.skip) := by
  rw [skip_of_cons (rest_of_peek h), read?, rest_of_peek h]

theorem position_skip_of_peek {c : Char} (h : r.peek = some c) :
    r.skip.position = r.position + 1 := by
  rw [skip_of_cons (rest_of_peek h)]

theorem peekAt_one (r : Reader) : r.peekAt 1 = r.skip.peek := by
  rw [peek, rest_skip, peekAt]
  cases r.rest with
  | nil => rfl
  | cons c cs => simp [List.head?_eq_getElem?]

theorem rest_skipMany (k : Nat) (r : Reader) : (skipMany k r).rest = r.rest.drop k := by
  induction k generalizing r with
  | zero => rfl
  | succ k ih => rw [skipMany, ih, rest_skip, List.drop_tail]

/-- What was read of a text, and what is left after it. -/
theorem append_of_eatText? {text : List Char} (h : r.eatText? text = some r') :
    text ++ r'.rest = r.rest := by
  unfold eatText? at h
  split at h
  · next spelled =>
    cases h
    obtain ⟨later, rest⟩ := List.isPrefixOf_iff_prefix.1 spelled
    rw [rest_skipMany, ← rest, List.drop_left]
  · cases h

/-! ## The line of places -/

theorem position_skipMany {n : Nat} (h : n ≤ r.rest.length) :
    (skipMany n r).position = r.position + n := by
  induction n generalizing r with
  | zero => rfl
  | succ n ih =>
    cases text : r.rest with
    | nil =>
      rw [text] at h
      cases h
    | cons c cs =>
      have moved : r.skip.position = r.position + 1 := by rw [skip_of_cons text]
      have fewer : n ≤ r.skip.rest.length := by
        rw [rest_skip, text]
        rw [text] at h
        exact Nat.le_of_succ_le_succ h
      rw [skipMany, ih fewer, moved, Nat.add_assoc, Nat.add_comm 1]

/-- A place is reached by characters that are all there. -/
theorem Reaches.exists_position (h : r.Reaches r') :
    ∃ n ≤ r.rest.length, r' = skipMany n r ∧ r'.position = r.position + n := by
  obtain ⟨n, rfl⟩ := h
  rcases Nat.le_total n r.rest.length with few | many
  · exact ⟨n, few, rfl, position_skipMany few⟩
  · -- at the end of the source nothing more is skipped
    have ended : skipMany n r = skipMany r.rest.length r := by
      obtain ⟨k, rfl⟩ := Nat.exists_eq_add_of_le many
      rw [skipMany_add]
      have empty : (skipMany r.rest.length r).rest = [] := by rw [rest_skipMany, List.drop_length]
      generalize skipMany r.rest.length r = place at empty
      induction k with
      | zero => rfl
      | succ k ih => rw [skipMany, skip_of_nil empty, ih (Nat.le_add_right _ _)]
    rw [ended]
    exact ⟨_, Nat.le_refl _, rfl, position_skipMany (Nat.le_refl _)⟩

theorem Reaches.position_le (h : r.Reaches r') : r.position ≤ r'.position := by
  obtain ⟨n, -, -, position⟩ := h.exists_position
  omega

/-- What comes after a character is past it. -/
theorem position_lt_of_skip {c : Char} (h : r.peek = some c) (later : r.skip.Reaches r') :
    r.position < r'.position := by
  have next := position_skip_of_peek h
  have past := later.position_le
  omega

/-- All of a text was read once nothing is left of it. -/
theorem Reaches.position_of_done {text : List Char} (h : (ofText text).Reaches r)
    (done : r.rest = []) : r.position = text.length := by
  obtain ⟨n, few, rfl, position⟩ := h.exists_position
  rw [rest_skipMany, List.drop_eq_nil_iff] at done
  simp only [ofText] at *
  omega

theorem textTo_isPrefix (r r' : Reader) : r.textTo r' <+: r.rest := List.take_prefix _ _

/-- The text between two places, and what is left after it. -/
theorem Reaches.textTo_append (h : r.Reaches r') : r.textTo r' ++ r'.rest = r.rest := by
  obtain ⟨n, -, place, position⟩ := h.exists_position
  rw [textTo, position, Nat.add_sub_cancel_left, place, rest_skipMany, List.take_append_drop]

/-- The text in front of what is left. -/
theorem Reaches.textTo_eq (h : r.Reaches r') {front : List Char}
    (text : r.rest = front ++ r'.rest) : r.textTo r' = front := by
  have append := h.textTo_append
  rw [text] at append
  exact List.append_cancel_right append

theorem Reaches.length_textTo (h : r.Reaches r') :
    (r.textTo r').length = r'.position - r.position := by
  obtain ⟨n, few, -, position⟩ := h.exists_position
  rw [textTo, List.length_take]
  omega

/-- Where less is left of the text, more was read. -/
theorem Reaches.position_lt (h : r.Reaches r') (less : r'.rest.length < r.rest.length) :
    r.position < r'.position := by
  obtain ⟨n, -, rfl, position⟩ := h.exists_position
  rw [rest_skipMany, List.length_drop] at less
  omega

/-- At the end there is nothing more to read. -/
theorem Reaches.position_of_nil (h : r.Reaches r') (done : r.rest = []) :
    r'.position = r.position := by
  obtain ⟨n, few, -, position⟩ := h.exists_position
  simp only [done, List.length_nil] at few
  omega

/-- Of two places that can be reached, the one with the greater position can be reached from the
    other. -/
theorem Reaches.of_position_le (ha : r.Reaches a) (hb : r.Reaches b)
    (h : a.position ≤ b.position) : a.Reaches b := by
  obtain ⟨m, -, rfl, positionA⟩ := ha.exists_position
  obtain ⟨n, -, rfl, positionB⟩ := hb.exists_position
  have more : n = m + (n - m) := by omega
  exact ⟨n - m, by rw [← skipMany_add, ← more]⟩

/-- There is a place for every position between two places. -/
theorem Reaches.exists_between (h : r.Reaches b) {n : Nat} (few : r.position + n ≤ b.position) :
    ∃ a, r.Reaches a ∧ a.Reaches b ∧ a.position = r.position + n := by
  obtain ⟨m, all, -, position⟩ := h.exists_position
  have there : (skipMany n r).position = r.position + n := position_skipMany (by omega)
  exact ⟨skipMany n r, reaches_skipMany n r,
    (reaches_skipMany n r).of_position_le h (by omega), there⟩

theorem Reaches.eq_of_position (h : r.Reaches r') (same : r'.position ≤ r.position) : r' = r := by
  obtain ⟨n, -, rfl, position⟩ := h.exists_position
  have none_ : n = 0 := by omega
  rw [none_]
  rfl

theorem location_lt_skip {c : Char} (h : r.peek = some c) : r.location < r.skip.location := by
  rw [skip_of_cons (rest_of_peek h)]
  exact Location.lt_after _ _ _

/-- A later place has no smaller location. -/
theorem Reaches.location_le (h : r.Reaches r') : r.location ≤ r'.location := by
  obtain ⟨n, rfl⟩ := h
  induction n generalizing r with
  | zero => exact le_refl _
  | succ n ih =>
    refine le_trans ?_ (ih (r := r.skip))
    cases ahead : r.peek with
    | none => rw [skip_of_nil (List.head?_eq_none_iff.1 ahead)]
    | some c => exact le_of_lt (location_lt_skip ahead)

/-- A place further on has a greater location. -/
theorem Reaches.location_lt (h : r.Reaches r') (less : r.position < r'.position) :
    r.location < r'.location := by
  obtain ⟨n, few, rfl, position⟩ := h.exists_position
  cases n with
  | zero => omega
  | succ n =>
    cases text : r.rest with
    | nil =>
      rw [text] at few
      cases few
    | cons c cs =>
      have ahead : r.peek = some c := by simp [peek, text]
      exact lt_of_lt_of_le (location_lt_skip ahead) (reaches_skipMany n r.skip).location_le

/-- The locations of the places of a source are in the order of their positions. -/
theorem Reaches.location_lt_iff (ha : r.Reaches a) (hb : r.Reaches b) :
    a.location < b.location ↔ a.position < b.position := by
  constructor
  · intro less
    by_contra back
    have := (hb.of_position_le ha (Nat.le_of_not_lt back)).location_le
    exact absurd less (not_lt_of_ge this)
  · intro less
    exact (ha.of_position_le hb (Nat.le_of_lt less)).location_lt less

theorem Reaches.location_le_iff (ha : r.Reaches a) (hb : r.Reaches b) :
    a.location ≤ b.location ↔ a.position ≤ b.position := by
  rw [← not_lt, hb.location_lt_iff ha, Nat.not_lt]

/-- No two places of a source have the same location, so the location of a token says where its text
    is to be found. -/
theorem Reaches.eq_of_location (ha : r.Reaches a) (hb : r.Reaches b)
    (same : a.location = b.location) : a = b := by
  have forth := (ha.location_le_iff hb).1 (le_of_eq same)
  have back := (hb.location_le_iff ha).1 (le_of_eq same.symm)
  exact ((ha.of_position_le hb forth).eq_of_position back).symm

/-! ## What stands between two places -/

/-- All characters from one place up to a later one satisfy `p`. -/
structure Over (p : Char → Bool) (r r' : Reader) : Prop where
  reaches : r.Reaches r'
  chars : ∀ place, r.Reaches place → place.position < r'.position → place.peekIs p = true

namespace Over

variable {p q : Char → Bool}

theorem refl (p : Char → Bool) (r : Reader) : Over p r r := by
  refine ⟨.refl r, fun place reaches before => ?_⟩
  exact absurd reaches.position_le (Nat.not_le_of_lt before)

theorem trans (h : Over p r a) (h' : Over p a b) : Over p r b := by
  refine ⟨h.reaches.trans h'.reaches, fun place reaches before => ?_⟩
  rcases Nat.lt_or_ge place.position a.position with front | back
  · exact h.chars place reaches front
  · exact h'.chars place (h.reaches.of_position_le reaches back) before

theorem mono (h : Over p r r') (weaker : ∀ c, p c = true → q c = true) : Over q r r' := by
  refine ⟨h.reaches, fun place reaches before => ?_⟩
  have holds := h.chars place reaches before
  simp only [peekIs, Option.any_eq_true] at holds ⊢
  obtain ⟨c, ahead, hc⟩ := holds
  exact ⟨c, ahead, weaker c hc⟩

theorem skip {c : Char} (ahead : r.peek = some c) (hc : p c = true) : Over p r r.skip := by
  refine ⟨r.reaches_skip, fun place reaches before => ?_⟩
  rw [position_skip_of_peek ahead] at before
  rw [reaches.eq_of_position (Nat.le_of_lt_succ before)]
  simp [peekIs, ahead, hc]

theorem skipWhile (p : Char → Bool) (r : Reader) : Over p r (r.skipWhile p) := by
  obtain ⟨rest, position, location⟩ := r
  induction rest generalizing position location with
  | nil => exact .refl _ _
  | cons c cs ih =>
    unfold Reader.skipWhile skipRun
    split
    · next hc => exact (Over.skip (r := ⟨c :: cs, position, location⟩) rfl hc).trans (ih _ _)
    · exact .refl _ _

/-- A shorter stretch. -/
theorem cut (h : Over p r b) (reaches : r.Reaches a) (shorter : a.position ≤ b.position) :
    Over p r a :=
  ⟨reaches, fun place reaches before => h.chars place reaches (Nat.lt_of_lt_of_le before shorter)⟩

theorem forall_textTo (h : Over p r r') : ∀ c ∈ r.textTo r', p c = true := by
  intro c hc
  obtain ⟨i, inside, rfl⟩ := List.getElem_of_mem hc
  have there : i < r.rest.length :=
    Nat.lt_of_lt_of_le inside (textTo_isPrefix r r').length_le
  rw [h.reaches.length_textTo] at inside
  have holds := h.chars (skipMany i r) (reaches_skipMany i r)
    (by rw [position_skipMany (Nat.le_of_lt there)]; omega)
  have ahead : (skipMany i r).peek = some r.rest[i] := by
    rw [peek, rest_skipMany, List.head?_drop, List.getElem?_eq_getElem there]
  simpa [peekIs, ahead, textTo] using holds

end Over

/-- A run of characters ends where the next one does not belong to it. -/
theorem peek_skipWhile (p : Char → Bool) (r : Reader) : (r.skipWhile p).peekIs p = false := by
  obtain ⟨rest, position, location⟩ := r
  induction rest generalizing position location with
  | nil => rfl
  | cons c cs ih =>
    unfold skipWhile skipRun
    split
    · exact ih _ _
    · next hc => simpa [peekIs, peek] using hc

/-- Within a line, locations count the characters. -/
theorem Over.location_of_inline (h : Over (!Text.isLineEnd ·) r r') :
    r'.location = r.location.right (r'.position - r.position) := by
  obtain ⟨reaches, chars⟩ := h
  obtain ⟨n, few, place, position⟩ := reaches.exists_position
  rw [position, Nat.add_sub_cancel_left]
  induction n generalizing r with
  | zero =>
    rw [place]
    rfl
  | succ n ih =>
    cases text : r.rest with
    | nil =>
      rw [text] at few
      cases few
    | cons c cs =>
      have ahead : r.peek = some c := by simp [peek, text]
      have moved := position_skip_of_peek ahead
      have inline : Text.isLineEnd c = false := by
        simpa [peekIs, ahead] using chars r (.refl r) (by omega)
      have next : r.skip.location = r.location.right 1 := by
        rw [skip_of_cons text, Location.after_of_inline inline]
      have later := ih (r := r.skip) ⟨n, place⟩
        (fun place reaches before => chars place (r.reaches_skip.trans reaches) before)
        (by rw [rest_skip, text, List.tail_cons]; rw [text] at few; exact Nat.le_of_succ_le_succ few)
        place (by omega)
      rw [later, next, Location.right_right, Nat.add_comm 1]

/-! ## Line ends -/

theorem isBlank_of_isLineEnd {c : Char} (h : Text.isLineEnd c = true) : Text.isBlank c = true := by
  simp only [Text.isLineEnd, Bool.or_eq_true, beq_iff_eq] at h
  rcases h with rfl | rfl <;> rfl

theorem isBlank_of_isMarkupBlank {c : Char} (h : Text.isMarkupBlank c = true) :
    Text.isBlank c = true := by
  simp only [Text.isMarkupBlank, Bool.or_eq_true, beq_iff_eq] at h
  rcases h with ((rfl | rfl) | rfl) | rfl <;> rfl

/-- A line feed is skipped, or nothing is. -/
theorem over_eatOptional {c : Char} {p : Char → Bool} (hc : p c = true) (r : Reader) :
    Over p r (r.eatOptional c) := by
  unfold eatOptional eat?
  split
  · next ahead => exact .skip ahead hc
  · exact .refl _ _

/-- What completes a line end is whitespace. -/
theorem over_of_finishLineEnd? {c : Char} (h : r.finishLineEnd? c = some r') :
    Over Text.isBlank r r' ∧ Text.isLineEnd c = true := by
  unfold finishLineEnd? at h
  split at h
  · next ret =>
    cases h
    exact ⟨over_eatOptional rfl r, by rw [ret]; rfl⟩
  · split at h
    · next feed =>
      cases h
      exact ⟨.refl _ _, by rw [feed]; rfl⟩
    · cases h

/-- A line end is whitespace. -/
theorem over_skipLineEnd (r : Reader) : Over Text.isBlank r r.skipLineEnd := by
  unfold skipLineEnd
  cases h : r.read? with
  | none => exact .refl _ _
  | some next =>
    obtain ⟨c, r'⟩ := next
    dsimp only
    cases h' : r'.finishLineEnd? c with
    | none => exact .refl _ _
    | some r'' =>
      obtain ⟨across, lineEnd⟩ := over_of_finishLineEnd? h'
      have first := Over.skip (peek_of_read? h) (isBlank_of_isLineEnd lineEnd)
      rw [← skip_eq_of_read? h] at first
      exact first.trans across

end Reader

end BasicLexis
