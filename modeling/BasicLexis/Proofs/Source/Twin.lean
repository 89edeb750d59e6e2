import BasicLexis.Proofs.Source.Cut

set_option autoImplicit false

/-! # Two texts that are read alike

A text can be changed in ways that the lexer does not mind: its line feeds can be spelled as pairs
of a carriage return and a line feed, or a line can be continued on a further one. The two texts are
then read side by side. `Reader.Twin` relates the places at which the two readers stand when they
have read the same; whatever is done at two such places leads to two such places again.

Where line ends are spelled differently, the locations of twins are the same; where a line was
continued, the characters are the same and the locations are not compared. A `Comparison` says which
of the two is the case. -/

namespace BasicLexis

namespace Text

/-- The text with every line feed spelled as a pair of a carriage return and a line feed. -/
def pairLineEnds (text : List Char) : List Char :=
  text.flatMap fun c => if c = '\n' then ['\r', '\n'] else [c]

@[simp] theorem pairLineEnds_nil : pairLineEnds [] = [] := rfl

theorem pairLineEnds_append (a b : List Char) :
    pairLineEnds (a ++ b) = pairLineEnds a ++ pairLineEnds b := by
  simp [pairLineEnds]

theorem pairLineEnds_cons_feed (text : List Char) :
    pairLineEnds ('\n' :: text) = '\r' :: '\n' :: pairLineEnds text := by
  simp [pairLineEnds]

theorem pairLineEnds_cons_of_ne {c : Char} (h : c ≠ '\n') (text : List Char) :
    pairLineEnds (c :: text) = c :: pairLineEnds text := by
  simp [pairLineEnds, h]

theorem pairLineEnds_eq_self {text : List Char} (h : '\n' ∉ text) : pairLineEnds text = text := by
  induction text with
  | nil => rfl
  | cons c cs ih =>
    simp only [List.mem_cons, not_or] at h
    rw [pairLineEnds_cons_of_ne (Ne.symm h.1), ih h.2]

/-- There are neither line ends nor blanks in the text. -/
def isSolid (text : List Char) : Bool := text.all fun c => !isLineEnd c && c != ' '

theorem isSolid_cons (c : Char) (cs : List Char) :
    isSolid (c :: cs) = true ↔ (isLineEnd c = false ∧ c ≠ ' ') ∧ isSolid cs = true := by
  simp [isSolid]

end Text

/-- How two texts differ. -/
inductive Comparison where
  /-- In the second text, line feeds are spelled as pairs of a carriage return and a line feed. -/
  | lineEnds
  /-- The texts agree up to a blank, after which the second text continues its line. `later` is what
      comes after the blank in the first text, and on the further line in the second one. -/
  | continued (later : List Char)
  /-- The texts are the same, but do not stand at the same locations. -/
  | moved

namespace Comparison

/-- Line feeds are spelled as pairs in the second text. -/
def pairs : Comparison → Bool
  | lineEnds => true
  | continued _ | moved => false

/-- What the second text has where the first one has the given characters. -/
def spell (K : Comparison) (text : List Char) : List Char :=
  if K.pairs then Text.pairLineEnds text else text

/-- What is left of the first text where the two are no longer compared. -/
def ending : Comparison → List Char
  | continued later => ' ' :: later
  | lineEnds | moved => []

/-- What is left of the second text where the two are no longer compared. -/
def ending' : Comparison → List Char
  | continued later => ' ' :: '_' :: '\n' :: later
  | lineEnds | moved => []

/-- What is compared of a location. -/
def place (K : Comparison) (l : Location) : Location := if K.pairs then l else .start

theorem spell_append (K : Comparison) (a b : List Char) :
    K.spell (a ++ b) = K.spell a ++ K.spell b := by
  unfold spell
  split
  · exact Text.pairLineEnds_append a b
  · rfl

@[simp] theorem spell_nil (K : Comparison) : K.spell [] = [] := by
  simp [spell]

/-- Only line feeds are spelled in another way. -/
theorem spell_cons {K : Comparison} {c : Char} (h : K.pairs = true → c ≠ '\n') (text : List Char) :
    K.spell (c :: text) = c :: K.spell text := by
  unfold spell
  split
  · next pairs => exact Text.pairLineEnds_cons_of_ne (h pairs) text
  · rfl

theorem spell_eq_self {K : Comparison} {text : List Char} (h : K.pairs = true → '\n' ∉ text) :
    K.spell text = text := by
  unfold spell
  split
  · next pairs => exact Text.pairLineEnds_eq_self (h pairs)
  · rfl

theorem place_right {K : Comparison} {l l' : Location} (h : K.place l = K.place l') (n : Nat) :
    K.place (l.right n) = K.place (l'.right n) := by
  unfold place at *
  split
  · next pairs =>
    simp only [pairs, if_true] at h
    rw [h]
  · rfl

/-- Where the comparison ends, either both texts do or both have a blank. -/
theorem ending_cases (K : Comparison) :
    (K.ending = [] ∧ K.ending' = []) ∨ ∃ a b, K.ending = ' ' :: a ∧ K.ending' = ' ' :: b := by
  cases K with
  | lineEnds => exact .inl ⟨rfl, rfl⟩
  | continued later => exact .inr ⟨later, '_' :: '\n' :: later, rfl, rfl⟩
  | moved => exact .inl ⟨rfl, rfl⟩

end Comparison

namespace Reader

variable {K : Comparison} {r r' s s' : Reader}

/-- A place before the comparison ends, or where it does. -/
def Compared (K : Comparison) (r : Reader) : Prop := K.ending.length ≤ r.rest.length

theorem Compared.of_reaches (h : Compared K s) (reaches : r.Reaches s) : Compared K r :=
  Nat.le_trans h reaches.length_le

/-- What two places have in common at which the same was read. `text` is what is left to compare. -/
structure Before (K : Comparison) (text : List Char) (r r' : Reader) : Prop where
  rest : r.rest = text ++ K.ending
  rest' : r'.rest = K.spell text ++ K.ending'
  feeds : K.pairs = true → '\r' ∉ text
  place : K.place r'.location = K.place r.location

/-- The same was read of both texts. -/
def Twin (K : Comparison) (r r' : Reader) : Prop := ∃ text, Before K text r r'

/-- The two characters ahead, and what comes after them. -/
inductive Ahead (K : Comparison) (r r' : Reader) : Prop where
  | done (ahead : r.peek = none) (ahead' : r'.peek = none)
  | char (c : Char) (ahead : r.peek = some c) (ahead' : r'.peek = some c)
      (inline : K.pairs = true → Text.isLineEnd c = false)
      (next : Compared K r.skip → Twin K r.skip r'.skip)
  | feed (pairs : K.pairs = true) (ahead : r.peek = some '\n') (ahead' : r'.peek = some '\r')
      (second : r'.skip.peek = some '\n') (next : Twin K r.skip r'.skip.skip)

namespace Twin

theorem place (h : Twin K r r') : K.place r'.location = K.place r.location := by
  obtain ⟨_, before⟩ := h
  exact before.place

theorem compared (h : Twin K r r') : Compared K r := by
  obtain ⟨text, before⟩ := h
  rw [Compared, before.rest, List.length_append]
  exact Nat.le_add_left _ _

/-- The location after a character that ends no line, or one that is not compared. -/
theorem place_skip {c : Char} (h : Twin K r r') (ahead : r.peek = some c)
    (ahead' : r'.peek = some c) (inline : K.pairs = true → Text.isLineEnd c = false) :
    K.place r'.skip.location = K.place r.skip.location := by
  rw [skip_of_cons (rest_of_peek ahead), skip_of_cons (rest_of_peek ahead')]
  cases pairs : K.pairs with
  | true =>
    rw [Location.after_of_inline (inline pairs), Location.after_of_inline (inline pairs)]
    exact Comparison.place_right h.place 1
  | false => simp [Comparison.place, pairs]

theorem ahead (h : Twin K r r') : Ahead K r r' := by
  have here := h
  obtain ⟨text, before⟩ := h
  cases text with
  | nil =>
    have rest := before.rest
    have rest' := before.rest'
    rw [Comparison.spell_nil] at rest'
    rcases K.ending_cases with ⟨none_, none_'⟩ | ⟨a, b, blank, blank'⟩
    · exact .done (by simp [peek, rest, none_]) (by simp [peek, rest', none_'])
    · refine .char ' ' (by simp [peek, rest, blank]) (by simp [peek, rest', blank'])
        (fun _ => rfl) fun within => ?_
      rw [Compared, rest_skip, rest, blank] at within
      exact absurd within (by simp)
  | cons c cs =>
    by_cases inline : K.pairs = true → c ≠ '\n'
    · have rest' := before.rest'
      rw [Comparison.spell_cons inline, List.cons_append] at rest'
      have seen : r.peek = some c := by simp [peek, before.rest]
      have seen' : r'.peek = some c := by simp [peek, rest']
      have noEnd : K.pairs = true → Text.isLineEnd c = false := by
        intro pairs
        have noReturn : c ≠ '\r' := fun ret => before.feeds pairs (by simp [ret])
        simp [Text.isLineEnd, inline pairs, noReturn]
      refine .char c seen seen' noEnd fun _ => ⟨cs, ?_, ?_, ?_, here.place_skip seen seen' noEnd⟩
      · rw [rest_skip, before.rest]
        rfl
      · rw [rest_skip, rest']
        rfl
      · exact fun pairs ret => before.feeds pairs (List.mem_cons_of_mem _ ret)
    · -- a line feed, which the second text spells with two characters
      obtain ⟨pairs, feed⟩ : K.pairs = true ∧ c = '\n' := by simpa using inline
      have rest := before.rest
      have rest' := before.rest'
      rw [feed] at rest rest'
      rw [Comparison.spell, if_pos pairs, Text.pairLineEnds_cons_feed, List.cons_append,
        List.cons_append] at rest'
      have skip' := skip_of_cons rest'
      refine .feed pairs (by simp [peek, rest]) (by simp [peek, rest']) (by simp [peek, skip']) ?_
      refine ⟨cs, by rw [rest_skip, rest]; rfl, ?_, ?_, ?_⟩
      · rw [rest_skip, rest_skip, rest', Comparison.spell, if_pos pairs]
        rfl
      · exact fun pairs ret => before.feeds pairs (List.mem_cons_of_mem _ ret)
      · have place := before.place
        simp only [Comparison.place, pairs, if_true] at place ⊢
        rw [skip_of_cons rest, skip', skip_of_cons rfl]
        simp [Location.after, Location.nextLine, Location.right, place]

/-! ## The next character -/

/-- A character that ends no line is ahead at both places or at neither. -/
theorem peek_eq_some_iff (h : Twin K r r') {c : Char} (inline : Text.isLineEnd c = false) :
    r'.peek = some c ↔ r.peek = some c := by
  cases h.ahead with
  | done ahead ahead' => rw [ahead, ahead']
  | char d ahead ahead' => rw [ahead, ahead']
  | feed _ ahead ahead' =>
    rw [ahead, ahead', Option.some.injEq, Option.some.injEq]
    constructor
    · rintro rfl
      cases inline
    · rintro rfl
      cases inline

/-- A predicate that does not tell the line ends apart sees no difference. -/
theorem peekIs (h : Twin K r r') {p : Char → Bool} (uniform : p '\r' = p '\n') :
    r'.peekIs p = r.peekIs p := by
  unfold Reader.peekIs
  cases h.ahead with
  | done ahead ahead' => rw [ahead, ahead']
  | char d ahead ahead' => rw [ahead, ahead']
  | feed _ ahead ahead' => rw [ahead, ahead', Option.any_some, Option.any_some, uniform]

theorem peek_bind (h : Twin K r r') {α : Type} {f : Char → Option α} (uniform : f '\r' = f '\n') :
    r'.peek.bind f = r.peek.bind f := by
  cases h.ahead with
  | done ahead ahead' => rw [ahead, ahead']
  | char d ahead ahead' => rw [ahead, ahead']
  | feed _ ahead ahead' => rw [ahead, ahead', Option.bind_some, Option.bind_some, uniform]

theorem skip (h : Twin K r r') {c : Char} (ahead : r.peek = some c)
    (inline : Text.isLineEnd c = false) (within : Compared K r.skip) : Twin K r.skip r'.skip := by
  cases h.ahead with
  | done none_ => rw [ahead] at none_; cases none_
  | char d _ _ _ next => exact next within
  | feed _ feed =>
    rw [ahead] at feed
    cases feed
    cases inline

/-- A character other than a blank does not lead past the end of the comparison. -/
theorem compared_skip (h : Twin K r r') {c : Char} (ahead : r.peek = some c) (solid : c ≠ ' ') :
    Compared K r.skip := by
  obtain ⟨text, before⟩ := h
  have rest := before.rest
  rw [rest_of_peek ahead] at rest
  cases text with
  | nil =>
    rcases K.ending_cases with ⟨none_, -⟩ | ⟨a, -, blank, -⟩
    · rw [none_] at rest
      cases rest
    · rw [blank] at rest
      exact absurd (List.cons.inj rest).1 solid
  | cons d ds =>
    rw [List.cons_append] at rest
    rw [Compared, (List.cons.inj rest).2, List.length_append]
    exact Nat.le_add_left _ _

end Twin

/-- The comparison ends at a blank, which the second text continues its line after. -/
theorem Twin.ended (h : Twin K r r') {c : Char} (ahead : r.peek = some c)
    (past : ¬Compared K r.skip) :
    ∃ later, K = .continued later ∧ r'.rest = ' ' :: '_' :: '\n' :: later := by
  obtain ⟨text, before⟩ := h
  have rest := before.rest
  rw [rest_of_peek ahead] at rest
  cases text with
  | cons d ds =>
    rw [List.cons_append] at rest
    rw [Compared, (List.cons.inj rest).2, List.length_append] at past
    exact absurd (Nat.le_add_left _ _) past
  | nil =>
    have rest' := before.rest'
    rw [Comparison.spell_nil] at rest'
    cases K with
    | lineEnds => cases rest
    | moved => cases rest
    | continued later => exact ⟨later, rfl, rest'⟩

/-- Two results that are chosen alike. -/
theorem rel_ite {α : Type} {R : α → α → Prop} (rest : α → Reader) {c : Prop} [Decidable c]
    {a a' b b' : α} (yes : c → Compared K (rest a) → R a a')
    (no : ¬c → Compared K (rest b) → R b b')
    (within : Compared K (rest (if c then a else b))) :
    R (if c then a else b) (if c then a' else b') := by
  by_cases holds : c
  · rw [if_pos holds] at within ⊢
    rw [if_pos holds]
    exact yes holds within
  · rw [if_neg holds] at within ⊢
    rw [if_neg holds]
    exact no holds within

/-! ## What was read -/

theorem textTo_trans (h : r.Reaches s) {t : Reader} (h' : s.Reaches t) :
    r.textTo t = r.textTo s ++ s.textTo t := by
  have whole := (h.trans h').textTo_append
  rw [← h.textTo_append, ← h'.textTo_append, ← List.append_assoc] at whole
  exact List.append_cancel_right whole

theorem textTo_skip {c : Char} (ahead : r.peek = some c) : r.textTo r.skip = [c] := by
  have whole := r.reaches_skip.textTo_append
  rw [rest_of_peek ahead] at whole
  exact List.append_cancel_right (show _ = [c] ++ _ from whole)

/-- The second text has what was read of the first one, in its own spelling. -/
theorem Twin.spell_textTo (h : Twin K r r') (h' : Twin K s s') (reaches : r.Reaches s)
    (reaches' : r'.Reaches s') : r'.textTo s' = K.spell (r.textTo s) := by
  obtain ⟨text, before⟩ := h
  obtain ⟨later, after⟩ := h'
  have whole := reaches.textTo_append
  have whole' := reaches'.textTo_append
  rw [after.rest, before.rest, ← List.append_assoc] at whole
  have front := List.append_cancel_right whole
  rw [after.rest', before.rest', ← front, Comparison.spell_append, List.append_assoc] at whole'
  exact List.append_cancel_right whole'

/-- The text between twins is the same, unless line ends are spelled as pairs. -/
theorem Twin.textTo (h : Twin K r r') (h' : Twin K s s') (reaches : r.Reaches s)
    (reaches' : r'.Reaches s') (pairs : K.pairs = false) : r'.textTo s' = r.textTo s := by
  rw [h.spell_textTo h' reaches reaches', Comparison.spell, pairs]
  rfl

/-- From the one place to the other, the two readers read the same characters. -/
structure Same (K : Comparison) (r r' s s' : Reader) : Prop where
  first : Twin K r r'
  last : Twin K s s'
  reaches : r.Reaches s
  reaches' : r'.Reaches s'
  text : r'.textTo s' = r.textTo s

namespace Same

theorem refl (h : Twin K r r') : Same K r r' r r' :=
  ⟨h, h, .refl r, .refl r', by simp [textTo]⟩

theorem trans {t t' : Reader} (h : Same K r r' s s') (h' : Same K s s' t t') :
    Same K r r' t t' := by
  refine ⟨h.first, h'.last, h.reaches.trans h'.reaches, h.reaches'.trans h'.reaches', ?_⟩
  rw [textTo_trans h.reaches h'.reaches, textTo_trans h.reaches' h'.reaches', h.text, h'.text]

end Same

namespace Twin

theorem same_skip (h : Twin K r r') {c : Char} (ahead : r.peek = some c)
    (inline : Text.isLineEnd c = false) (within : Compared K r.skip) :
    Same K r r' r.skip r'.skip := by
  refine ⟨h, h.skip ahead inline within, r.reaches_skip, r'.reaches_skip, ?_⟩
  rw [textTo_skip ahead, textTo_skip ((h.peek_eq_some_iff inline).2 ahead)]

/-- A character that neither ends a line nor is a blank. -/
theorem same_skip_solid (h : Twin K r r') {c : Char} (ahead : r.peek = some c)
    (inline : Text.isLineEnd c = false) (solid : c ≠ ' ') : Same K r r' r.skip r'.skip :=
  h.same_skip ahead inline (h.compared_skip ahead solid)

end Twin

/-! ## Runs of characters -/

/-- The predicate holds of no line end. -/
structure Inline (p : Char → Bool) : Prop where
  feed : p '\n' = false
  ret : p '\r' = false

/-- The predicate holds neither of line ends nor of blanks. -/
structure Solid (p : Char → Bool) : Prop extends Inline p where
  blank : p ' ' = false

theorem Inline.isLineEnd {p : Char → Bool} (h : Inline p) {c : Char} (hc : p c = true) :
    Text.isLineEnd c = false := by
  rw [Bool.eq_false_iff]
  intro lineEnd
  simp only [Text.isLineEnd, Bool.or_eq_true, beq_iff_eq] at lineEnd
  rcases lineEnd with rfl | rfl
  · rw [h.feed] at hc
    cases hc
  · rw [h.ret] at hc
    cases hc

theorem Solid.ne_blank {p : Char → Bool} (h : Solid p) {c : Char} (hc : p c = true) : c ≠ ' ' := by
  rintro rfl
  rw [h.blank] at hc
  cases hc

theorem inline_not_isLineEnd : Inline (!Text.isLineEnd ·) := ⟨rfl, rfl⟩

namespace Twin

/-- A run of characters, of which the predicate may hold of both line ends. -/
theorem skipWhile (h : Twin K r r') {p : Char → Bool} (uniform : p '\r' = p '\n')
    (within : Compared K (r.skipWhile p)) : Twin K (r.skipWhile p) (r'.skipWhile p) := by
  induction size : r.rest.length using Nat.strongRecOn generalizing r r' with
  | ind size ih =>
    subst size
    have same := h.peekIs uniform
    cases here : r.peekIs p with
    | false =>
      rw [here] at same
      rw [skipWhile_of_false here, skipWhile_of_false same]
      exact h
    | true =>
      rw [here] at same
      obtain ⟨c, ahead, hc⟩ := (Option.any_eq_true _ _).1 here
      have inside := within.of_reaches (skip_reaches_of_peekIs here)
      rw [skipWhile_of_true here] at within ⊢
      rw [skipWhile_of_true same]
      cases h.ahead with
      | done none_ => rw [ahead] at none_; cases none_
      | char d _ _ _ next => exact ih _ (length_skip_of_peek ahead) (next inside) within rfl
      | feed _ feed _ second next =>
        rw [ahead] at feed
        cases feed
        have more : r'.skip.peekIs p = true := by simp [Reader.peekIs, second, hc]
        rw [skipWhile_of_true more]
        exact ih _ (length_skip_of_peek ahead) next within rfl

/-- A run of characters that all stay on the line. -/
theorem same_skipWhile (h : Twin K r r') {p : Char → Bool} (inline : Inline p)
    (within : Compared K (r.skipWhile p)) :
    Same K r r' (r.skipWhile p) (r'.skipWhile p) := by
  have stop := h.skipWhile (inline.ret.trans inline.feed.symm) within
  refine ⟨h, stop, reaches_skipWhile _ _, reaches_skipWhile _ _, ?_⟩
  rw [h.spell_textTo stop (reaches_skipWhile _ _) (reaches_skipWhile _ _),
    Comparison.spell_eq_self]
  intro _ feed
  have holds := (Over.skipWhile p r).forall_textTo _ feed
  rw [inline.feed] at holds
  cases holds

/-- A run of characters without blanks does not lead past the end of the comparison. -/
theorem compared_skipWhile (h : Twin K r r') {p : Char → Bool} (solid : Solid p) :
    Compared K (r.skipWhile p) := by
  induction size : r.rest.length using Nat.strongRecOn generalizing r r' with
  | ind size ih =>
    subst size
    cases here : r.peekIs p with
    | false =>
      rw [skipWhile_of_false here]
      exact h.compared
    | true =>
      obtain ⟨c, ahead, hc⟩ := (Option.any_eq_true _ _).1 here
      rw [skipWhile_of_true here]
      exact ih _ (length_skip_of_peek ahead)
        (h.skip ahead (solid.isLineEnd hc) (h.compared_skip ahead (solid.ne_blank hc))) rfl

theorem same_skipWhile_solid (h : Twin K r r') {p : Char → Bool} (solid : Solid p) :
    Same K r r' (r.skipWhile p) (r'.skipWhile p) :=
  h.same_skipWhile solid.toInline (h.compared_skipWhile solid)

/-! ## Expected characters -/

/-- An expected character is there at both places or at neither. -/
theorem eat? (h : Twin K r r') {c : Char} (inline : Text.isLineEnd c = false) (solid : c ≠ ' ') :
    Option.Rel (Same K r r') (r.eat? c) (r'.eat? c) := by
  unfold Reader.eat?
  by_cases ahead : r.peek = some c
  · rw [if_pos ahead, if_pos ((h.peek_eq_some_iff inline).2 ahead)]
    exact .some (h.same_skip_solid ahead inline solid)
  · rw [if_neg ahead, if_neg (mt (h.peek_eq_some_iff inline).1 ahead)]
    exact .none

theorem eatOptional (h : Twin K r r') {c : Char} (inline : Text.isLineEnd c = false)
    (solid : c ≠ ' ') : Same K r r' (r.eatOptional c) (r'.eatOptional c) := by
  unfold Reader.eatOptional
  have eaten := h.eat? inline solid
  generalize r.eat? c = place, r'.eat? c = place' at eaten ⊢
  cases eaten with
  | some same => exact same
  | none => exact .refl h

end Twin

theorem eatText?_cons (c : Char) (cs : List Char) (r : Reader) :
    r.eatText? (c :: cs) = if r.peek = some c then r.skip.eatText? cs else none := by
  unfold eatText?
  cases text : r.rest with
  | nil => simp [peek, text]
  | cons d ds =>
    have tail : r.skip.rest = ds := by rw [rest_skip, text]; rfl
    by_cases same : d = c
    · simp [peek, text, tail, same, skipMany]
    · simp [peek, text, same, Ne.symm same]

/-- An expected text is there at both places or at neither. -/
theorem Twin.eatText? (h : Twin K r r') {t : List Char} (solid : Text.isSolid t = true) :
    Option.Rel (Same K r r') (r.eatText? t) (r'.eatText? t) := by
  induction t generalizing r r' with
  | nil => exact .some (.refl h)
  | cons c cs ih =>
    obtain ⟨⟨inline, blank⟩, later⟩ := (Text.isSolid_cons c cs).1 solid
    rw [eatText?_cons, eatText?_cons]
    by_cases ahead : r.peek = some c
    · rw [if_pos ahead, if_pos ((h.peek_eq_some_iff inline).2 ahead)]
      have first := h.same_skip_solid ahead inline blank
      have rest := ih first.last later
      generalize r.skip.eatText? cs = place, r'.skip.eatText? cs = place' at rest ⊢
      cases rest with
      | some same => exact .some (first.trans same)
      | none => exact .none
    · rw [if_neg ahead, if_neg (mt (h.peek_eq_some_iff inline).1 ahead)]
      exact .none

/-! ## Line ends -/

namespace Twin

theorem peek_eq (h : Twin K r r') (pairs : K.pairs = false) : r'.peek = r.peek := by
  cases h.ahead with
  | done ahead ahead' => rw [ahead, ahead']
  | char c ahead ahead' => rw [ahead, ahead']
  | feed spelled => rw [pairs] at spelled; cases spelled

/-- A line end that both texts spell alike. -/
theorem finishLineEnd? (h : Twin K r r') {c : Char}
    (inline : K.pairs = true → Text.isLineEnd c = false) :
    Option.Rel (fun a a' => Compared K a → Twin K a a') (r.finishLineEnd? c)
      (r'.finishLineEnd? c) := by
  unfold Reader.finishLineEnd?
  by_cases ret : c = '\r'
  · rw [if_pos ret, if_pos ret]
    refine .some fun within => ?_
    have pairs : K.pairs = false := by
      rw [Bool.eq_false_iff]
      intro spelled
      rw [ret] at inline
      exact absurd (inline spelled) (by decide)
    unfold Reader.eatOptional Reader.eat? at within ⊢
    rw [h.peek_eq pairs]
    by_cases feed : r.peek = some '\n'
    · rw [if_pos feed] at within ⊢
      rw [if_pos feed]
      cases h.ahead with
      | done none_ => rw [feed] at none_; cases none_
      | char d _ _ _ next => exact next within
      | feed spelled => rw [pairs] at spelled; cases spelled
    · rw [if_neg feed, if_neg feed]
      exact h
  · rw [if_neg ret, if_neg ret]
    split
    · exact .some fun _ => h
    · exact .none

theorem skipLineEnd (h : Twin K r r') (within : Compared K r.skipLineEnd) :
    Twin K r.skipLineEnd r'.skipLineEnd := by
  have reads {q : Reader} {c : Char} (ahead : q.peek = some c) :
      q.skipLineEnd = (q.skip.finishLineEnd? c).getD q := by
    rw [Reader.skipLineEnd, read?, rest_of_peek ahead, skip_of_cons (rest_of_peek ahead)]
  have ends {q : Reader} (ahead : q.peek = none) : q.skipLineEnd = q := by
    rw [Reader.skipLineEnd, read?, List.head?_eq_none_iff.1 ahead]
  cases h.ahead with
  | done ahead ahead' =>
    rw [ends ahead, ends ahead']
    exact h
  | char c ahead ahead' inline next =>
    rw [reads ahead] at within
    rw [reads ahead, reads ahead']
    by_cases blank : c = ' '
    · rw [blank]
      exact h
    · have finished := (next (h.compared_skip ahead blank)).finishLineEnd? inline
      generalize r.skip.finishLineEnd? c = place, r'.skip.finishLineEnd? c = place' at *
      cases finished with
      | some twin => exact twin within
      | none => exact h
  | feed pairs ahead ahead' second next =>
    rw [reads ahead, reads ahead']
    simpa [Reader.finishLineEnd?, Reader.eatOptional, Reader.eat?, second] using next

/-- The rest of a line. -/
theorem readLine (h : Twin K r r') (within : Compared K r.readLine.2) :
    r'.readLine.1 = r.readLine.1 ∧ Twin K r.readLine.2 r'.readLine.2 := by
  rw [readLine_eq, readLine_eq] at *
  have stop := h.same_skipWhile inline_not_isLineEnd (within.of_reaches (reaches_skipLineEnd _))
  exact ⟨stop.text, stop.last.skipLineEnd within⟩

end Twin

end Reader

end BasicLexis
