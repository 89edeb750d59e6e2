import BasicLexis.Proofs.Piece.Tokens
import BasicLexis.Proofs.Source.Places

set_option autoImplicit false

/-! # Texts that are cut off

A text can be read once as part of a source and once by itself, cut off where the part ends.
`Reader.Cut stop r q` compares the two readings place by place: `q` is where the text by itself is
read while the source is read at `r`. As long as characters are read that come before the end, both
readers see the same; at the end, the text by itself has nothing more to offer. So whatever both
readings do with the characters before the end, they do alike. -/

namespace BasicLexis

namespace Reader

/-- The second reader reads what the first one does, in a text that is cut off at `stop`. -/
def Cut (stop r q : Reader) : Prop := r.rest = q.rest ++ stop.rest

/-- The text up to a place, and nothing else. -/
theorem Reaches.cut {start stop : Reader} (h : start.Reaches stop) :
    Cut stop start (ofText (start.textTo stop)) :=
  h.textTo_append.symm

/-- A run of characters takes those that belong to it. -/
theorem skip_reaches_of_peekIs {p : Char → Bool} {r : Reader} (h : r.peekIs p = true) :
    r.skip.Reaches (r.skipWhile p) := by
  obtain ⟨c, ahead, hc⟩ := (Option.any_eq_true _ _).1 h
  exact skip_reaches_skipWhile (rest_of_peek ahead) hc

theorem skipWhile_of_true {p : Char → Bool} {r : Reader} (h : r.peekIs p = true) :
    r.skipWhile p = r.skip.skipWhile p := by
  obtain ⟨c, ahead, hc⟩ := (Option.any_eq_true _ _).1 h
  obtain ⟨rest, position, location⟩ := r
  cases rest with
  | nil => cases ahead
  | cons d ds =>
    cases ahead
    simp [skipWhile, skipRun, hc, skip, read?]

theorem skipWhile_of_false {p : Char → Bool} {r : Reader} (h : r.peekIs p = false) :
    r.skipWhile p = r := by
  obtain ⟨rest, position, location⟩ := r
  cases rest with
  | nil => rfl
  | cons d ds =>
    have hd : p d = false := by simpa [peekIs, peek] using h
    simp [skipWhile, skipRun, hd]

namespace Cut

variable {stop r q a b : Reader}

theorem length (h : Cut stop r q) : r.rest.length = q.rest.length + stop.rest.length := by
  unfold Cut at h
  rw [h, List.length_append]

/-- Where the text is cut off, nothing follows. -/
theorem peek_eq_none (h : Cut stop stop q) : q.peek = none := by
  have length := h.length
  have empty : q.rest = [] := List.eq_nil_of_length_eq_zero (by omega)
  rw [peek, empty]
  rfl

theorem peek_of_some (h : Cut stop r q) {c : Char} (ahead : q.peek = some c) :
    r.peek = some c := by
  unfold Cut at h
  rw [peek, h, rest_of_peek ahead]
  rfl

theorem skip (h : Cut stop r q) {c : Char} (ahead : q.peek = some c) :
    Cut stop r.skip q.skip := by
  unfold Cut at *
  rw [rest_skip, rest_skip, h, rest_of_peek ahead]
  rfl

/-- A character before the place where the text is cut off is there in both texts. -/
theorem ahead (h : Cut stop r q) {c : Char} (ahead : r.peek = some c)
    (within : r.skip.Reaches stop) : q.peek = some c := by
  have length := h.length
  have shorter := within.length_le
  have front := rest_of_peek ahead
  rw [front, List.length_cons] at length
  cases text : q.rest with
  | nil =>
    rw [text, List.length_nil] at length
    omega
  | cons d ds =>
    unfold Cut at h
    rw [text, front] at h
    rw [peek, text, (List.cons.inj h).1]
    rfl

/-- A text that is cut off after its first character has no second one. -/
theorem last (h : Cut r.skip r q) {c : Char} (ahead : r.peek = some c) :
    q.peek = some c ∧ q.peekAt 1 = none ∧ Cut r.skip r.skip q.skip := by
  have here := h.ahead ahead (.refl _)
  have after := h.skip here
  exact ⟨here, by rw [peekAt_one, after.peek_eq_none], after⟩

/-- A text that is cut off after its second character. -/
theorem lastTwo (h : Cut r.skip.skip r q) {c d : Char} (ahead : r.peek = some c)
    (second : r.peekAt 1 = some d) :
    q.peek = some c ∧ q.peekAt 1 = some d ∧ Cut r.skip.skip r.skip.skip q.skip.skip := by
  rw [peekAt_one] at second
  have here := h.ahead ahead (reaches_skip _)
  have there := (h.skip here).ahead second (.refl _)
  exact ⟨here, by rw [peekAt_one, there], (h.skip here).skip there⟩

/-- What a character satisfies is seen in both texts, if the text is cut off after it. -/
theorem peekIs_eq (h : Cut stop r q) {p : Char → Bool}
    (within : r.peekIs p = true → r.skip.Reaches stop) : q.peekIs p = r.peekIs p := by
  rw [Bool.eq_iff_iff]
  constructor
  · intro here
    obtain ⟨c, next, hc⟩ := (Option.any_eq_true _ _).1 here
    simp [peekIs, h.peek_of_some next, hc]
  · intro here
    obtain ⟨c, next, hc⟩ := (Option.any_eq_true _ _).1 here
    simp [peekIs, h.ahead next (within here), hc]

theorem skip_of_peekIs (h : Cut stop r q) {p : Char → Bool} (here : r.peekIs p = true)
    (within : r.skip.Reaches stop) : Cut stop r.skip q.skip := by
  obtain ⟨c, next, -⟩ := (Option.any_eq_true _ _).1 here
  exact h.skip (h.ahead next within)

theorem skipWhile (h : Cut stop r q) (p : Char → Bool)
    (within : (r.skipWhile p).Reaches stop) :
    Cut stop (r.skipWhile p) (q.skipWhile p) := by
  induction size : r.rest.length using Nat.strongRecOn generalizing r q with
  | ind size ih =>
    subst size
    cases here : r.peekIs p with
    | true =>
      have inside := (skip_reaches_of_peekIs here).trans within
      have there : q.peekIs p = true := by rw [h.peekIs_eq fun _ => inside, here]
      obtain ⟨c, next, -⟩ := (Option.any_eq_true _ _).1 here
      rw [skipWhile_of_true here] at within ⊢
      rw [skipWhile_of_true there]
      exact ih _ (length_skip_of_peek next) (h.skip_of_peekIs here inside) within rfl
    | false =>
      have there : q.peekIs p = false := by rw [h.peekIs_eq (by simp [here]), here]
      rw [skipWhile_of_false here, skipWhile_of_false there]
      exact h

/-- The text between two places is the same. -/
theorem textTo (h : Cut stop a b) (h' : Cut stop r q) (reaches : a.Reaches r)
    (reaches' : b.Reaches q) : b.textTo q = a.textTo r := by
  unfold Cut at *
  have whole := reaches.textTo_append
  rw [h, h', ← reaches'.textTo_append, ← List.append_assoc] at whole
  exact (List.append_cancel_right (List.append_cancel_right whole)).symm

end Cut

end Reader

end BasicLexis
