import BasicLexis.Source.Reader

set_option autoImplicit false

/-! # Places that a reader can reach

All reading moves forward, one character at a time. `Reader.Reaches r r'` says that `r'` is the
place some number of characters after `r`; every operation on readers leads to a place that is
reached in this sense, so the text that is left never grows. That is why the loops of the lexer
end. -/

namespace BasicLexis.Reader

/-- The second place is some number of characters after the first. -/
def Reaches (r r' : Reader) : Prop := ∃ n, r' = skipMany n r

theorem skipMany_add (m n : Nat) (r : Reader) : skipMany (m + n) r = skipMany n (skipMany m r) := by
  induction m generalizing r with
  | zero => simp [skipMany]
  | succ m ih => rw [Nat.succ_add]; exact ih r.skip

namespace Reaches

theorem refl (r : Reader) : r.Reaches r := ⟨0, rfl⟩

theorem trans {r s t : Reader} (h : r.Reaches s) (h' : s.Reaches t) : r.Reaches t := by
  obtain ⟨m, rfl⟩ := h
  obtain ⟨n, rfl⟩ := h'
  exact ⟨m + n, (skipMany_add m n r).symm⟩

end Reaches

/-! ## Single characters -/

theorem reaches_skip (r : Reader) : r.Reaches r.skip := ⟨1, rfl⟩

theorem reaches_skipMany (n : Nat) (r : Reader) : r.Reaches (skipMany n r) := ⟨n, rfl⟩

theorem rest_skip (r : Reader) : r.skip.rest = r.rest.tail := by
  obtain ⟨rest, position, location⟩ := r
  cases rest <;> rfl

theorem skip_eq_of_read? {r r' : Reader} {c : Char} (h : r.read? = some (c, r')) : r' = r.skip := by
  simp [skip, h]

theorem rest_eq_of_read? {r r' : Reader} {c : Char} (h : r.read? = some (c, r')) :
    r.rest = c :: r'.rest := by
  obtain ⟨rest, position, location⟩ := r
  cases rest with
  | nil => simp [read?] at h
  | cons d ds =>
    simp only [read?, Option.some.injEq, Prod.mk.injEq] at h
    obtain ⟨rfl, rfl⟩ := h
    rfl

theorem rest_eq_nil_of_read? {r : Reader} (h : r.read? = none) : r.rest = [] := by
  obtain ⟨rest, position, location⟩ := r
  cases rest with
  | nil => rfl
  | cons d ds => simp [read?] at h

/-- Reading a character leaves one character less. -/
theorem length_of_read? {r r' : Reader} {c : Char} (h : r.read? = some (c, r')) :
    r'.rest.length < r.rest.length := by
  rw [rest_eq_of_read? h]
  exact Nat.lt_succ_self _

/-- What is left of the text never grows. -/
theorem Reaches.length_le {r r' : Reader} (h : r.Reaches r') : r'.rest.length ≤ r.rest.length := by
  obtain ⟨n, rfl⟩ := h
  induction n generalizing r with
  | zero => exact Nat.le_refl _
  | succ n ih =>
    refine Nat.le_trans (ih (r := r.skip)) ?_
    rw [rest_skip, List.length_tail]
    exact Nat.sub_le _ _

/-! ## Runs of characters -/

theorem reaches_skipRun (p : Char → Bool) (cs : List Char) (n : Nat) (l : Location) :
    Reaches ⟨cs, n, l⟩ (skipRun p cs n l) := by
  induction cs generalizing n l with
  | nil => exact .refl _
  | cons c cs ih =>
    unfold skipRun
    split
    · exact (reaches_skip ⟨c :: cs, n, l⟩).trans (ih _ _)
    · exact .refl _

theorem reaches_skipWhile (p : Char → Bool) (r : Reader) : r.Reaches (r.skipWhile p) :=
  reaches_skipRun p r.rest r.position r.location

theorem textTo_skipRun (p : Char → Bool) (cs : List Char) (n : Nat) (l : Location) :
    textTo ⟨cs, n, l⟩ (skipRun p cs n l) = cs.takeWhile p := by
  have position (cs : List Char) (n : Nat) (l : Location) :
      (skipRun p cs n l).position = n + (cs.takeWhile p).length := by
    induction cs generalizing n l with
    | nil => rfl
    | cons c cs ih =>
      by_cases h : p c = true
      · simp only [skipRun, h, if_true, ih, List.takeWhile_cons_of_pos h, List.length_cons]
        omega
      · simp [skipRun, h]
  rw [textTo, position, Nat.add_sub_cancel_left]
  exact (List.prefix_iff_eq_take.1 (List.takeWhile_prefix p)).symm

theorem readRun_eq (p : Char → Bool) (cs : List Char) (n : Nat) (l : Location)
    (text : List Char) :
    readRun p cs n l text = (text.reverse ++ cs.takeWhile p, skipRun p cs n l) := by
  induction cs generalizing n l text with
  | nil => simp [readRun, skipRun]
  | cons c cs ih =>
    by_cases h : p c = true
    · simp [readRun, skipRun, h, ih]
    · simp [readRun, skipRun, h]

/-- A run of characters is the first part of what is left of the text. -/
theorem textTo_skipWhile (p : Char → Bool) (r : Reader) :
    r.textTo (r.skipWhile p) = r.rest.takeWhile p :=
  textTo_skipRun p r.rest r.position r.location

/-- What is read is the text between the two places. -/
theorem readWhile_eq (p : Char → Bool) (r : Reader) :
    r.readWhile p = (r.textTo (r.skipWhile p), r.skipWhile p) := by
  rw [textTo_skipWhile, readWhile, readRun_eq]
  rfl

theorem readWhile_eq_takeWhile (p : Char → Bool) (r : Reader) :
    (r.readWhile p).1 = r.rest.takeWhile p := by
  rw [readWhile_eq, textTo_skipWhile]

theorem reaches_readWhile (p : Char → Bool) (r : Reader) : r.Reaches (r.readWhile p).2 := by
  rw [readWhile_eq]
  exact r.reaches_skipWhile p

theorem reaches_of_eat? {c : Char} {r r' : Reader} (h : r.eat? c = some r') : r.Reaches r' := by
  unfold eat? at h
  split at h
  · cases h; exact r.reaches_skip
  · cases h

theorem reaches_of_eatText? {text : List Char} {r r' : Reader} (h : r.eatText? text = some r') :
    r.Reaches r' := by
  unfold eatText? at h
  split at h
  · cases h; exact r.reaches_skipMany _
  · cases h

theorem reaches_eatOptional (c : Char) (r : Reader) : r.Reaches (r.eatOptional c) := by
  unfold eatOptional
  cases h : r.eat? c with
  | none => exact .refl r
  | some r' => exact reaches_of_eat? h

/-! ## Line ends -/

theorem reaches_of_finishLineEnd? {c : Char} {r r' : Reader} (h : r.finishLineEnd? c = some r') :
    r.Reaches r' := by
  unfold finishLineEnd? at h
  split at h
  · cases h; exact r.reaches_eatOptional _
  · split at h
    · cases h; exact .refl _
    · cases h

theorem reaches_skipLineEnd (r : Reader) : r.Reaches r.skipLineEnd := by
  unfold skipLineEnd
  cases h : r.read? with
  | none => exact .refl r
  | some p =>
    obtain ⟨c, r'⟩ := p
    dsimp only
    cases h' : r'.finishLineEnd? c with
    | none => exact .refl r
    | some r'' =>
      have := skip_eq_of_read? h
      subst this
      exact r.reaches_skip.trans (reaches_of_finishLineEnd? h')

/-! ## Lines -/

section Lines

variable {σ : Type} (f : σ → Location → Char → σ)

/-- Tells the characters of a text without line ends to `f`, the first of them at a location. -/
def foldText : List Char → Location → σ → σ
  | [], _, state => state
  | c :: cs, l, state => foldText cs (l.right 1) (f state l c)

/-- A line is told to `f` up to its end, which is read too. -/
theorem foldLine_eq (cs : List Char) (n : Nat) (l : Location) (state : σ) :
    let stop := skipRun (!Text.isLineEnd ·) cs n l
    foldLine f cs n l state
      = (foldText f (cs.takeWhile (!Text.isLineEnd ·)) l state,
        if stop.rest = [] then none else some stop.location, stop.skipLineEnd) := by
  induction cs generalizing n l state with
  | nil => rfl
  | cons c cs ih =>
    by_cases h : Text.isLineEnd c = true
    · have ends : ∃ rest, finishLineEnd? c ⟨cs, n + 1, l.after c cs.head?⟩ = some rest := by
        simp only [Text.isLineEnd, Bool.or_eq_true, beq_iff_eq] at h
        rcases h with rfl | rfl
        · exact ⟨_, rfl⟩
        · exact ⟨_, rfl⟩
      obtain ⟨rest, ends⟩ := ends
      simp [foldLine, skipRun, foldText, skipLineEnd, read?, h, ends]
    · have inline : c ≠ '\n' ∧ c ≠ '\r' := by simpa [Text.isLineEnd] using h
      have right : l.after c cs.head? = l.right 1 := by simp [Location.after, inline]
      have goesOn (r : Reader) : finishLineEnd? c r = none := by simp [finishLineEnd?, inline]
      simp [foldLine, skipRun, foldText, h, right, goesOn, ih]

end Lines

/-- The text of a line is what is read up to its end. -/
theorem readLine_eq (r : Reader) :
    let stop := r.skipWhile (!Text.isLineEnd ·)
    r.readLine = (r.textTo stop, stop.skipLineEnd) := by
  have reversed (cs : List Char) (l : Location) (text : List Char) :
      foldText (fun text _ c => c :: text) cs l text = cs.reverse ++ text := by
    induction cs generalizing l text with
    | nil => rfl
    | cons c cs ih => simp [foldText, ih]
  intro stop
  have text : r.textTo stop = r.rest.takeWhile (!Text.isLineEnd ·) := r.textTo_skipWhile _
  simp only [readLine, foldLine_eq, reversed, List.append_nil, List.reverse_reverse, text]
  rfl

theorem reaches_readLine (r : Reader) : r.Reaches r.readLine.2 := by
  rw [readLine_eq]
  exact (r.reaches_skipWhile _).trans (reaches_skipLineEnd _)

end BasicLexis.Reader
