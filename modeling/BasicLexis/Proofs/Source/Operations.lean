import BasicLexis.Proofs.Source.Places
import Mathlib.Data.Nat.Basic
import Mathlib.Order.Interval.Set.Defs
import Mathlib.Order.Lattice
import Mathlib.Order.Monotone.Defs

set_option autoImplicit false

/-! # Locations are functions of positions

A reader counts lines and columns as it goes, and has to look one character ahead at every carriage
return. Still its location depends on the text and on the position only: `Location.ofPosition` is
the location of a position, told from the text. So it makes no difference how a text is read, and in
particular not whether a line end is read at once or in two steps.

`Operation.Does` says what each operation on readers does, in terms of the text and of positions:
which characters it takes, and what it answers. -/

namespace BasicLexis

namespace Location

variable {text : List Char} {n : Nat}

/-- A line is complete after the character at an index: a line feed, or a carriage return that no
    line feed follows. -/
def completesLine (text : List Char) (i : Nat) : Bool :=
  text[i]? = some '\n' ∨ (text[i]? = some '\r' ∧ text[i + 1]? ≠ some '\n')

/-- The location of a position: the lines that are complete before it, and the characters since the
    last of them. -/
def ofPosition (text : List Char) (n : Nat) : Location where
  line := 1 + (List.range n).countP (completesLine text)
  column := 1 + ((List.range n).reverse.takeWhile (!completesLine text ·)).length

/-- The location after one more character. -/
theorem ofPosition_succ {c : Char} (h : text[n]? = some c) :
    ofPosition text (n + 1) = (ofPosition text n).after c text[n + 1]? := by
  by_cases ends : c = '\n' ∨ (c = '\r' ∧ text[n + 1]? ≠ some '\n')
  · have completes : completesLine text n = true := by
      simp only [completesLine, h, Option.some.injEq]
      exact decide_eq_true ends
    rw [after, if_pos ends]
    simp [ofPosition, nextLine, List.range_succ, completes, Nat.add_assoc]
  · have goesOn : completesLine text n = false := by
      simp only [completesLine, h, Option.some.injEq]
      exact decide_eq_false ends
    rw [after, if_neg ends]
    simp [ofPosition, right, List.range_succ, goesOn, Nat.add_comm]

/-- A later position has a greater location. -/
theorem ofPosition_strictMonoOn (text : List Char) :
    StrictMonoOn (ofPosition text) (Set.Iic text.length) := by
  intro m _ n few less
  induction n with
  | zero => exact absurd less (Nat.not_lt_zero m)
  | succ n ih =>
    have next : ofPosition text n < ofPosition text (n + 1) := by
      rw [ofPosition_succ (List.getElem?_eq_getElem few)]
      exact lt_after _ _ _
    rcases Nat.lt_succ_iff_lt_or_eq.1 less with before | same
    · exact lt_trans (ih (Nat.le_of_succ_le few) before) next
    · rw [same]
      exact next

end Location

namespace Reader

variable {text : List Char} {r r' : Reader}

/-! ## Places of a text -/

theorem Reaches.rest_eq (h : (ofText text).Reaches r) : r.rest = text.drop r.position := by
  obtain ⟨n, -, rfl, position⟩ := h.exists_position
  rw [rest_skipMany, position]
  simp [ofText]

theorem Reaches.peek_eq (h : (ofText text).Reaches r) : r.peek = text[r.position]? := by
  rw [peek, h.rest_eq, List.head?_drop]

theorem Reaches.position_le_length (h : (ofText text).Reaches r) : r.position ≤ text.length := by
  obtain ⟨n, few, -, position⟩ := h.exists_position
  simp only [ofText] at few position
  omega

/-- The text between two places is a slice of the source. -/
theorem Reaches.textTo_eq_sliceText (h : (ofText text).Reaches r) (r' : Reader) :
    r.textTo r' = sliceText text r.position r'.position := by
  rw [textTo, h.rest_eq, sliceText, List.drop_take]

/-- However a place was reached, its location is the one of its position. -/
theorem Reaches.location_eq (h : (ofText text).Reaches r) :
    r.location = .ofPosition text r.position := by
  obtain ⟨n, few, rfl, position⟩ := h.exists_position
  rw [position]
  clear h position
  induction n with
  | zero => rfl
  | succ n ih =>
    have inside : n < text.length := few
    have rest : (skipMany n (ofText text)).rest = text[n] :: text.drop (n + 1) := by
      rw [rest_skipMany]
      exact List.drop_eq_getElem_cons inside
    rw [skipMany_add]
    change (skipMany n (ofText text)).skip.location = _
    rw [skip_of_cons rest, ih (Nat.le_of_lt inside), List.head?_drop]
    simp only [ofText, Nat.zero_add]
    exact (Location.ofPosition_succ (List.getElem?_eq_getElem inside)).symm

/-! ## Operations -/

/-- What can be done with a reader. -/
inductive Operation where
  /-- Read a character. -/
  | read
  /-- Read a character if it is the given one. -/
  | eat (c : Char)
  /-- Read a text if it is the given one. -/
  | eatText (word : List Char)
  /-- Read the characters of a class. -/
  | readWhile (p : Char → Bool)
  /-- Complete the line end whose first character was read. -/
  | finishLineEnd (c : Char)
  /-- Read up to and including the next line end. -/
  | readLine

/-- What an operation answers. -/
inductive Reply where
  /-- The character that was read, if there was one. -/
  | character (c : Option Char)
  /-- Whether there was something to do. -/
  | success (done : Bool)
  /-- The text that was read. -/
  | text (chars : List Char)

namespace Operation

/-- The reply of an operation that may fail, and where the reader is then. -/
def attempt (r : Reader) : Option Reader → Reply × Reader
  | some r' => (.success true, r')
  | none => (.success false, r)

/-- The reply of an operation, and where the reader is then. -/
def perform (r : Reader) : Operation → Reply × Reader
  | read =>
    match r.read? with
    | some (c, r') => (.character (some c), r')
    | none => (.character none, r)
  | eat c => attempt r (r.eat? c)
  | eatText word => attempt r (r.eatText? word)
  | readWhile p => (.text (r.readWhile p).1, (r.readWhile p).2)
  | finishLineEnd c => attempt r (r.finishLineEnd? c)
  | readLine => (.text r.readLine.1, r.readLine.2)

/-- Where the reader is after some operations, one after the other. -/
def performAll (r : Reader) (operations : List Operation) : Reader :=
  operations.foldl (fun r operation => (operation.perform r).2) r

/-- What ends a line, by the character after it: a whole line end, or the end of the text. -/
inductive EndsLine (following : Option Char) : List Char → Prop
  | feed : EndsLine following ['\n']
  | pair : EndsLine following ['\r', '\n']
  | lone (alone : following ≠ some '\n') : EndsLine following ['\r']
  | over (done : following = none) : EndsLine following []

/-- What an operation does at a place of a text: which characters it takes, and its reply. -/
inductive Does (text : List Char) (r : Reader) : Operation → Reply × Reader → Prop
  | read {c : Char} {r' : Reader} (next : text[r.position]? = some c)
    (position : r'.position = r.position + 1) : Does text r .read (.character (some c), r')
  | readNothing (done : r.position = text.length) : Does text r .read (.character none, r)
  | eat {c : Char} {r' : Reader} (next : text[r.position]? = some c)
    (position : r'.position = r.position + 1) : Does text r (.eat c) (.success true, r')
  | eatNothing {c : Char} (other : text[r.position]? ≠ some c) :
    Does text r (.eat c) (.success false, r)
  | eatText {word : List Char} {r' : Reader}
    (consumed : sliceText text r.position r'.position = word)
    (position : r'.position = r.position + word.length) :
    Does text r (.eatText word) (.success true, r')
  | eatNoText {word : List Char} (other : ¬word <+: text.drop r.position) :
    Does text r (.eatText word) (.success false, r)
  | readWhile {p : Char → Bool} {r' : Reader}
    (all : ∀ c ∈ sliceText text r.position r'.position, p c = true)
    (stops : ∀ c, text[r'.position]? = some c → p c = false) :
    Does text r (.readWhile p) (.text (sliceText text r.position r'.position), r')
  | finishPair {r' : Reader} (feed : text[r.position]? = some '\n')
    (position : r'.position = r.position + 1) :
    Does text r (.finishLineEnd '\r') (.success true, r')
  | finished {c : Char} (complete : c = '\n' ∨ (c = '\r' ∧ text[r.position]? ≠ some '\n')) :
    Does text r (.finishLineEnd c) (.success true, r)
  | finishNothing {c : Char} (inline : Text.isLineEnd c = false) :
    Does text r (.finishLineEnd c) (.success false, r)
  | readLine {line ending : List Char} {r' : Reader}
    (consumed : sliceText text r.position r'.position = line ++ ending)
    (inline : ∀ c ∈ line, Text.isLineEnd c = false)
    (ends : EndsLine text[r'.position]? ending) : Does text r .readLine (.text line, r')

variable {p : Char → Bool} {c : Char}

/-- Where a line ends, and what is skipped there. -/
theorem endsLine_skipLineEnd (stops : r.peekIs (!Text.isLineEnd ·) = false) :
    ∃ ending, r.rest = ending ++ r.skipLineEnd.rest ∧ EndsLine r.skipLineEnd.peek ending := by
  cases ahead : r.peek with
  | none =>
    have done : r.rest = [] := List.head?_eq_none_iff.1 ahead
    have stays : r.skipLineEnd = r := by simp [skipLineEnd, read?, done]
    rw [stays]
    exact ⟨[], rfl, .over ahead⟩
  | some c =>
    have text := rest_of_peek ahead
    have read := read?_of_peek ahead
    have lineEnd : Text.isLineEnd c = true := by simpa [peekIs, ahead] using stops
    rcases (by simpa [Text.isLineEnd] using lineEnd : c = '\n' ∨ c = '\r') with rfl | rfl
    · have skips : r.skipLineEnd = r.skip := by simp [skipLineEnd, read, finishLineEnd?]
      rw [skips]
      exact ⟨['\n'], text, .feed⟩
    · by_cases second : r.skip.peek = some '\n'
      · have skips : r.skipLineEnd = r.skip.skip := by
          simp [skipLineEnd, read, finishLineEnd?, eatOptional, eat?, second]
        rw [skips]
        exact ⟨['\r', '\n'], by rw [text, rest_of_peek second]; rfl, .pair⟩
      · have skips : r.skipLineEnd = r.skip := by
          simp [skipLineEnd, read, finishLineEnd?, eatOptional, eat?, second]
        rw [skips]
        exact ⟨['\r'], text, .lone second⟩

section Effects

variable (h : (ofText text).Reaches r)
include h

theorem does_read : Does text r .read (perform r .read) := by
  cases ahead : r.peek with
  | none =>
    have done : r.rest = [] := List.head?_eq_none_iff.1 ahead
    simp only [perform, read?, done]
    exact .readNothing (h.position_of_done done)
  | some c =>
    simp only [perform, read?_of_peek ahead]
    exact .read (by rw [← h.peek_eq, ahead]) (position_skip_of_peek ahead)

theorem does_eat (c : Char) : Does text r (.eat c) (perform r (.eat c)) := by
  by_cases ahead : r.peek = some c
  · simp only [perform, eat?, if_pos ahead, attempt]
    exact .eat (by rw [← h.peek_eq, ahead]) (position_skip_of_peek ahead)
  · simp only [perform, eat?, if_neg ahead, attempt]
    exact .eatNothing (by rw [← h.peek_eq]; exact ahead)

theorem does_eatText (word : List Char) :
    Does text r (.eatText word) (perform r (.eatText word)) := by
  by_cases spelled : word.isPrefixOf r.rest = true
  · have there : word <+: r.rest := List.isPrefixOf_iff_prefix.1 spelled
    have position := position_skipMany there.length_le
    simp only [perform, eatText?, if_pos spelled, attempt]
    refine .eatText ?_ position
    rw [← h.textTo_eq_sliceText, textTo, position, Nat.add_sub_cancel_left]
    exact (List.prefix_iff_eq_take.1 there).symm
  · simp only [perform, eatText?, if_neg spelled, attempt]
    refine .eatNoText ?_
    rw [← h.rest_eq, ← List.isPrefixOf_iff_prefix]
    exact spelled

theorem does_readWhile (p : Char → Bool) :
    Does text r (.readWhile p) (perform r (.readWhile p)) := by
  have later := h.trans (r.reaches_skipWhile p)
  simp only [perform, readWhile_eq, h.textTo_eq_sliceText]
  refine .readWhile ?_ ?_
  · rw [← h.textTo_eq_sliceText]
    exact (Over.skipWhile p r).forall_textTo
  · intro c next
    have stops := peek_skipWhile p r
    rw [peekIs, later.peek_eq, next] at stops
    exact stops

theorem does_finishLineEnd (c : Char) :
    Does text r (.finishLineEnd c) (perform r (.finishLineEnd c)) := by
  by_cases ret : c = '\r'
  · subst ret
    by_cases feed : r.peek = some '\n'
    · simp only [perform, finishLineEnd?, eatOptional, eat?, if_pos feed, if_true, attempt,
        Option.getD_some]
      exact .finishPair (by rw [← h.peek_eq, feed]) (position_skip_of_peek feed)
    · simp only [perform, finishLineEnd?, eatOptional, eat?, if_neg feed, if_true, attempt,
        Option.getD_none]
      exact .finished (.inr ⟨rfl, by rw [← h.peek_eq]; exact feed⟩)
  · by_cases feed : c = '\n'
    · simp only [perform, finishLineEnd?, if_neg ret, if_pos feed, attempt]
      exact .finished (.inl feed)
    · simp only [perform, finishLineEnd?, if_neg ret, if_neg feed, attempt]
      exact .finishNothing (by simp [Text.isLineEnd, ret, feed])

theorem does_readLine : Does text r .readLine (perform r .readLine) := by
  have stop := r.reaches_skipWhile (!Text.isLineEnd ·)
  have later := reaches_skipLineEnd (r.skipWhile (!Text.isLineEnd ·))
  obtain ⟨ending, rest, ends⟩ := endsLine_skipLineEnd (peek_skipWhile (!Text.isLineEnd ·) r)
  rw [(h.trans (stop.trans later)).peek_eq] at ends
  simp only [perform, readLine_eq]
  refine .readLine ?_ ?_ ends
  · rw [← h.textTo_eq_sliceText]
    refine (stop.trans later).textTo_eq ?_
    rw [List.append_assoc, ← rest]
    exact stop.textTo_append.symm
  · intro c hc
    simpa using (Over.skipWhile _ r).forall_textTo c hc

/-- Every operation does what it is said to do. -/
theorem does_perform (operation : Operation) : operation.Does text r (operation.perform r) := by
  cases operation with
  | read => exact does_read h
  | eat c => exact does_eat h c
  | eatText word => exact does_eatText h word
  | readWhile p => exact does_readWhile h p
  | finishLineEnd c => exact does_finishLineEnd h c
  | readLine => exact does_readLine h

end Effects

theorem reaches_attempt {next : Option Reader} (h : ∀ r', next = some r' → r.Reaches r') :
    r.Reaches (attempt r next).2 := by
  cases next with
  | none => exact .refl r
  | some r' => exact h r' rfl

/-- An operation leads to the same place or to a later one. -/
theorem reaches_perform (r : Reader) (operation : Operation) :
    r.Reaches (operation.perform r).2 := by
  cases operation with
  | read =>
    cases read : r.read? with
    | none => simpa only [perform, read] using .refl r
    | some next =>
      simp only [perform, read]
      rw [skip_eq_of_read? read]
      exact r.reaches_skip
  | eat c => exact reaches_attempt fun _ => reaches_of_eat?
  | eatText word => exact reaches_attempt fun _ => reaches_of_eatText?
  | readWhile p => exact r.reaches_readWhile p
  | finishLineEnd c => exact reaches_attempt fun _ => reaches_of_finishLineEnd?
  | readLine => exact r.reaches_readLine

theorem reaches_performAll (r : Reader) (operations : List Operation) :
    r.Reaches (performAll r operations) := by
  induction operations generalizing r with
  | nil => exact .refl r
  | cons operation operations ih => exact (reaches_perform r operation).trans (ih _)

/-- **The location of a reader is a function of its position.** Whatever operations a text is read
    with, the reader stands at a position of the text with the rest of the text ahead, and its
    location is the one of that position: the lines that are complete before it, and the characters
    since the last of them. Later positions have greater locations. From there every operation takes
    the characters and gives the reply that it should, and in particular stays where it is when
    there is nothing to do. -/
theorem location_of_position (text : List Char) (operations : List Operation) :
    let r := performAll (ofText text) operations
    (r.position ≤ text.length ∧ r.rest = text.drop r.position
        ∧ r.location = .ofPosition text r.position)
      ∧ StrictMonoOn (Location.ofPosition text) (Set.Iic text.length)
      ∧ ∀ operation : Operation, r.position ≤ (operation.perform r).2.position
        ∧ operation.Does text r (operation.perform r) := by
  intro r
  have reaches : (ofText text).Reaches r := reaches_performAll _ operations
  refine ⟨⟨reaches.position_le_length, reaches.rest_eq, reaches.location_eq⟩,
    Location.ofPosition_strictMonoOn text, fun operation => ⟨?_, does_perform reaches operation⟩⟩
  exact (reaches_perform r operation).position_le

/-- A line that is read at once, and one whose line end is completed by a step of its own. -/
example :
    let text := ofText ['a', '\r', '\n', 'b']
    performAll text [.read, .read, .finishLineEnd '\r'] = performAll text [.readLine]
      ∧ (performAll text [.readLine]).location = ⟨2, 1⟩ := by decide

end Operation

end Reader

end BasicLexis
