import BasicLexis.Proofs.Scanner.Steered
import BasicLexis.Proofs.Scanner.Twin

set_option autoImplicit false

/-! # How literals nest

The literals that are open form a stack, and a flag says whether the next piece belongs to the
innermost of them. The two are changed in several places, but only in a few ways. Before a piece,
a literal may be left, which has to be complete (`XmlMode.Leaves`). The piece itself changes the
innermost literal, opens a further one within the limit, or goes back to the innermost one from an
embedded expression (`XmlMode.Shifts`). So whatever steers the scanner, the stack stays within its
limit, no piece is read by the rules of XML without a literal that it belongs to, and the literals
around the innermost one wait unchanged for as long as it is open. -/

namespace BasicLexis

namespace XmlMode

variable {m m' m'' : XmlMode}

/-- The mode before a piece: it is as it was, or a literal was left in which no element, tag,
    comment or processing instruction is open. -/
inductive Leaves : XmlMode → XmlMode → Prop
  | stays (m : XmlMode) : Leaves m m
  | closes {f : MarkupFrame} (outer : List MarkupFrame) (level : f.level ≤ 0)
    (noTag : f.inTag = false) (noCloseTag : f.inCloseTag = false)
    (noComment : f.wasComment = false) (noInstruction : f.wasInstruction = false) :
    Leaves ⟨true, f :: outer⟩ ⟨false, outer⟩

/-- What a piece does to the mode. -/
inductive Shifts : XmlMode → XmlMode → Prop
  /-- Nothing. -/
  | keeps (m : XmlMode) : Shifts m m
  /-- It belongs to the innermost literal, and may begin an embedded expression. -/
  | within (f f' : MarkupFrame) (outer : List MarkupFrame) (active : Bool) :
    Shifts ⟨true, f :: outer⟩ ⟨active, f' :: outer⟩
  /-- It ends an embedded expression. -/
  | resumes (literals : List MarkupFrame) : Shifts ⟨false, literals⟩ ⟨!literals.isEmpty, literals⟩
  /-- It opens a literal. -/
  | opens (f : MarkupFrame) (active : Bool) {literals : List MarkupFrame}
    (room : literals.length < Limits.maxXmlNesting) :
    Shifts ⟨false, literals⟩ ⟨active, f :: literals⟩

/-- A literal is open if the next piece belongs to one, and no more literals than the limit are. -/
structure Nested (m : XmlMode) : Prop where
  proper : m.Proper
  few : m.literals.length ≤ Limits.maxXmlNesting

/-! ## What stays true -/

theorem Nested.leaves (h : m.Nested) (leaves : Leaves m m') : m'.Nested := by
  cases leaves with
  | stays => exact h
  | closes outer => exact ⟨nofun, Nat.le_of_succ_le h.few⟩

theorem Nested.shifts (h : m.Nested) (shifts : Shifts m m') : m'.Nested := by
  cases shifts with
  | keeps => exact h
  | within f f' outer => exact ⟨fun _ => List.cons_ne_nil _ _, h.few⟩
  | resumes literals => exact ⟨fun active => by simpa using active, h.few⟩
  | opens f active room => exact ⟨fun _ => List.cons_ne_nil _ _, room⟩

/-- Literals that are around the innermost one are among the others. -/
theorem suffix_of_around {f : MarkupFrame} {outer rest : List MarkupFrame}
    (around : outer <:+ f :: rest) (less : outer.length < (f :: rest).length) : outer <:+ rest := by
  rcases List.suffix_cons_iff.1 around with whole | inner
  · rw [whole] at less
    exact absurd less (Nat.lt_irrefl _)
  · exact inner

/-- A token does not change the literals that are around another one. -/
theorem suffix_of_shifts {outer : List MarkupFrame} (leaves : Leaves m m') (shifts : Shifts m' m'')
    (inside : outer.length < m.literals.length) (around : outer <:+ m.literals) :
    outer <:+ m''.literals := by
  cases leaves with
  | stays =>
    cases shifts with
    | keeps => exact around
    | within f f' rest => exact (suffix_of_around around inside).trans (List.suffix_cons f' rest)
    | resumes => exact around
    | opens f => exact around.trans (List.suffix_cons f _)
  | closes rest =>
    -- the literal that was left is not one of the others, and no other one is at hand
    have inner : outer <:+ rest := suffix_of_around around inside
    cases shifts with
    | keeps => exact inner
    | resumes => exact inner
    | opens f => exact inner.trans (List.suffix_cons f rest)

/-! ## Single pieces -/

theorem leaves_leave (m : XmlMode) : Leaves m m.leave := by
  by_cases complete : m.isComplete = true
  · obtain ⟨active, literals⟩ := m
    rw [leave, if_pos complete]
    simp only [isComplete, Bool.and_eq_true, Option.any_eq_true] at complete
    obtain ⟨rfl, f, first, done⟩ := complete
    cases literals with
    | nil => cases first
    | cons g outer =>
      cases first
      simp only [MarkupFrame.isComplete, Bool.and_eq_true, decide_eq_true_eq,
        Bool.not_eq_true'] at done
      obtain ⟨⟨⟨⟨level, noTag⟩, noCloseTag⟩, noComment⟩, noInstruction⟩ := done
      exact .closes outer level noTag noCloseTag noComment noInstruction
  · rw [leave, if_neg complete]
    exact .stays m

theorem Leaves.trans_inactive (h : Leaves m m') (outside : m'.active = false)
    (h' : Leaves m' m'') : Leaves m m'' := by
  cases h' with
  | stays => exact h
  | closes => cases outside

/-- A piece that is read by the rules of XML belongs to the innermost literal. -/
theorem shifts_read (h : m.Proper) (active : m.active = true) (c : Char) (start r : Reader) :
    Shifts m (m.read c start r).2 := by
  obtain ⟨flag, literals⟩ := m
  cases literals with
  | nil => exact absurd rfl (h active)
  | cons f outer =>
    obtain rfl : flag = true := active
    exact .within f _ outer _

theorem shifts_standard (outside : m.active = false) (s : Setting) (c : Char) (start r : Reader) :
    Shifts m (Piece.standard s m c start r).2 := by
  obtain ⟨flag, literals⟩ := m
  obtain rfl : flag = false := outside
  unfold Piece.standard
  split
  · exact .resumes literals
  split
  · split
    · next room => exact .opens _ _ room
    · exact .keeps _
  · exact .keeps _

theorem shifts_next (h : m.Proper) (s : Setting) (c : Char) (start r : Reader) :
    Shifts m (Piece.next s m c start r).2 := by
  unfold Piece.next
  split
  · next active => exact shifts_read h active c start r
  split
  · exact .keeps m
  · next outside _ => exact shifts_standard (Bool.eq_false_iff.2 outside) s c start r

end XmlMode

namespace Scanner

section Reading

variable {σ : Type} {s s' : Scanner σ}

/-- The next piece is to be read by the rules of XML, and there is no literal that it belongs
    to. -/
structure Astray (s : Scanner σ) : Prop where
  noSection : s.mode.trailing? s.reader = none
  more : s.reader.atEnd = false
  active : s.mode.leave.active = true
  none_ : s.mode.leave.literals = []

theorem not_astray (h : s.mode.Proper) : ¬s.Astray :=
  fun astray => h.leave astray.active astray.none_

/-- One piece. -/
theorem shifts_step {token : Option Token} (h : s.mode.Proper) (step : s.step = (token, s')) :
    ∃ m, XmlMode.Leaves s.mode m ∧ XmlMode.Shifts m s'.mode := by
  cases trailing : s.mode.trailing? s.reader with
  | some p =>
    rw [step_of_trailing trailing] at step
    cases step
    exact ⟨s.mode, .stays _, .keeps _⟩
  | none =>
    refine ⟨s.mode.leave, XmlMode.leaves_leave _, ?_⟩
    rw [step_of_leave trailing] at step
    cases ahead : s.reader.peek with
    | none =>
      rw [ahead] at step
      cases step
      exact .keeps _
    | some c =>
      rw [ahead] at step
      cases step
      exact XmlMode.shifts_next h.leave _ c _ _

/-- A piece without a token changes nothing, or leaves a literal. -/
theorem leaves_of_silent (silent : s.step = (none, s')) :
    XmlMode.Leaves s.mode s'.mode ∧ (s'.mode = s.mode ∨ s'.mode.active = false) := by
  have moved := modeStep_step silent
  generalize s'.mode = m at moved
  cases moved with
  | inside => exact ⟨.stays _, .inl rfl⟩
  | outside outside => exact ⟨XmlMode.leaves_leave _, .inr outside⟩

theorem proper_of_skips (h : s.mode.Proper) (skips : s.Skips s') : s'.mode.Proper := by
  induction skips with
  | refl => exact h
  | tail _ silent ih =>
    rcases (leaves_of_silent silent).2 with same | outside
    · rw [same]
      exact ih
    · exact fun active => by rw [outside] at active; cases active

/-- Reading up to the next token: at most one literal is left, and then the piece of the token does
    what it does. -/
theorem shifts_lex (s : Scanner σ) (h : s.mode.Proper) :
    ∃ m, XmlMode.Leaves s.mode m ∧ XmlMode.Shifts m s.lex.2.mode := by
  fun_induction lex s with
  | case1 s token s' step => exact shifts_step h step
  | case2 s s' step ih =>
    obtain ⟨m, leaves, shifts⟩ := ih (proper_of_skips h (.single step))
    obtain ⟨before, same | outside⟩ := leaves_of_silent step
    · rw [same] at leaves
      exact ⟨m, leaves, shifts⟩
    · exact ⟨m, before.trans_inactive outside leaves, shifts⟩

end Reading

variable {σ : Type} [Steering σ] {s : Scanner σ}

/-- One token. -/
theorem shifts_produce (h : s.mode.Proper) :
    ∃ m, XmlMode.Leaves s.mode m ∧ XmlMode.Shifts m s.produce.2.mode := by
  cases ended : s.ended with
  | some location =>
    rw [produce_eq_of_ended ended]
    exact ⟨s.mode, .stays _, .keeps _⟩
  | none =>
    cases waiting : s.queue with
    | cons t queue =>
      rw [produce_eq_of_cons ended waiting]
      exact ⟨s.mode, .stays _, .keeps _⟩
    | nil =>
      rw [produce_eq_of_nil ended waiting]
      exact shifts_lex s h

theorem nested_produce (h : s.mode.Nested) : s.produce.2.mode.Nested := by
  obtain ⟨m, leaves, shifts⟩ := shifts_produce h.proper
  exact (h.leaves leaves).shifts shifts

theorem nested_after (h : s.mode.Nested) (n : Nat) : (s.after n).mode.Nested := by
  induction n with
  | zero => exact h
  | succ n ih => exact nested_produce ih

/-- Literals do not change as long as there is another one inside them. -/
theorem suffix_after (h : s.mode.Nested) {outer : List MarkupFrame} {k : Nat}
    (inside : ∀ i < k, outer.length < (s.after i).mode.literals.length)
    (around : outer <:+ s.mode.literals) : outer <:+ (s.after k).mode.literals := by
  induction k with
  | zero => exact around
  | succ k ih =>
    have earlier := ih fun i hi => inside i (Nat.lt_succ_of_lt hi)
    obtain ⟨m, leaves, shifts⟩ := shifts_produce (nested_after h k).proper
    exact XmlMode.suffix_of_shifts leaves shifts (inside k (Nat.lt_succ_self k)) earlier

/-- **Literals nest.** Whatever steers the scanner, and however many tokens it has produced: if the
    next piece belongs to a literal, one is open; no more literals are open than the limit allows;
    the next token leaves a literal only if nothing is open in it, and apart from that changes the
    innermost literal only, or opens a further one; literals do not change as long as there is
    another one inside them; and whatever piece is read on the way to the next token, there is a
    literal for it if it is read by the rules of XML. -/
theorem literals_nest (steering : σ) (tags : List String) (source : List Char) (n : Nat) :
    let s : Scanner σ := (start steering tags source).after n
    (s.mode.active = true → s.mode.literals ≠ [])
      ∧ s.mode.literals.length ≤ Limits.maxXmlNesting
      ∧ (∃ m, XmlMode.Leaves s.mode m ∧ XmlMode.Shifts m s.produce.2.mode)
      ∧ (∀ (outer : List MarkupFrame) (k : Nat),
        (∀ i < k, outer.length < (s.after i).mode.literals.length) →
        outer <:+ s.mode.literals → outer <:+ (s.after k).mode.literals)
      ∧ ∀ s', s.Skips s' → ¬s'.Astray := by
  intro s
  have fresh : (start steering tags source).mode.Nested :=
    ⟨nofun, Nat.zero_le _⟩
  have nested : s.mode.Nested := nested_after fresh n
  refine ⟨nested.proper, nested.few, shifts_produce nested.proper, ?_, ?_⟩
  · intro outer k inside around
    exact suffix_after nested inside around
  · intro s' skips
    exact not_astray (proper_of_skips nested.proper skips)

/-- In `<a><%=<b c>`, the literal of `a` waits while the tag of `b` is read to its end, and the
    blank in the tag is read as a part of the literal. -/
theorem literals_nest_embedded :
    let s := (start (⟨{ xmlMayStart := true }⟩ : FixedHints) []
      ['<', 'a', '>', '<', '%', '=', '<', 'b', ' ', 'c', '>']).after 6
    (s.mode.active = true ∧ s.mode.literals ≠ [])
      ∧ ((∀ i < 3, s.mode.literals.tail.length < (s.after i).mode.literals.length)
        ∧ s.mode.literals.tail.length = 1
        ∧ s.mode.literals.tail <:+ (s.after 3).mode.literals)
      ∧ s.Skips s.step.2 ∧ ¬s.step.2.Astray := by
  intro s
  obtain ⟨proper, -, -, unchanged, straight⟩ := literals_nest
    (⟨{ xmlMayStart := true }⟩ : FixedHints) []
    ['<', 'a', '>', '<', '%', '=', '<', 'b', ' ', 'c', '>'] 6
  have active : s.mode.active = true := by decide +kernel
  have inside : ∀ i < 3, s.mode.literals.tail.length < (s.after i).mode.literals.length := by
    decide +kernel
  have silent : s.step.1 = none := by decide +kernel
  have skips : s.Skips s.step.2 := .single (Prod.ext silent rfl)
  exact ⟨⟨active, proper active⟩,
    ⟨inside, by decide +kernel, unchanged _ 3 inside (List.tail_suffix _)⟩,
    skips, straight _ skips⟩

end Scanner

end BasicLexis
