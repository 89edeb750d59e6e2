import BasicLexis.Proofs.Classifier.Moves
import BasicLexis.Proofs.Scanner.Twin

set_option autoImplicit false

/-! # The classifier goes by the kinds of tokens

Locations are noted in errors and in the regions that are open, and the bound on the number of
errors decides which ones are kept. None of this has an effect on the stack: two classifiers with
the same stack and the same things pending, which are told tokens of the same kinds, give the same
hints. -/

namespace BasicLexis.Classifier

/-- The two classifiers make the same moves from now on. -/
structure SameCourse (c c' : Classifier) : Prop where
  stack : c'.stack = c.stack
  pendingEnd : c'.pendingEnd = c.pendingEnd
  pendingNext : c'.pendingNext = c.pendingNext
  endStatement : c'.endStatement = c.endStatement

/-- The two results make the same moves from now on, and neither or both frames were refused. -/
def SameResult (a a' : Classifier × Bool) : Prop := SameCourse a.1 a'.1 ∧ a'.2 = a.2

theorem SameResult.exists_eq {a a' : Classifier × Bool} (h : SameResult a a') :
    ∃ d d' accepted, a = (d, accepted) ∧ a' = (d', accepted) ∧ SameCourse d d' :=
  ⟨a.1, a'.1, a.2, rfl, Prod.ext rfl h.2, h.1⟩

/-- The two states impose the same on the same frame. -/
def SameImposed (a a' : Classifier × Frame × Option Outcome) : Prop :=
  SameCourse a.1 a'.1 ∧ a'.2 = a.2

namespace SameCourse

variable {c c' : Classifier}

theorem refl (c : Classifier) : SameCourse c c := ⟨rfl, rfl, rfl, rfl⟩

theorem symm (h : SameCourse c c') : SameCourse c' c :=
  ⟨h.stack.symm, h.pendingEnd.symm, h.pendingNext.symm, h.endStatement.symm⟩

theorem trans {c'' : Classifier} (h : SameCourse c c') (h' : SameCourse c' c'') :
    SameCourse c c'' :=
  ⟨h'.stack.trans h.stack, h'.pendingEnd.trans h.pendingEnd, h'.pendingNext.trans h.pendingNext,
    h'.endStatement.trans h.endStatement⟩

theorem of_record (c : Classifier) (e : ClassifierError) : SameCourse c (c.record e) := by
  unfold Classifier.record
  split
  · exact ⟨rfl, rfl, rfl, rfl⟩
  · exact .refl c

theorem of_noteExpression (c : Classifier) (l : Location) : SameCourse c (c.noteExpression l) := by
  unfold Classifier.noteExpression
  split <;> exact ⟨rfl, rfl, rfl, rfl⟩

theorem record (h : SameCourse c c') (e e' : ClassifierError) :
    SameCourse (c.record e) (c'.record e') :=
  ((of_record c e).symm.trans h).trans (of_record c' e')

theorem noteExpression (h : SameCourse c c') (l l' : Location) :
    SameCourse (c.noteExpression l) (c'.noteExpression l') :=
  ((of_noteExpression c l).symm.trans h).trans (of_noteExpression c' l')

theorem putBack (h : SameCourse c c') (f : Frame) : SameCourse (c.putBack f) (c'.putBack f) :=
  ⟨congrArg (f :: ·) h.stack, h.pendingEnd, h.pendingNext, h.endStatement⟩

theorem withStack (h : SameCourse c c') (stack : List Frame) :
    SameCourse { c with stack } { c' with stack } :=
  ⟨rfl, h.pendingEnd, h.pendingNext, h.endStatement⟩

theorem push (h : SameCourse c c') (f : Frame) : SameResult (c.push f) (c'.push f) := by
  unfold Classifier.push
  rw [h.stack]
  split
  · exact ⟨h.record _ _, rfl⟩
  · exact ⟨⟨rfl, h.pendingEnd, h.pendingNext, h.endStatement⟩, rfl⟩

theorem discard (h : SameCourse c c') (f : Frame) : SameCourse (c.discard f) (c'.discard f) := by
  unfold Classifier.discard
  split
  · exact ⟨h.stack, h.pendingEnd, h.pendingNext, h.endStatement⟩
  · exact h

theorem apply (h : SameCourse c c') (f : Frame) (action : Action) :
    SameResult (c.apply f action) (c'.apply f action) := by
  unfold Classifier.apply
  cases action with
  | stay => exact ⟨h.putBack f, rfl⟩
  | push child => exact (h.putBack f).push child
  | pop => exact ⟨h.discard f, rfl⟩
  | replace next => exact (h.discard f).push next
  | pushBoth first second =>
    obtain ⟨d, d', accepted, result, result', pushed⟩ := ((h.putBack f).push first).exists_eq
    dsimp only
    rw [result, result']
    cases accepted with
    | true => exact pushed.push second
    | false => exact ⟨pushed, rfl⟩

theorem announce (h : SameCourse c c') (signal : Option Signal) :
    SameCourse (c.announce signal) (c'.announce signal) := by
  cases signal with
  | none => exact h
  | some signal =>
    cases signal with
    | closesBlock word => exact ⟨h.stack, rfl, h.pendingNext, h.endStatement⟩
    | closesOuterLoop => exact ⟨h.stack, h.pendingEnd, rfl, h.endStatement⟩
    | endsStatement => exact ⟨h.stack, h.pendingEnd, h.pendingNext, rfl⟩

theorem perform (h : SameCourse c c') (t t' : Token) (o : Outcome) :
    SameResult (c.perform t o) (c'.perform t' o) := by
  unfold Classifier.perform
  have noted : SameCourse (if o.startsExpression then c.noteExpression t.start else c)
      (if o.startsExpression then c'.noteExpression t'.start else c') := by
    split
    · exact h.noteExpression _ _
    · exact h
  generalize (if o.startsExpression then c.noteExpression t.start else c) = d at noted ⊢
  generalize (if o.startsExpression then c'.noteExpression t'.start else c') = d' at noted ⊢
  dsimp only
  have recorded : SameCourse (if o.misplaced then d.recordMisplaced t else d)
      (if o.misplaced then d'.recordMisplaced t' else d') := by
    split
    · exact noted.record _ _
    · exact noted
  exact (recorded.announce o.signal).apply o.frame o.action

/-- States on the same course differ at most in what no operation of the stack looks at. -/
theorem eq_with (h : SameCourse c c') :
    c' = { c with blocks := c'.blocks, errors := c'.errors, lastLocation := c'.lastLocation } := by
  obtain ⟨stack, blocks, errors, pendingEnd, pendingNext, endStatement, last⟩ := c'
  obtain ⟨rfl, rfl, rfl, rfl⟩ := h
  rfl

/-- The state imposes the same on a frame, and leaves the same frame to decide otherwise. -/
theorem recover (h : SameCourse c c') (f : Frame) (kind : TokenKind) :
    SameImposed (recover c f kind) (Classifier.recover c' f kind) := by
  have imposed := recover_with c c'.blocks c'.errors c'.lastLocation f kind
  rw [← h.eq_with] at imposed
  rw [imposed]
  exact ⟨⟨rfl, rfl, rfl, rfl⟩, rfl⟩

/-- One move of the stack. -/
theorem moveOnce (h : SameCourse c c') {t t' : Token} (kind : t'.kind = t.kind) :
    SameResult (c.moveOnce t) (c'.moveOnce t') := by
  cases stack : c.stack with
  | nil =>
    have stack' : c'.stack = [] := h.stack.trans stack
    rw [Classifier.moveOnce, Classifier.moveOnce, stack, stack']
    exact ⟨h.putBack _, rfl⟩
  | cons f below =>
    have stack' : c'.stack = f :: below := h.stack.trans stack
    obtain ⟨d, g, imposed, recovered, moved⟩ := moveOnce_of_stack t stack
    obtain ⟨d', g', imposed', recovered', moved'⟩ := moveOnce_of_stack t' stack'
    have same := (h.withStack below).recover f t.kind
    rw [kind] at recovered' moved'
    rw [recovered, recovered'] at same
    obtain ⟨course, same⟩ := same
    cases same
    rw [moved, moved']
    have performed := course.perform t t' (imposed.getD (g.move t.kind))
    exact ⟨performed.1, by rw [performed.2]⟩

/-- The walks of two tokens of the same kind. -/
theorem offerToken (h : SameCourse c c') {t t' : Token} (kind : t'.kind = t.kind) (fuel : Nat) :
    (offerToken fuel c' t').hints = (offerToken fuel c t).hints
      ∧ SameCourse (Classifier.offerToken fuel c t).state
        (Classifier.offerToken fuel c' t').state := by
  induction fuel generalizing c c' with
  | zero => exact ⟨rfl, h.record _ _⟩
  | succ fuel ih =>
    have moved := h.moveOnce kind
    rw [offerToken_succ_moveOnce, offerToken_succ_moveOnce, moved.2]
    split
    · exact ih moved.1
    · exact ⟨rfl, moved.1⟩

/-- Two stacks come to rest alike. -/
theorem settle (h : SameCourse c c') (fuel : Nat) :
    (settle fuel c').hints = (settle fuel c).hints
      ∧ SameCourse (Classifier.settle fuel c).state (Classifier.settle fuel c').state := by
  induction fuel generalizing c c' with
  | zero => exact ⟨rfl, h.record _ _⟩
  | succ fuel ih =>
    unfold Classifier.settle
    rw [h.stack]
    split
    · exact ih (h.putBack _)
    · next f below _ =>
      split
      · exact ⟨rfl, h⟩
      · next o _ =>
        obtain ⟨d, d', accepted, result, result', applied⟩ :=
          ((h.withStack below).apply o.frame o.action).exists_eq
        rw [result, result']
        cases accepted with
        | true => exact ih applied
        | false => exact ⟨rfl, applied⟩

theorem inform (h : SameCourse c c') {t t' : Option Token}
    (kind : t'.map Token.kind = t.map Token.kind) :
    (c'.inform t').hints = (c.inform t).hints
      ∧ SameCourse (c.inform t).state (c'.inform t').state := by
  cases t with
  | none =>
    rw [Option.map_none, Option.map_eq_none_iff] at kind
    rw [kind]
    exact h.settle _
  | some t =>
    rw [Option.map_some] at kind
    obtain ⟨t', rfl, same⟩ := Option.map_eq_some_iff.1 kind
    have told :
        SameCourse { c with lastLocation := t.start } { c' with lastLocation := t'.start } :=
      ⟨h.stack, h.pendingEnd, h.pendingNext, h.endStatement⟩
    exact told.offerToken same _

end SameCourse

/-- The hints of the classifier depend only on the kinds of the tokens that it is told. -/
theorem byKind (c : Classifier) : Steering.ByKind c :=
  Steering.alike_of_bisimulation (fun h kind => h.inform kind) (SameCourse.refl c)

end BasicLexis.Classifier
