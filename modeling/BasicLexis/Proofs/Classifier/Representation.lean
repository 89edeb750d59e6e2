import BasicLexis.Proofs.Classifier.Moves

set_option autoImplicit false

/-! # The shape of the classifier's state

Errors are only ever added, and no more than are kept. Together with the order of the frames
(`Sound`) and what may be pending between two calls (`Calm`) this is all that the parts of the state
owe each other: `represented_after_call` says so of every state that a new classifier can come to,
whatever it is told. -/

namespace BasicLexis.Classifier

/-! ## Errors are only added -/

/-- The second record of errors is the first one, possibly with others after them, but no more than
    are kept. -/
structure Grows (before after : Array ClassifierError) : Prop where
  added : ∃ new, after = before ++ new
  bounded : before.size ≤ Limits.maxRecordedErrors → after.size ≤ Limits.maxRecordedErrors

namespace Grows

theorem refl (errors : Array ClassifierError) : Grows errors errors :=
  ⟨⟨#[], by rw [Array.append_empty]⟩, id⟩

theorem trans {a b c : Array ClassifierError} (h : Grows a b) (h' : Grows b c) : Grows a c := by
  obtain ⟨first, rfl⟩ := h.added
  obtain ⟨second, rfl⟩ := h'.added
  exact ⟨⟨first ++ second, Array.append_assoc⟩, fun bounded => h'.bounded (h.bounded bounded)⟩

/-- A record without errors was without errors before. -/
theorem eq_empty {before after : Array ClassifierError} (h : Grows before after)
    (empty : after = #[]) : before = #[] := by
  obtain ⟨new, rfl⟩ := h.added
  exact (Array.append_eq_empty_iff.1 empty).1

theorem record (c : Classifier) (e : ClassifierError) : Grows c.errors (c.record e).errors := by
  unfold Classifier.record
  split
  · next room => exact ⟨⟨#[e], rfl⟩, fun _ => by rw [Array.size_push]; exact room⟩
  · exact refl _

theorem push (c : Classifier) (f : Frame) : Grows c.errors (c.push f).1.errors := by
  unfold Classifier.push
  split
  · exact record c _
  · exact refl _

theorem discard (c : Classifier) (f : Frame) : Grows c.errors (c.discard f).errors := by
  rw [(sameRecord_discard c f).errors]
  exact refl _

theorem apply (c : Classifier) (f : Frame) (action : Action) :
    Grows c.errors (c.apply f action).1.errors := by
  unfold Classifier.apply
  cases action with
  | stay => exact refl _
  | push child => exact push (c.putBack f) child
  | pop => exact discard c f
  | replace next => exact (discard c f).trans (push _ next)
  | pushBoth first second =>
    have first' := push (c.putBack f) first
    dsimp only
    split
    · next c' accepted =>
      rw [accepted] at first'
      exact first'.trans (push c' second)
    · exact first'

theorem perform (c : Classifier) (t : Token) (o : Outcome) :
    Grows c.errors (c.perform t o).1.errors := by
  have noted : Grows c.errors
      (if o.startsExpression then c.noteExpression t.start else c).errors := by
    split
    · rw [(sameRecord_noteExpression c t.start).errors]
      exact refl _
    · exact refl _
  have recorded (c : Classifier) :
      Grows c.errors (if o.misplaced then c.recordMisplaced t else c).errors := by
    split
    · exact record c _
    · exact refl _
  have announced (c : Classifier) : Grows c.errors (c.announce o.signal).errors := by
    unfold announce
    split <;> exact refl _
  exact (noted.trans (recorded _)).trans ((announced _).trans (apply _ _ _))

theorem moveOnce (c : Classifier) (t : Token) : Grows c.errors (c.moveOnce t).1.errors := by
  cases hs : c.stack with
  | nil =>
    rw [Classifier.moveOnce, hs]
    exact refl _
  | cons f below =>
    obtain ⟨c', g, imposed, hr, moved⟩ := moveOnce_of_stack t hs
    have same := (recover_keeps { c with stack := below } f t.kind).2.1
    rw [hr] at same
    rw [moved]
    have grown := perform c' t (imposed.getD (g.move t.kind))
    rwa [same] at grown

theorem offerToken (fuel : Nat) (c : Classifier) (t : Token) :
    Grows c.errors (offerToken fuel c t).state.errors := by
  induction fuel generalizing c with
  | zero => exact record c _
  | succ fuel ih =>
    rw [offerToken_succ_moveOnce]
    split
    · exact (moveOnce c t).trans (ih _)
    · exact moveOnce c t

theorem settle (fuel : Nat) (c : Classifier) :
    Grows c.errors (settle fuel c).state.errors := by
  induction fuel generalizing c with
  | zero => exact record c _
  | succ fuel ih =>
    rw [Classifier.settle]
    split
    · exact ih (c.putBack .bottom)
    · next f below hs =>
      split
      · exact refl _
      · next o moves =>
        have moved := apply { c with stack := below } o.frame o.action
        split
        · next c' accepted =>
          rw [accepted] at moved
          exact Grows.trans moved (ih c')
        · next c' refused =>
          rw [refused] at moved
          exact moved

theorem inform (c : Classifier) (call : Option Token) :
    Grows c.errors (c.inform call).state.errors := by
  cases call with
  | none => exact settle _ c
  | some t => exact offerToken _ { c with lastLocation := t.start } t

end Grows

/-! ## Without an error -/

theorem errors_record_ne (c : Classifier) (e : ClassifierError) : (c.record e).errors ≠ #[] := by
  unfold record
  split
  · exact Array.push_ne_empty
  · next full =>
    intro empty
    rw [empty] at full
    exact full (by decide)

/-- Without an error there was room for the frame. -/
theorem accepted_push {c : Classifier} {f : Frame} (clean : (c.push f).1.errors = #[]) :
    (c.push f).2 = true := by
  unfold push at clean ⊢
  split
  · next full =>
    rw [if_pos full] at clean
    exact absurd clean (errors_record_ne _ _)
  · rfl

theorem accepted_apply {c : Classifier} {f : Frame} {action : Action}
    (clean : (c.apply f action).1.errors = #[]) : (c.apply f action).2 = true := by
  unfold apply at clean ⊢
  cases action with
  | stay | pop => rfl
  | push child => exact accepted_push clean
  | replace next => exact accepted_push clean
  | pushBoth first second =>
    dsimp only at clean ⊢
    split
    · next c' accepted =>
      rw [accepted] at clean
      exact accepted_push clean
    · next refused =>
      rw [← Prod.eta (push _ first)] at clean refused
      split at clean
      · next c' accepted => exact (refused _ accepted).elim
      · exact accepted_push clean

/-- Without an error nothing was misplaced, and all frames found room. -/
theorem clean_perform {c : Classifier} {t : Token} {o : Outcome}
    (clean : (c.perform t o).1.errors = #[]) :
    o.misplaced = false ∧ (c.perform t o).1.stack = o.stackOn c.stack
      ∧ (c.perform t o).2 = true := by
  have accepted : (c.perform t o).2 = true := accepted_apply clean
  refine ⟨?_, stack_perform_of_accepted accepted, accepted⟩
  cases misplaced : o.misplaced with
  | false => rfl
  | true =>
    unfold perform at clean
    rw [misplaced] at clean
    dsimp only at clean
    have before := (Grows.apply _ o.frame o.action).eq_empty clean
    have announced (c : Classifier) : (c.announce o.signal).errors = c.errors := by
      unfold announce
      split <;> rfl
    rw [announced] at before
    exact absurd before (errors_record_ne _ _)

/-! ## The shape of the state -/

/-- The lowest frame of a stack in good order is the bottom, and no other frame is. -/
theorem Stacked.bottom_last {stack : List Frame} (h : Stacked stack) :
    ∃ upper, stack = upper ++ [.bottom] ∧ .bottom ∉ upper := by
  induction stack with
  | nil => exact h.elim
  | cons f below ih =>
    cases below with
    | nil =>
      cases f with
      | bottom => exact ⟨[], rfl, List.not_mem_nil⟩
      | _ => cases h
    | cons g lower =>
      obtain ⟨upper, stacked, inner⟩ := ih h.2
      refine ⟨f :: upper, by rw [stacked, List.cons_append], ?_⟩
      rw [List.mem_cons, not_or]
      refine ⟨?_, inner⟩
      rintro rfl
      cases h.1

theorem Reachable.errors_bounded {c : Classifier} (h : Reachable c) :
    c.errors.size ≤ Limits.maxRecordedErrors := by
  induction h with
  | new => exact Nat.zero_le _
  | inform call _ ih => exact (Grows.inform _ call).bounded ih

/-- **The state of the classifier is well formed after every call.** Whatever a new classifier was
    told, after any further call the bottom frame lies at the bottom of the stack and nowhere else;
    the stack is not empty and not too deep; the regions are, in order, those that the frames
    opened; no frame is left to be unwound; and the errors are those from before the call, possibly
    with others after them, and not too many. -/
theorem represented_after_call {c : Classifier} (h : Reachable c) (call : Option Token) :
    let c' := (c.inform call).state
    (∃ upper, c'.stack = upper ++ [.bottom] ∧ .bottom ∉ upper)
      ∧ 1 ≤ c'.depth ∧ c'.depth ≤ Limits.maxFrameDepth
      ∧ c'.blocks.map Block.context = c'.stack.filterMap Frame.context?
      ∧ c'.pendingEnd = none ∧ c'.endStatement = false
      ∧ (∃ added, c'.errors = c.errors ++ added)
      ∧ c'.errors.size ≤ Limits.maxRecordedErrors := by
  intro c'
  have after : Reachable c' := h.inform call
  obtain ⟨sound, calm⟩ := after.sound_and_calm
  obtain ⟨upper, stacked, inner⟩ := sound.stacked.bottom_last
  have depth : 1 ≤ c'.depth := by
    rw [depth, stacked, List.length_append]
    exact Nat.le_add_left _ _
  exact ⟨⟨upper, stacked, inner⟩, depth, sound.depth, sound.regions, calm.pendingEnd,
    calm.endStatement, (Grows.inform c call).added, after.errors_bounded⟩

/-- `End Class` in the body of a method closes no statement: it unwinds the method and the class. -/
theorem represented_after_call_unwinding :
    let c := (({} : Classifier).feed (spell [.keyword .Class, .identifier, .eol, .keyword .Sub,
      .identifier, .eol, .keyword .If, .identifier, .keyword .Then, .eol, .keyword .End])).state
    let c' := (c.inform (some (.symbol (.keyword .Class) .start .start))).state
    Reachable c ∧ c.depth = 6 ∧ c.blocks.length = 4 ∧ c'.depth = 2 ∧ c'.blocks.length = 1
      ∧ c'.blocks.map Block.context = c'.stack.filterMap Frame.context?
      ∧ c'.pendingEnd = none ∧ ∃ added, c'.errors = c.errors ++ added := by
  intro c c'
  have reachable : Reachable c := Reachable.new.feed _
  obtain ⟨-, -, -, regions, settled, -, added, -⟩ :=
    represented_after_call reachable (some (.symbol (.keyword .Class) .start .start))
  exact ⟨reachable, by decide +kernel, by decide +kernel, by decide +kernel, by decide +kernel,
    regions, settled, added⟩

end BasicLexis.Classifier
