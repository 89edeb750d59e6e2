import BasicLexis.Proofs.Classifier.Moves

set_option autoImplicit false

/-! # Nobody reads the notes

Each region has a note of where its latest expression started. The classifier writes these notes and
never reads them: without the notes (`unnoted`), every operation of the stack does the same. So two
classifiers that differ in their notes only give the same answers and record the same errors, and
differ in their notes only afterwards (`inform_none_of_unnoted_eq`). -/

namespace BasicLexis.Classifier

/-- The same state without the notes of where expressions started. -/
def unnoted (c : Classifier) : Classifier :=
  { c with blocks := c.blocks.map fun b => { context := b.context } }

theorem unnoted_unnoted (c : Classifier) : c.unnoted.unnoted = c.unnoted := by
  simp [unnoted]

/-- States with the same regions that are the same otherwise differ in their notes only. -/
theorem unnoted_eq {c c' : Classifier} {blocks : List Block} (h : c' = { c with blocks })
    (contexts : blocks.map Block.context = c.blocks.map Block.context) :
    c'.unnoted = c.unnoted := by
  have bare : blocks.map (fun b => ({ context := b.context } : Block))
      = c.blocks.map fun b => { context := b.context } := by
    have mapped := congrArg (List.map fun context => ({ context } : Block)) contexts
    rwa [List.map_map, List.map_map] at mapped
  rw [h, unnoted, unnoted, bare]

/-! ## The operations of the stack -/

theorem context_unnoted (c : Classifier) : c.unnoted.context = c.context := by
  unfold context unnoted
  cases c.blocks <;> rfl

theorem record_unnoted (c : Classifier) (e : ClassifierError) :
    c.unnoted.record e = (c.record e).unnoted := by
  unfold record
  split
  · next room => rw [if_pos (show c.errors.size < _ from room)]; rfl
  · next full => rw [if_neg (show ¬c.errors.size < _ from full)]

theorem recordMisplaced_unnoted (c : Classifier) (t : Token) :
    c.unnoted.recordMisplaced t = (c.recordMisplaced t).unnoted := by
  rw [recordMisplaced, context_unnoted, record_unnoted, recordMisplaced]

theorem recordLimit_unnoted (c : Classifier) (found : TokenKind) :
    c.unnoted.recordLimit found = (c.recordLimit found).unnoted := by
  rw [recordLimit, context_unnoted, record_unnoted, recordLimit]
  rfl

theorem push_unnoted (c : Classifier) (f : Frame) :
    c.unnoted.push f = ((c.push f).1.unnoted, (c.push f).2) := by
  unfold push
  split
  · next full =>
    rw [if_pos (show _ ≤ c.stack.length from full), recordLimit_unnoted]
  · next room =>
    rw [if_neg (show ¬_ ≤ c.stack.length from room)]
    cases f.context? <;> rfl

theorem discard_unnoted (c : Classifier) (f : Frame) :
    c.unnoted.discard f = (c.discard f).unnoted := by
  unfold discard
  split
  · simp [unnoted, List.map_tail]
  · rfl

theorem apply_unnoted (c : Classifier) (f : Frame) (action : Action) :
    c.unnoted.apply f action = ((c.apply f action).1.unnoted, (c.apply f action).2) :=
  apply_of_commutes (fun _ _ => rfl) discard_unnoted push_unnoted c f action

theorem announce_unnoted (c : Classifier) (signal : Option Signal) :
    c.unnoted.announce signal = (c.announce signal).unnoted := by
  unfold announce
  split <;> rfl

theorem unnoted_noteExpression (c : Classifier) (l : Location) :
    (c.noteExpression l).unnoted = c.unnoted := by
  unfold noteExpression
  split
  · next blocks => simp [unnoted, blocks]
  · rfl

/-- An outcome that starts an expression is the only one to leave a note. -/
theorem unnoted_perform (c : Classifier) (t : Token) (o : Outcome) :
    (c.unnoted.perform t o).1.unnoted = (c.perform t o).1.unnoted
      ∧ (c.unnoted.perform t o).2 = (c.perform t o).2 := by
  have noted (c : Classifier) :
      (if o.startsExpression then c.noteExpression t.start else c).unnoted = c.unnoted := by
    split
    · exact unnoted_noteExpression c t.start
    · rfl
  have performed (c : Classifier) :
      (c.perform t o).1.unnoted
          = (((if o.misplaced then c.unnoted.recordMisplaced t else c.unnoted).announce
              o.signal).apply o.frame o.action).1
        ∧ (c.perform t o).2
          = (((if o.misplaced then c.unnoted.recordMisplaced t else c.unnoted).announce
              o.signal).apply o.frame o.action).2 := by
    have same := noted c
    unfold perform
    generalize (if o.startsExpression then c.noteExpression t.start else c) = d at same
    rw [← same]
    have recorded : (if o.misplaced then d.unnoted.recordMisplaced t else d.unnoted)
        = (if o.misplaced then d.recordMisplaced t else d).unnoted := by
      split
      · exact recordMisplaced_unnoted d t
      · rfl
    rw [recorded, announce_unnoted, apply_unnoted]
    exact ⟨rfl, rfl⟩
  obtain ⟨state, accepted⟩ := performed c
  obtain ⟨state', accepted'⟩ := performed c.unnoted
  rw [unnoted_unnoted] at state' accepted'
  exact ⟨state'.trans state.symm, accepted'.trans accepted.symm⟩

theorem recover_unnoted (c : Classifier) (f : Frame) (kind : TokenKind) :
    recover c.unnoted f kind = ((recover c f kind).1.unnoted, (recover c f kind).2) := by
  obtain ⟨blocks, errors, last⟩ := recover_keeps c f kind
  have changed : recover c.unnoted f kind = _ :=
    recover_with c c.unnoted.blocks c.errors c.lastLocation f kind
  rw [changed, unnoted, unnoted, blocks, ← errors, ← last]

/-! ## Moves and calls -/

theorem unnoted_moveOnce (c : Classifier) (t : Token) :
    (c.unnoted.moveOnce t).1.unnoted = (c.moveOnce t).1.unnoted
      ∧ (c.unnoted.moveOnce t).2 = (c.moveOnce t).2 := by
  cases hs : c.stack with
  | nil =>
    have hs' : c.unnoted.stack = [] := hs
    rw [moveOnce, moveOnce, hs, hs']
    exact ⟨congrArg (fun c : Classifier => c.putBack .bottom) (unnoted_unnoted c), rfl⟩
  | cons f below =>
    have hs' : c.unnoted.stack = f :: below := hs
    obtain ⟨d, g, imposed, recovered, moved⟩ := moveOnce_of_stack t hs
    obtain ⟨d', g', imposed', recovered', moved'⟩ := moveOnce_of_stack t hs'
    have same := recover_unnoted { c with stack := below } f t.kind
    rw [recovered] at same
    cases recovered'.symm.trans same
    obtain ⟨state, accepted⟩ := unnoted_perform d t (imposed.getD (g.move t.kind))
    rw [moved, moved']
    exact ⟨state, by rw [accepted]⟩

theorem unnoted_offerToken (fuel : Nat) (c : Classifier) (t : Token) :
    (offerToken fuel c.unnoted t).state.unnoted = (offerToken fuel c t).state.unnoted
      ∧ (offerToken fuel c.unnoted t).hints = (offerToken fuel c t).hints := by
  induction fuel generalizing c with
  | zero =>
    refine ⟨?_, rfl⟩
    rw [offerToken, offerToken, recordLimit_unnoted, unnoted_unnoted]
  | succ fuel ih =>
    obtain ⟨state, passed⟩ := unnoted_moveOnce c t
    rw [offerToken_succ_moveOnce, offerToken_succ_moveOnce, passed]
    split
    · -- both go on from states that differ in their notes only
      obtain ⟨last, hints⟩ := ih (c.moveOnce t).1
      obtain ⟨last', hints'⟩ := ih (c.unnoted.moveOnce t).1
      rw [state] at last' hints'
      exact ⟨last'.symm.trans last, hints'.symm.trans hints⟩
    · exact ⟨state, rfl⟩

theorem settle_unnoted (fuel : Nat) (c : Classifier) :
    (settle fuel c.unnoted).state = (settle fuel c).state.unnoted
      ∧ (settle fuel c.unnoted).hints = (settle fuel c).hints := by
  induction fuel generalizing c with
  | zero => exact ⟨recordLimit_unnoted c .eof, rfl⟩
  | succ fuel ih =>
    have stack : c.unnoted.stack = c.stack := rfl
    rw [settle, settle, stack]
    split
    · exact ih (c.putBack .bottom)
    · next f below _ =>
      split
      · exact ⟨rfl, rfl⟩
      · next o _ =>
        have applied := apply_unnoted { c with stack := below } o.frame o.action
        have same : ({ c.unnoted with stack := below } : Classifier)
            = ({ c with stack := below } : Classifier).unnoted := rfl
        rw [same, applied]
        rcases apply { c with stack := below } o.frame o.action with ⟨moved, accepted⟩
        cases accepted with
        | true => exact ih moved
        | false => exact ⟨rfl, rfl⟩

/-- Two classifiers that differ in their notes only differ in their notes only after a walk, and
    give the same hints. -/
theorem offerToken_of_unnoted_eq {c c' : Classifier} (h : c.unnoted = c'.unnoted) (fuel : Nat)
    (t : Token) :
    (offerToken fuel c t).state.unnoted = (offerToken fuel c' t).state.unnoted := by
  rw [← (unnoted_offerToken fuel c t).1, h, (unnoted_offerToken fuel c' t).1]

theorem inform_none_of_unnoted_eq {c c' : Classifier} (h : c.unnoted = c'.unnoted) :
    (c.inform none).state.unnoted = (c'.inform none).state.unnoted
      ∧ (c.inform none).hints = (c'.inform none).hints := by
  obtain ⟨state, hints⟩ := settle_unnoted Limits.maxEpsilonSteps c
  obtain ⟨state', hints'⟩ := settle_unnoted Limits.maxEpsilonSteps c'
  rw [h] at state hints
  exact ⟨state.symm.trans state', hints.symm.trans hints'⟩

end BasicLexis.Classifier
