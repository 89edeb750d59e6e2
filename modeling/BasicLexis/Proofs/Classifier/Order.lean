import BasicLexis.Proofs.Classifier.Discipline

set_option autoImplicit false

/-! # Frames in good order

The discipline of the single productions is one of whole stacks: whatever is offered to the
classifier, each frame may stand on the one below it, the bottom frame and only that one is at the
bottom, the stack is no deeper than allowed, and the regions are those that the frames opened. A
move keeps this order (`Sound.move`), and so does a call (`Sound.offerToken`, `Sound.settle`). -/

namespace BasicLexis.Classifier

/-! ## Stacks -/

/-- Each frame may stand on the one below it, and the lowest one is the bottom. -/
def Stacked : List Frame → Prop
  | [] => False
  | [f] => f.isBottom = true
  | f :: g :: below => f.standsOn g = true ∧ Stacked (g :: below)

theorem standsOn_congr {f g host : Frame} (h : Alike f g) : g.standsOn host = f.standsOn host := by
  unfold Frame.standsOn
  rw [h.bottom, h.stopsWell, h.needsHost]

theorem rests_of_standsOn {f g : Frame} (h : f.standsOn g = true) : g.rests = true := by
  simp only [Frame.standsOn, Bool.and_eq_true] at h
  exact h.1.2

theorem hosts_of_standsOn {f g : Frame} (h : f.standsOn g = true) (hf : f.needsHost = true) :
    g.hosts = true := by
  simp only [Frame.standsOn, Bool.and_eq_true, hf, Bool.not_true, Bool.false_or] at h
  exact h.2

namespace Stacked

/-- A frame may be in a later state. -/
theorem alike {f g : Frame} {below : List Frame} (h : Stacked (f :: below)) (hg : Alike f g) :
    Stacked (g :: below) := by
  cases below with
  | nil => exact hg.bottom.trans h
  | cons host lower => exact ⟨(standsOn_congr hg).trans h.1, h.2⟩

/-- Below any frame but the bottom there is another, which is between two of its parts. -/
theorem below {f : Frame} {below : List Frame} (h : Stacked (f :: below))
    (hf : f.isBottom = false) :
    ∃ host lower, below = host :: lower ∧ f.standsOn host = true ∧ Stacked (host :: lower) := by
  cases below with
  | nil =>
    rw [Stacked, hf] at h
    cases h
  | cons host lower => exact ⟨host, lower, rfl, h.1, h.2⟩

/-- Another frame may take the place of the one on top. -/
theorem replace {f next : Frame} {below : List Frame} (h : Stacked (f :: below))
    (hf : f.isBottom = false) (hn : next.isBottom = false) (stops : next.stopsWell = true)
    (host : next.needsHost = true → f.needsHost = true) :
    ∃ g lower, below = g :: lower ∧ Stacked (g :: lower) ∧ next.standsOn g = true := by
  obtain ⟨g, lower, rfl, stands, rest⟩ := h.below hf
  refine ⟨g, lower, rfl, rest, ?_⟩
  have rests := rests_of_standsOn stands
  cases needs : next.needsHost with
  | false => simp [Frame.standsOn, hn, stops, rests, needs]
  | true =>
    have hosts := hosts_of_standsOn stands (host needs)
    simp [Frame.standsOn, hn, stops, rests, hosts]

end Stacked

/-! ## One move keeps the order of the frames -/

/-- The frames are in good order, and the regions are those that they opened. -/
structure Sound (c : Classifier) : Prop where
  stacked : Stacked c.stack
  depth : c.stack.length ≤ Limits.maxFrameDepth
  regions : c.blocks.map Block.context = c.stack.filterMap Frame.context?

namespace Sound

theorem exists_top {c : Classifier} (h : Sound c) : ∃ f below, c.stack = f :: below := by
  have stacked := h.stacked
  cases hs : c.stack with
  | nil =>
    rw [hs] at stacked
    cases stacked
  | cons f below => exact ⟨f, below, rfl⟩

theorem of_same {c c' : Classifier} (h : Sound c) (stack : c'.stack = c.stack)
    (regions : c'.blocks.map Block.context = c.blocks.map Block.context) : Sound c' := by
  obtain ⟨h₁, h₂, h₃⟩ := h
  exact ⟨by rw [stack]; exact h₁, by rw [stack]; exact h₂, by rw [stack, regions]; exact h₃⟩

theorem record {c : Classifier} (h : Sound c) (e : ClassifierError) : Sound (c.record e) := by
  refine h.of_same (stack_record c e) ?_
  unfold Classifier.record
  split <;> rfl

theorem push {c : Classifier} {f child : Frame} {below : List Frame} (h : Sound c)
    (hs : c.stack = f :: below) (stands : child.standsOn f = true) : Sound (c.push child).1 := by
  unfold Classifier.push
  split
  · exact h.record _
  · next room =>
    refine ⟨?_, ?_, ?_⟩
    · show Stacked (child :: c.stack)
      rw [hs]
      exact ⟨stands, hs ▸ h.stacked⟩
    · show c.stack.length + 1 ≤ Limits.maxFrameDepth
      omega
    · have regions := h.regions
      dsimp only
      cases context : child.context? with
      | none => simp [context, regions]
      | some region => simp [context, regions]

end Sound

/-- Before the frames are moved, only what is kept beside them changes. -/
theorem perform_eq_apply (c : Classifier) (t : Token) (o : Outcome) :
    ∃ c' : Classifier, c.perform t o = c'.apply o.frame o.action ∧ c'.stack = c.stack
      ∧ c'.blocks.map Block.context = c.blocks.map Block.context := by
  refine ⟨_, rfl, ?_, ?_⟩
  all_goals
    unfold announce recordMisplaced record noteExpression
    repeat' split
    all_goals first | rfl | simp_all

/-- The state whose frames are in good order once the frame taken off the stack is put back. -/
def SoundBelow (c : Classifier) (f : Frame) : Prop := Sound (c.putBack f)

namespace SoundBelow

theorem alike {c : Classifier} {f g : Frame} (h : SoundBelow c f) (hg : Alike f g) :
    SoundBelow c g := by
  refine ⟨h.stacked.alike hg, h.depth, ?_⟩
  have regions := h.regions
  simp only [putBack, List.filterMap_cons, hg.context] at regions ⊢
  exact regions

theorem discard {c : Classifier} {f : Frame} (h : SoundBelow c f) (hf : f.isBottom = false) :
    Sound (c.discard f) := by
  obtain ⟨stacked, depth, regions⟩ := h
  obtain ⟨host, lower, hbelow, -, rest⟩ := stacked.below hf
  simp only [putBack, List.filterMap_cons] at regions
  refine ⟨?_, ?_, ?_⟩
  · rw [stack_discard, hbelow]
    exact rest
  · rw [stack_discard]
    exact Nat.le_of_succ_le depth
  · rw [stack_discard]
    unfold Classifier.discard
    cases context : f.context? with
    | none => simpa [context] using regions
    | some region =>
      rw [context] at regions
      show c.blocks.tail.map Block.context = _
      rw [List.map_tail, regions]
      rfl

/-- Carrying out an orderly outcome keeps the frames in good order. -/
theorem apply {c : Classifier} {f : Frame} {o : Outcome} (h : SoundBelow c f)
    (ho : Orderly f o) : Sound (c.apply o.frame o.action).1 := by
  have kept := h.alike ho.alike
  have order := ho.inOrder
  simp only [Outcome.inOrder, Bool.and_eq_true] at order
  replace order := order.1
  unfold Classifier.apply
  cases action : o.action with
  | stay => exact kept
  | push child =>
    simp only [action, Bool.and_eq_true] at order
    exact Sound.push kept rfl order.1
  | pushBoth first second =>
    simp only [action, Bool.and_eq_true] at order
    have sound₁ : Sound ((c.putBack o.frame).push first).1 := Sound.push kept rfl order.1.1
    dsimp only
    split
    · next c' accepted =>
      have stack₁ := stack_push_of_accepted (congrArg Prod.snd accepted)
      rw [accepted] at stack₁
      rw [accepted] at sound₁
      exact Sound.push sound₁ stack₁ order.1.2
    · next refused => exact sound₁
  | pop =>
    simp only [action, Bool.not_eq_true'] at order
    exact kept.discard (ho.alike.bottom.trans order)
  | replace next =>
    simp only [action, Bool.and_eq_true, Bool.not_eq_true', Bool.or_eq_true] at order
    obtain ⟨⟨⟨⟨hf, hn⟩, stops⟩, -⟩, host⟩ := order
    have sound := kept.discard (ho.alike.bottom.trans hf)
    have host' : next.needsHost = true → f.needsHost = true := by
      intro needs
      rcases host with no | yes
      · rw [needs] at no
        cases no
      · exact yes
    obtain ⟨g, lower, hbelow, -, stands⟩ := h.stacked.replace hf hn stops host'
    have stack : (c.discard o.frame).stack = g :: lower := by
      rw [stack_discard]
      exact hbelow
    exact Sound.push sound stack stands

theorem perform {c : Classifier} {f : Frame} {o : Outcome} (t : Token) (h : SoundBelow c f)
    (ho : Orderly f o) : Sound (c.perform t o).1 := by
  obtain ⟨c', performed, stack, regions⟩ := perform_eq_apply c t o
  rw [performed]
  exact apply (Sound.of_same h (congrArg (f :: ·) stack) regions) ho

end SoundBelow

/-! ## Calls keep the order of the frames -/

/-- What recovery imposes on a frame keeps the discipline, and the frame itself at most starts a
    line anew. -/
theorem recover_orderly (c : Classifier) (f : Frame) (kind : TokenKind) :
    (recover c f kind).1.stack = c.stack ∧ (recover c f kind).1.blocks = c.blocks
      ∧ Alike f (recover c f kind).2.1
      ∧ ∀ o, (recover c f kind).2.2 = some o → Orderly (recover c f kind).2.1 o := by
  have self : Alike f f := ⟨rfl, rfl, rfl, rfl⟩
  have inner {g : Frame} (h : g ≠ .bottom) : g.isBottom = false := by
    cases g <;> first | rfl | exact absurd rfl h
  have popped {g : Frame} (h : g.isBottom = false) : Orderly g (.pop g) :=
    ⟨⟨rfl, rfl, rfl, rfl⟩, by simp [Outcome.inOrder, Outcome.pop, h]⟩
  have ended {g : Frame} (h : g.isBottom = false) : Orderly g (.consumePop g) :=
    ⟨⟨rfl, rfl, rfl, rfl⟩, by simp [Outcome.inOrder, Outcome.consumePop, h]⟩
  have stays {g : Frame} : Orderly g (.consume g) :=
    ⟨⟨rfl, rfl, rfl, rfl⟩, by simp [Outcome.inOrder, Outcome.consume]⟩
  have restarts : Alike f f.restartLine := by
    cases f with
    | declarations list => exact alike_declarations rfl
    | _ => exact ⟨rfl, rfl, rfl, rfl⟩
  unfold recover
  split
  · -- at the end of the source
    split
    · exact ⟨rfl, rfl, self, fun o h => by cases h; exact stays⟩
    · next hf => exact ⟨rfl, rfl, self, fun o h => by cases h; exact popped (inner hf)⟩
  · split
    · -- after a mismatched `End`
      split
      · exact ⟨rfl, rfl, self, fun o h => by cases h; exact stays⟩
      · next hf =>
        split
        · exact ⟨rfl, rfl, self, fun o h => by cases h; exact ended (inner hf)⟩
        · exact ⟨rfl, rfl, self, fun o h => by cases h; exact popped (inner hf)⟩
    · dsimp only
      split
      · -- after `Next` with several variables
        next c' outcome imposed =>
        split at imposed
        · split at imposed
          · cases imposed
            exact ⟨rfl, rfl, self, fun o h => by cases h; exact ⟨⟨rfl, rfl, rfl, rfl⟩, rfl⟩⟩
          · split at imposed
            · cases imposed
              exact ⟨rfl, rfl, self, fun o h => by cases h; exact popped rfl⟩
            · cases imposed
          · split at imposed
            · cases imposed
            · next noList =>
              cases imposed
              have hf : f.isBottom = false := inner (fun hb => noList (by rw [hb]; rfl))
              exact ⟨rfl, rfl, self, fun o h => by cases h; exact popped hf⟩
        · cases imposed
      · split
        · -- after the end of a statement
          split
          · exact ⟨rfl, rfl, restarts, fun o h => by cases h⟩
          · next noList =>
            have hf : f.isBottom = false := inner (fun hb => noList (by rw [hb]; rfl))
            exact ⟨rfl, rfl, self, fun o h => by cases h; exact popped hf⟩
        · exact ⟨rfl, rfl, self, fun o h => by cases h⟩

/-- One move of any classifier. -/
theorem offerToken_move (fuel : Nat) {c : Classifier} {f : Frame} {below : List Frame} (t : Token)
    (hs : c.stack = f :: below) :
    ∃ c' g o, recover { c with stack := below } f t.kind = (c', g, o)
      ∧ offerToken (fuel + 1) c t
        = (let p := c'.perform t (o.getD (g.move t.kind))
          if (o.getD (g.move t.kind)).consumed || !p.2 then { state := p.1 }
          else offerToken fuel p.1 t) := by
  refine ⟨_, _, _, rfl, ?_⟩
  rw [offerToken, hs]
  rfl

/-- One move of a classifier keeps its frames in good order. -/
theorem Sound.move {c : Classifier} {f : Frame} {below : List Frame} (t : Token) (h : Sound c)
    (hs : c.stack = f :: below) {c' : Classifier} {g : Frame} {o : Option Outcome}
    (hr : recover { c with stack := below } f t.kind = (c', g, o)) :
    Sound (c'.perform t (o.getD (g.move t.kind))).1 := by
  have whole : SoundBelow { c with stack := below } f := h.of_same hs.symm rfl
  obtain ⟨stack, blocks, alike, imposed⟩ := recover_orderly { c with stack := below } f t.kind
  rw [hr] at stack blocks alike imposed
  have whole' : SoundBelow c' g := by
    refine Sound.of_same (whole.alike alike) ?_ ?_
    · show g :: c'.stack = g :: below
      rw [stack]
    · show c'.blocks.map Block.context = c.blocks.map Block.context
      rw [blocks]
  cases o with
  | none => exact whole'.perform t (orderly_move g t.kind)
  | some o => exact whole'.perform t (imposed o rfl)

theorem Sound.offerToken {c : Classifier} (h : Sound c) (fuel : Nat) (t : Token) :
    Sound (Classifier.offerToken fuel c t).state := by
  induction fuel generalizing c with
  | zero => exact h.record _
  | succ fuel ih =>
    obtain ⟨f, below, hs⟩ := h.exists_top
    obtain ⟨c', g, o, hr, moved⟩ := offerToken_move fuel t hs
    have sound := h.move t hs hr
    rw [moved]
    dsimp only
    split
    · exact sound
    · exact ih sound

theorem Sound.settle {c : Classifier} (h : Sound c) (fuel : Nat) :
    Sound (Classifier.settle fuel c).state := by
  induction fuel generalizing c with
  | zero => exact h.record _
  | succ fuel ih =>
    obtain ⟨f, below, hs⟩ := h.exists_top
    rw [Classifier.settle, hs]
    dsimp only
    cases moves : f.epsilon? with
    | none => exact h
    | some o =>
      have whole : SoundBelow { c with stack := below } f := h.of_same hs.symm rfl
      have sound := whole.apply (orderly_epsilon? moves).1
      dsimp only
      split
      · next c' accepted =>
        rw [accepted] at sound
        exact ih sound
      · next c' refused =>
        rw [refused] at sound
        exact sound

end BasicLexis.Classifier
