import BasicLexis.Proofs.Classifier.Order

set_option autoImplicit false

/-! # Nothing is left pending

What a frame announces to the frames below is settled before the token is used up. A mismatched
`End` unwinds the stack down to the frame that it closes, or to the bottom; the end of a statement
unwinds it to the nearest list; both take at most as many moves as there are frames. Only `Next`
with several variables leaves something to the following token, and then a frame that statements
stand on is on top, between two of its parts.

`Reachable.sound_and_calm` says so of every state that a new classifier can come to. A frame that
waits for an operand, or for the first token of a statement, is therefore never on top while
anything is pending (`Reachable.quiet`). -/

namespace BasicLexis.Classifier

/-! ## What is pending after a move -/

/-- The same is pending in two states. -/
structure SamePending (c c' : Classifier) : Prop where
  pendingEnd : c'.pendingEnd = c.pendingEnd
  pendingNext : c'.pendingNext = c.pendingNext
  endStatement : c'.endStatement = c.endStatement

namespace SamePending

theorem trans {a b c : Classifier} (h : SamePending a b) (h' : SamePending b c) :
    SamePending a c :=
  ⟨h'.1.trans h.1, h'.2.trans h.2, h'.3.trans h.3⟩

theorem quiet {c c' : Classifier} (h : SamePending c c') (hc : Quiet c) : Quiet c' :=
  ⟨h.1.trans hc.1, h.2.trans hc.2, h.3.trans hc.3⟩

theorem record (c : Classifier) (e : ClassifierError) : SamePending c (c.record e) := by
  unfold Classifier.record
  split <;> exact ⟨rfl, rfl, rfl⟩

theorem push (c : Classifier) (f : Frame) : SamePending c (c.push f).1 := by
  unfold Classifier.push
  split
  · exact record c _
  · exact ⟨rfl, rfl, rfl⟩

theorem discard (c : Classifier) (f : Frame) : SamePending c (c.discard f) := by
  unfold Classifier.discard
  split <;> exact ⟨rfl, rfl, rfl⟩

/-- Moving frames changes nothing of what is pending. -/
theorem apply (c : Classifier) (f : Frame) (action : Action) :
    SamePending c (c.apply f action).1 := by
  have putBack : SamePending c (c.putBack f) := ⟨rfl, rfl, rfl⟩
  unfold Classifier.apply
  cases action with
  | stay => exact putBack
  | push child => exact putBack.trans (push _ child)
  | pop => exact discard c f
  | replace next => exact (discard c f).trans (push _ next)
  | pushBoth first second =>
    have first' := putBack.trans (push (c.putBack f) first)
    dsimp only
    split
    · next c' accepted =>
      rw [accepted] at first'
      exact first'.trans (push c' second)
    · exact first'

/-- Only announcements change what is pending. -/
theorem perform (c : Classifier) (t : Token) (o : Outcome) :
    SamePending (c.announce o.signal) (c.perform t o).1 := by
  have announced {c c' : Classifier} (h : SamePending c c') :
      SamePending (c.announce o.signal) (c'.announce o.signal) := by
    unfold announce
    split
    · exact ⟨rfl, h.2, h.3⟩
    · exact ⟨h.1, rfl, h.3⟩
    · exact ⟨h.1, h.2, rfl⟩
    · exact h
  have noted : SamePending c (if o.startsExpression then c.noteExpression t.start else c) := by
    split
    · have same := sameRecord_noteExpression c t.start
      exact ⟨same.pendingEnd, same.pendingNext, same.endStatement⟩
    · exact ⟨rfl, rfl, rfl⟩
  have recorded (c : Classifier) :
      SamePending c (if o.misplaced then c.recordMisplaced t else c) := by
    split
    · exact record c _
    · exact ⟨rfl, rfl, rfl⟩
  exact (announced (noted.trans (recorded _))).trans (apply _ _ _)

end SamePending

/-- The frame on top after an outcome that passes the token on announces nothing with it. -/
theorem silent_of_passed {c : Classifier} {f : Frame} {o : Outcome} {t : Token}
    (h : SoundBelow c f) (ho : Orderly f o) (passed : o.consumed = false)
    (accepted : (c.perform t o).2 = true) :
    ∃ g lower, (c.perform t o).1.stack = g :: lower ∧ g.mayAnnounce = false := by
  have order := ho.inOrder
  simp only [Outcome.inOrder, Bool.and_eq_true] at order
  replace order := order.1
  obtain ⟨c', performed, stack, -⟩ := perform_eq_apply c t o
  rw [performed] at accepted ⊢
  unfold apply at accepted ⊢
  cases action : o.action with
  | stay =>
    simp only [action, passed, Bool.false_or, Bool.not_eq_true'] at order
    exact ⟨o.frame, c'.stack, rfl, order⟩
  | push child =>
    simp only [action, Bool.and_eq_true, Bool.not_eq_true'] at order
    rw [action] at accepted
    exact ⟨child, _, stack_push_of_accepted accepted, order.2⟩
  | pushBoth first second =>
    simp only [action, Bool.and_eq_true, Bool.not_eq_true'] at order
    rw [action] at accepted
    dsimp only at accepted ⊢
    split at accepted
    · exact ⟨second, _, stack_push_of_accepted accepted, order.2⟩
    · next refused => exact (refused _ (Prod.ext rfl accepted)).elim
  | pop =>
    simp only [action, Bool.not_eq_true'] at order
    obtain ⟨g, lower, below, stands, -⟩ := h.stacked.below order
    refine ⟨g, lower, ?_, Frame.mayAnnounce_of_rests (rests_of_standsOn stands)⟩
    exact (stack_discard c' o.frame).trans (stack.trans below)
  | replace next =>
    simp only [action, Bool.and_eq_true, Bool.not_eq_true'] at order
    rw [action] at accepted
    exact ⟨next, _, stack_push_of_accepted accepted, order.1.2⟩

/-! ## Walks that announce nothing more -/

/-- Nothing is pending, or only the loop around one that was just closed, and then a frame that
    statements stand on is on top. -/
structure Calm (c : Classifier) : Prop where
  pendingEnd : c.pendingEnd = none
  endStatement : c.endStatement = false
  host : c.pendingNext = true →
    ∃ f below, c.stack = f :: below ∧ f.rests = true ∧ f.hosts = true

theorem Quiet.calm {c : Classifier} (h : Quiet c) : Calm c := by
  refine ⟨h.pendingEnd, h.endStatement, fun pending => ?_⟩
  rw [h.pendingNext] at pending
  cases pending

/-- After a frame closed the loop around it, what it stood on is on top. -/
theorem calm_of_outer_loop {c : Classifier} {f : Frame} {o : Outcome} (t : Token) (hc : Quiet c)
    (h : SoundBelow c f) (ho : Orderly f o) (signal : o.signal = some .closesOuterLoop) :
    o.consumed = true ∧ Calm (c.perform t o).1 := by
  have order := ho.inOrder
  simp only [Outcome.inOrder, Bool.and_eq_true, signal] at order
  cases action : o.action with
  | pop =>
    simp only [action, Bool.not_eq_true', Bool.and_eq_true] at order
    obtain ⟨inner, used, needs⟩ := order
    obtain ⟨g, lower, below, stands, -⟩ := h.stacked.below inner
    have pending := SamePending.perform c t o
    rw [signal] at pending
    refine ⟨used, pending.pendingEnd.trans hc.pendingEnd,
      pending.endStatement.trans hc.endStatement,
      fun _ => ⟨g, lower, ?_, rests_of_standsOn stands, hosts_of_standsOn stands needs⟩⟩
    obtain ⟨c', performed, stack, -⟩ := perform_eq_apply c t o
    rw [performed, action]
    exact (stack_discard c' o.frame).trans (stack.trans below)
  | stay => simp [action] at order
  | push child => simp [action] at order
  | pushBoth first second => simp [action] at order
  | replace next => simp [action] at order

/-- Whatever else is announced, is announced by a frame that may do so, and passes the token on. -/
theorem mayAnnounce_of_signal {f : Frame} {o : Outcome} {s : Signal} (ho : Orderly f o)
    (signal : o.signal = some s) (other : s ≠ .closesOuterLoop) :
    f.mayAnnounce = true ∧ o.consumed = false ∧ o.action = .pop := by
  have order := ho.inOrder
  simp only [Outcome.inOrder, Bool.and_eq_true, signal] at order
  replace order := order.2
  cases s with
  | closesOuterLoop => exact absurd rfl other
  | closesBlock word | endsStatement =>
    cases action : o.action with
    | pop => simpa [action, and_comm] using order
    | stay | push | pushBoth | replace => simp [action] at order

theorem soundBelow_of_sound {c : Classifier} {f : Frame} {below : List Frame} (h : Sound c)
    (hs : c.stack = f :: below) : SoundBelow { c with stack := below } f :=
  h.of_same hs.symm rfl

/-- What a move of a quiet classifier can come to: the walk ends with at most a loop pending; or the
    token is passed on with nothing pending, to a frame that has nothing to announce; or a frame
    that may do so announced that something further down is over. -/
theorem offerToken_cases (fuel : Nat) {c : Classifier} {f : Frame} {below : List Frame} {t : Token}
    (ht : t.kind ≠ .eof) (hc : Quiet c) (h : Sound c) (hs : c.stack = f :: below) :
    Calm (offerToken (fuel + 1) c t).state
      ∨ ∃ c', offerToken (fuel + 1) c t = offerToken fuel c' t ∧ Sound c'
        ∧ ((Quiet c' ∧ ∃ g lower, c'.stack = g :: lower ∧ g.mayAnnounce = false)
          ∨ (f.mayAnnounce = true ∧ c'.pendingNext = false
            ∧ ((c'.pendingEnd.isSome ∧ c'.endStatement = false)
              ∨ (c'.pendingEnd = none ∧ c'.endStatement = true)))) := by
  have whole := soundBelow_of_sound h hs
  have order := orderly_move f t.kind
  have sound := whole.perform t order
  have quiet := quiet_below hc below
  have after := SamePending.perform { c with stack := below } t (f.move t.kind)
  rw [offerToken_succ fuel hc hs ht, ← Prod.eta (perform _ _ _)]
  dsimp only
  cases signal : (f.move t.kind).signal with
  | none =>
    rw [signal] at after
    split
    · exact .inl (after.quiet quiet).calm
    · next goesOn =>
      simp only [Bool.or_eq_true, Bool.not_eq_true', not_or, Bool.not_eq_true,
        Bool.not_eq_false] at goesOn
      have silent := silent_of_passed whole order goesOn.1 goesOn.2
      exact .inr ⟨_, rfl, sound, .inl ⟨after.quiet quiet, silent⟩⟩
  | some s =>
    rw [signal] at after
    by_cases loop : s = .closesOuterLoop
    · subst loop
      obtain ⟨used, calm⟩ := calm_of_outer_loop t quiet whole order signal
      rw [used]
      exact .inl calm
    · obtain ⟨may, passed, action⟩ := mayAnnounce_of_signal order signal loop
      have accepted : (perform { c with stack := below } t (f.move t.kind)).2 = true := by
        unfold perform
        rw [action]
        rfl
      rw [passed, accepted]
      refine .inr ⟨_, rfl, sound, .inr ⟨may, ?_⟩⟩
      cases s with
      | closesOuterLoop => exact absurd rfl loop
      | closesBlock word =>
        exact ⟨after.pendingNext.trans hc.pendingNext,
          .inl ⟨by rw [after.pendingEnd]; rfl, after.endStatement.trans hc.endStatement⟩⟩
      | endsStatement =>
        exact ⟨after.pendingNext.trans hc.pendingNext,
          .inr ⟨after.pendingEnd.trans hc.pendingEnd, after.endStatement⟩⟩

/-- A walk on which the frame on top has nothing to announce leaves at most a loop pending. -/
theorem calm_of_silent {t : Token} (ht : t.kind ≠ .eof) (fuel : Nat) {c : Classifier} {f : Frame}
    {below : List Frame} (hc : Quiet c) (h : Sound c) (hs : c.stack = f :: below)
    (silent : f.mayAnnounce = false) : Calm (offerToken fuel c t).state := by
  induction fuel generalizing c f below with
  | zero => exact ((SamePending.record c _).quiet hc).calm
  | succ fuel ih =>
    rcases offerToken_cases fuel ht hc h hs with calm | ⟨c', goesOn, sound, quiet | announced⟩
    · exact calm
    · obtain ⟨quiet, g, lower, stack, silent'⟩ := quiet
      rw [goesOn]
      exact ih quiet sound stack silent'
    · rw [silent] at announced
      cases announced.1

/-! ## Unwinding -/

/-- A frame that recovery ends gives way to the one below. -/
theorem offerToken_pop (fuel : Nat) {c c' : Classifier} {f : Frame} {below : List Frame} {t : Token}
    (hs : c.stack = f :: below)
    (hr : recover { c with stack := below } f t.kind = (c', f, some (.pop f))) :
    offerToken (fuel + 1) c t = offerToken fuel (c'.discard f) t := by
  rw [offerToken, hs]
  dsimp only
  rw [hr]
  rfl

/-- A frame less, for a move less. -/
theorem length_discard {c : Classifier} {f : Frame} {below : List Frame} {fuel : Nat}
    (hs : c.stack = f :: below) (enough : c.stack.length ≤ fuel + 1) :
    (discard { c with stack := below } f).stack.length ≤ fuel := by
  rw [stack_discard]
  rw [hs, List.length_cons] at enough
  exact Nat.le_of_succ_le_succ enough

/-- There are no moves left only if there are no frames left. -/
theorem Sound.not_exhausted {c : Classifier} (h : Sound c) : ¬c.stack.length ≤ 0 := by
  obtain ⟨f, below, hs⟩ := h.exists_top
  simp [hs]

/-- At the end of the source every frame but the bottom ends, and nothing is left pending. -/
theorem quiet_of_eof {t : Token} (ht : t.kind = .eof) (fuel : Nat) {c : Classifier} (h : Sound c)
    (enough : c.stack.length ≤ fuel) : Quiet (offerToken fuel c t).state := by
  induction fuel generalizing c with
  | zero => exact absurd enough h.not_exhausted
  | succ fuel ih =>
    obtain ⟨f, below, hs⟩ := h.exists_top
    by_cases hf : f = .bottom
    · rw [offerToken, hs]
      dsimp only
      unfold recover
      rw [if_pos ht, if_pos hf]
      exact ⟨rfl, rfl, rfl⟩
    · have hr : recover { c with stack := below } f t.kind
          = ({ c with stack := below }, f, some (.pop f)) := by
        unfold recover
        rw [if_pos ht, if_neg hf]
      rw [offerToken_pop fuel hs hr]
      exact ih (h.move t hs hr) (length_discard hs enough)

/-- After a mismatched `End`, frames end down to the one that it closes, which uses it up. -/
theorem quiet_of_pendingEnd {t : Token} (ht : t.kind ≠ .eof) (fuel : Nat) {c : Classifier}
    {word : Keyword} (h : Sound c) (pending : c.pendingEnd = some word)
    (noNext : c.pendingNext = false) (noStatement : c.endStatement = false)
    (enough : c.stack.length ≤ fuel) : Quiet (offerToken fuel c t).state := by
  induction fuel generalizing c with
  | zero => exact absurd enough h.not_exhausted
  | succ fuel ih =>
    obtain ⟨f, below, hs⟩ := h.exists_top
    have imposed : recover { c with stack := below } f t.kind
        = if f = .bottom then
            ({ c with stack := below, pendingEnd := none }, f, some (.consume f))
          else if f.closing? = some word then
            ({ c with stack := below, pendingEnd := none }, f, some (.consumePop f))
          else ({ c with stack := below }, f, some (.pop f)) := by
      unfold recover
      rw [if_neg ht]
      simp only [pending]
    by_cases hf : f = .bottom
    · rw [if_pos hf] at imposed
      rw [offerToken, hs]
      dsimp only
      rw [imposed]
      exact ⟨rfl, noNext, noStatement⟩
    · rw [if_neg hf] at imposed
      by_cases closes : f.closing? = some word
      · rw [if_pos closes] at imposed
        rw [offerToken, hs]
        dsimp only
        rw [imposed]
        have same := SamePending.discard { c with stack := below, pendingEnd := none } f
        exact same.quiet ⟨rfl, noNext, noStatement⟩
      · rw [if_neg closes] at imposed
        rw [offerToken_pop fuel hs imposed]
        have same := SamePending.discard { c with stack := below } f
        exact ih (h.move t hs imposed) (same.pendingEnd.trans pending)
          (same.pendingNext.trans noNext) (same.endStatement.trans noStatement)
          (length_discard hs enough)

theorem silent_restartLine {f : Frame} (h : f.isStatementList = true) :
    f.restartLine.mayAnnounce = false := by
  cases f <;> first | rfl | cases h

/-- After the end of a statement, frames end down to the nearest list, which starts a new line. -/
theorem calm_of_endStatement {t : Token} (ht : t.kind ≠ .eof) (fuel : Nat) {c : Classifier}
    (h : Sound c) (noEnd : c.pendingEnd = none) (noNext : c.pendingNext = false)
    (pending : c.endStatement = true) (enough : c.stack.length ≤ fuel) :
    Calm (offerToken fuel c t).state := by
  induction fuel generalizing c with
  | zero => exact absurd enough h.not_exhausted
  | succ fuel ih =>
    obtain ⟨f, below, hs⟩ := h.exists_top
    have imposed : recover { c with stack := below } f t.kind
        = if f.isStatementList then
            ({ c with stack := below, endStatement := false }, f.restartLine, none)
          else ({ c with stack := below }, f, some (.pop f)) := by
      obtain ⟨stack, blocks, errors, pendingEnd, pendingNext, endStatement, lastLocation⟩ := c
      dsimp only at noEnd noNext pending
      subst noEnd noNext pending
      unfold recover
      rw [if_neg ht]
      rfl
    by_cases list : f.isStatementList = true
    · rw [if_pos list] at imposed
      -- The list is offered the token as if it had been at the start of a line all along.
      let anew : Classifier := { c with stack := f.restartLine :: below, endStatement := false }
      have quiet : Quiet anew := ⟨noEnd, noNext, rfl⟩
      have alike : Alike f f.restartLine := by
        have := (recover_orderly { c with stack := below } f t.kind).2.2.1
        rwa [imposed] at this
      have sound : Sound anew :=
        Sound.of_same ((soundBelow_of_sound h hs).alike alike) rfl rfl
      have same : offerToken (fuel + 1) c t = offerToken (fuel + 1) anew t := by
        rw [offerToken_succ fuel quiet rfl ht, offerToken, hs]
        dsimp only
        rw [imposed]
        rfl
      rw [same]
      exact calm_of_silent ht (fuel + 1) quiet sound rfl (silent_restartLine list)
    · rw [if_neg list] at imposed
      rw [offerToken_pop fuel hs imposed]
      have same := SamePending.discard { c with stack := below } f
      exact ih (h.move t hs imposed) (same.pendingEnd.trans noEnd)
        (same.pendingNext.trans noNext) (same.endStatement.trans pending) (length_discard hs enough)

/-- What is imposed on a frame while the loop around is to be closed. -/
theorem recover_of_pendingNext {c : Classifier} (f : Frame) {kind : TokenKind} (hk : kind ≠ .eof)
    (noEnd : c.pendingEnd = none) (pending : c.pendingNext = true)
    (noStatement : c.endStatement = false) :
    recover c f kind = (c, f, some (.pop f))
      ∨ (f = .forBlock .body
        ∧ recover c f kind
          = ({ c with pendingNext := false }, f, some (.retry (.forBlock .nextVariables))))
      ∨ recover c f kind = ({ c with pendingNext := false }, f, none) := by
  obtain ⟨stack, blocks, errors, pendingEnd, pendingNext, endStatement, lastLocation⟩ := c
  dsimp only at noEnd pending noStatement
  subst noEnd pending noStatement
  unfold recover
  rw [if_neg hk]
  dsimp only
  rw [if_pos rfl]
  split
  · next imposed =>
    split at imposed
    · cases imposed
      exact .inr (.inl ⟨rfl, rfl⟩)
    · split at imposed
      · cases imposed
        exact .inl rfl
      · cases imposed
    · split at imposed
      · cases imposed
      · cases imposed
        exact .inl rfl
  · exact .inr (.inr rfl)

/-- While the loop around is to be closed, frames end down to that loop or to a list that belongs to
    none, which is offered the token. -/
theorem calm_of_pendingNext {t : Token} (ht : t.kind ≠ .eof) (fuel : Nat) {c : Classifier}
    {f : Frame} {below : List Frame} (h : Sound c) (hs : c.stack = f :: below)
    (rests : f.rests = true) (noEnd : c.pendingEnd = none) (pending : c.pendingNext = true)
    (noStatement : c.endStatement = false) (enough : c.stack.length ≤ fuel) :
    Calm (offerToken fuel c t).state := by
  induction fuel generalizing c f below with
  | zero => exact absurd enough h.not_exhausted
  | succ fuel ih =>
    rcases recover_of_pendingNext (c := { c with stack := below }) f ht noEnd pending noStatement
      with imposed | ⟨rfl, imposed⟩ | imposed
    · -- The frame ends, and the one below it is between two of its parts.
      have order := (recover_orderly { c with stack := below } f t.kind).2.2.2
      rw [imposed] at order
      have inner : f.isBottom = false := by
        have := (order _ rfl).inOrder
        simpa [Outcome.inOrder, Outcome.pop] using this
      have stacked := h.stacked
      rw [hs] at stacked
      obtain ⟨g, lower, hbelow, stands, -⟩ := stacked.below inner
      rw [offerToken_pop fuel hs imposed]
      have same := SamePending.discard { c with stack := below } f
      exact ih (h.move t hs imposed) ((stack_discard _ f).trans hbelow) (rests_of_standsOn stands)
        (same.pendingEnd.trans noEnd) (same.pendingNext.trans pending)
        (same.endStatement.trans noStatement) (length_discard hs enough)
    · -- The loop goes on with the variables after `Next`.
      have sound := h.move t hs imposed
      have goesOn : offerToken (fuel + 1) c t
          = offerToken fuel
              { c with stack := .forBlock .nextVariables :: below, pendingNext := false } t := by
        rw [offerToken, hs]
        dsimp only
        rw [imposed]
        rfl
      rw [goesOn]
      exact calm_of_silent ht fuel ⟨noEnd, rfl, noStatement⟩ sound rfl rfl
    · -- The list is offered the token as if nothing had been pending.
      have same : offerToken (fuel + 1) c t
          = offerToken (fuel + 1) { c with pendingNext := false } t := by
        rw [offerToken_succ (c := { c with pendingNext := false }) fuel ⟨noEnd, rfl, noStatement⟩
          hs ht, offerToken, hs]
        dsimp only
        rw [imposed]
        rfl
      rw [same]
      exact calm_of_silent ht (fuel + 1) ⟨noEnd, rfl, noStatement⟩ (h.of_same rfl rfl) hs
        (Frame.mayAnnounce_of_rests rests)

/-! ## Reachable states -/

/-- After a token at most a loop is pending. -/
theorem calm_offerToken {c : Classifier} (h : Sound c) (hc : Calm c) (t : Token) {fuel : Nat}
    (enough : Limits.maxFrameDepth < fuel) : Calm (offerToken fuel c t).state := by
  have depth := h.depth
  by_cases ht : t.kind = .eof
  · exact (quiet_of_eof ht fuel h (by omega)).calm
  obtain ⟨f, below, hs⟩ := h.exists_top
  cases pending : c.pendingNext with
  | true =>
    obtain ⟨g, lower, stack, rests, -⟩ := hc.host pending
    exact calm_of_pendingNext ht fuel h stack rests hc.pendingEnd pending hc.endStatement (by omega)
  | false =>
    have quiet : Quiet c := ⟨hc.pendingEnd, pending, hc.endStatement⟩
    obtain ⟨fuel, rfl⟩ : ∃ k, fuel = k + 1 := ⟨fuel - 1, by omega⟩
    rcases offerToken_cases fuel ht quiet h hs with calm | ⟨c', goesOn, sound, quiet' | announced⟩
    · exact calm
    · obtain ⟨quiet', g, lower, stack, silent⟩ := quiet'
      rw [goesOn]
      exact calm_of_silent ht fuel quiet' sound stack silent
    · -- Something was announced with the first move, so there are moves for all frames left.
      have depth' := sound.depth
      rw [goesOn]
      obtain ⟨-, noNext, ⟨ends, noStatement⟩ | ⟨noEnd, ends⟩⟩ := announced
      · obtain ⟨word, hword⟩ := Option.isSome_iff_exists.1 ends
        exact (quiet_of_pendingEnd ht fuel sound hword noNext noStatement (by omega)).calm
      · exact calm_of_endStatement ht fuel sound noEnd noNext ends (by omega)

/-- A frame that statements stand on waits for a token, whatever is pending. -/
theorem epsilon?_of_hosts {f : Frame} (h : f.hosts = true) : f.epsilon? = none := by
  cases f <;> first | rfl | cases h

theorem samePending_settle (fuel : Nat) (c : Classifier) :
    SamePending c (settle fuel c).state := by
  induction fuel generalizing c with
  | zero => exact .record c _
  | succ fuel ih =>
    rw [settle]
    split
    · have same := ih (c.putBack .bottom)
      exact ⟨same.1, same.2, same.3⟩
    · next f below hs =>
      split
      · exact ⟨rfl, rfl, rfl⟩
      · next o moves =>
        have moved := SamePending.apply { c with stack := below } o.frame o.action
        split
        · next c' accepted =>
          rw [accepted] at moved
          exact SamePending.trans ⟨moved.1, moved.2, moved.3⟩ (ih c')
        · next c' refused =>
          rw [refused] at moved
          exact ⟨moved.1, moved.2, moved.3⟩

theorem calm_settle {c : Classifier} (hc : Calm c) (fuel : Nat) : Calm (settle fuel c).state := by
  have same := samePending_settle fuel c
  refine ⟨same.pendingEnd.trans hc.pendingEnd, same.endStatement.trans hc.endStatement, ?_⟩
  intro pending
  rw [same.pendingNext] at pending
  obtain ⟨f, below, hs, rests, hosts⟩ := hc.host pending
  cases fuel with
  | zero => exact ⟨f, below, (stack_record _ _).trans hs, rests, hosts⟩
  | succ fuel =>
    rw [settle, hs]
    dsimp only
    rw [epsilon?_of_hosts hosts]
    exact ⟨f, below, hs, rests, hosts⟩

namespace Reachable

/-- In every reachable state the frames are in good order and at most a loop is pending. -/
theorem sound_and_calm {c : Classifier} (h : Reachable c) : Sound c ∧ Calm c := by
  induction h with
  | new => exact ⟨⟨rfl, by decide, rfl⟩, ⟨rfl, rfl, fun pending => by cases pending⟩⟩
  | @inform c call _ ih =>
    obtain ⟨sound, calm⟩ := ih
    cases call with
    | none => exact ⟨sound.settle _, calm_settle calm _⟩
    | some t =>
      have sound' : Sound { c with lastLocation := t.start } := sound.of_same rfl rfl
      have calm' : Calm { c with lastLocation := t.start } := ⟨calm.1, calm.2, calm.3⟩
      exact ⟨sound'.offerToken _ t, calm_offerToken sound' calm' t (by decide)⟩

/-- Nothing is pending while the frame on top is not between two of its parts. -/
theorem quiet {c : Classifier} (h : Reachable c) {f : Frame} {below : List Frame}
    (hs : c.stack = f :: below) (busy : f.rests = false) : Quiet c := by
  obtain ⟨-, calm⟩ := h.sound_and_calm
  refine ⟨calm.pendingEnd, ?_, calm.endStatement⟩
  cases pending : c.pendingNext with
  | false => rfl
  | true =>
    obtain ⟨g, lower, hg, rests, -⟩ := calm.host pending
    rw [hs] at hg
    cases hg
    rw [busy] at rests
    cases rests

end Reachable

end BasicLexis.Classifier
