import BasicLexis.Classifier.Stack

set_option autoImplicit false

/-! # Walks without incident

The grammar is followed by the frames alone. Whether a token is at home where it stands depends on
the stack of frames and on the kind of the token, not on what the classifier keeps beside them. A
*walk* is what the stack does with a token as long as no frame finds it misplaced, announces
anything to the frames below, or is refused for want of room; a *rest* is the stack once its frames
have gone on by themselves.

`walk?` and `rest?` compute both on bare stacks, where a production can be followed by evaluation.
The main statements, `offerToken_of_walk?` and `settle_of_rest?`, say that the classifier does the
same and records nothing. `walk?_of_shallow` and `rest?_of_shallow` say that a stack which is never
seen at the greatest depth has refused no frame, so a walk may be computed without any bound. -/

namespace BasicLexis.Classifier

/-- What a frame on top of the stack makes of a token, or does before it looks at one. -/
def Frame.move (f : Frame) (kind : TokenKind) : Outcome := f.epsilon?.getD (f.offer kind)

namespace Outcome

/-- Nothing is misplaced, and nothing concerns the frames below. -/
def isClean (o : Outcome) : Bool := !o.misplaced && o.signal.isNone

/-- The stack after the outcome, if all frames find room. -/
def stackOn (o : Outcome) (below : List Frame) : List Frame :=
  match o.action with
  | .stay => o.frame :: below
  | .push child => child :: o.frame :: below
  | .pushBoth first second => second :: first :: o.frame :: below
  | .pop => below
  | .replace next => next :: below

/-- Every frame that the outcome opens finds room on a stack of at most `limit` frames; without a
    limit there is always room. -/
def fits (o : Outcome) (limit : Option Nat) (below : List Frame) : Bool :=
  match o.action with
  | .stay | .pop => true
  | .push _ => limit.all (below.length + 1 < ·)
  | .pushBoth _ _ => limit.all (below.length + 2 < ·)
  | .replace _ => limit.all (below.length < ·)

end Outcome

/-- The stack after a token that is used up within `fuel` moves, none of which is an incident. -/
def walk? (limit : Option Nat) (kind : TokenKind) : Nat → List Frame → Option (List Frame)
  | 0, _ => none
  | _ + 1, [] => none
  | fuel + 1, f :: below =>
    let o := f.move kind
    if o.isClean && o.fits limit below then
      if o.consumed then some (o.stackOn below) else walk? limit kind fuel (o.stackOn below)
    else none

/-- The stack once its top frame waits for a token, which it does within `fuel` moves. -/
def rest? (limit : Option Nat) : Nat → List Frame → Option (List Frame)
  | 0, _ => none
  | _ + 1, [] => none
  | fuel + 1, f :: below =>
    match f.epsilon? with
    | none => some (f :: below)
    | some o => if o.fits limit below then rest? limit fuel (o.stackOn below) else none

/-! ## Single moves -/

/-- Nothing is pending from earlier tokens. -/
structure Quiet (c : Classifier) : Prop where
  pendingEnd : c.pendingEnd = none
  pendingNext : c.pendingNext = false
  endStatement : c.endStatement = false

/-- The second state has the same errors as the first, and the same is pending. -/
structure SameRecord (c c' : Classifier) : Prop where
  errors : c'.errors = c.errors
  pendingEnd : c'.pendingEnd = c.pendingEnd
  pendingNext : c'.pendingNext = c.pendingNext
  endStatement : c'.endStatement = c.endStatement

namespace SameRecord

theorem refl (c : Classifier) : SameRecord c c := ⟨rfl, rfl, rfl, rfl⟩

theorem trans {a b c : Classifier} (h : SameRecord a b) (h' : SameRecord b c) : SameRecord a c :=
  ⟨h'.errors.trans h.errors, h'.pendingEnd.trans h.pendingEnd, h'.pendingNext.trans h.pendingNext,
    h'.endStatement.trans h.endStatement⟩

theorem of_frames {c c' : Classifier} {stack : List Frame} {blocks : List Block}
    (h : SameRecord { c with stack, blocks } c') : SameRecord c c' :=
  ⟨h.errors, h.pendingEnd, h.pendingNext, h.endStatement⟩

theorem quiet {c c' : Classifier} (h : SameRecord c c') (hc : Quiet c) : Quiet c' :=
  ⟨h.pendingEnd.trans hc.pendingEnd, h.pendingNext.trans hc.pendingNext,
    h.endStatement.trans hc.endStatement⟩

end SameRecord

theorem sameRecord_noteExpression (c : Classifier) (l : Location) :
    SameRecord c (c.noteExpression l) := by
  unfold noteExpression
  split <;> exact ⟨rfl, rfl, rfl, rfl⟩

theorem stack_discard (c : Classifier) (f : Frame) : (c.discard f).stack = c.stack := by
  unfold discard
  split <;> rfl

theorem sameRecord_discard (c : Classifier) (f : Frame) : SameRecord c (c.discard f) := by
  unfold discard
  split <;> exact ⟨rfl, rfl, rfl, rfl⟩

theorem stack_record (c : Classifier) (e : ClassifierError) : (c.record e).stack = c.stack := by
  unfold record
  split <;> rfl

theorem push_of_room {c : Classifier} (f : Frame) (h : c.stack.length < Limits.maxFrameDepth) :
    (c.push f).2 = true ∧ (c.push f).1.stack = f :: c.stack ∧ SameRecord c (c.push f).1 := by
  have room : ¬Limits.maxFrameDepth ≤ c.stack.length := Nat.not_le_of_lt h
  unfold push
  rw [if_neg room]
  exact ⟨rfl, rfl, ⟨rfl, rfl, rfl, rfl⟩⟩

/-- A frame that is refused leaves a stack of the greatest depth. -/
theorem push_of_full {c : Classifier} (f : Frame) (h : Limits.maxFrameDepth ≤ c.stack.length) :
    (c.push f).2 = false ∧ (c.push f).1.stack = c.stack := by
  unfold push
  rw [if_pos h]
  exact ⟨rfl, stack_record _ _⟩

theorem stack_push_of_accepted {c : Classifier} {f : Frame} (h : (c.push f).2 = true) :
    (c.push f).1.stack = f :: c.stack := by
  by_cases full : Limits.maxFrameDepth ≤ c.stack.length
  · rw [(push_of_full f full).1] at h
    cases h
  · exact (push_of_room f (Nat.lt_of_not_le full)).2.1

/-- An action with room for its frames is carried out, and touches only frames and regions. -/
theorem apply_of_fits {c : Classifier} {o : Outcome}
    (h : o.fits (some Limits.maxFrameDepth) c.stack = true) :
    (c.apply o.frame o.action).2 = true ∧ (c.apply o.frame o.action).1.stack = o.stackOn c.stack
      ∧ SameRecord c (c.apply o.frame o.action).1 := by
  unfold Outcome.fits at h
  unfold Outcome.stackOn apply
  cases hact : o.action with
  | stay => exact ⟨rfl, rfl, ⟨rfl, rfl, rfl, rfl⟩⟩
  | pop => exact ⟨rfl, stack_discard _ _, sameRecord_discard _ _⟩
  | push child =>
    rw [hact] at h
    have room : (c.putBack o.frame).stack.length < Limits.maxFrameDepth := of_decide_eq_true h
    obtain ⟨accepted, stack, same⟩ := push_of_room child room
    exact ⟨accepted, stack, same.of_frames⟩
  | replace next =>
    rw [hact] at h
    have room : (c.discard o.frame).stack.length < Limits.maxFrameDepth := by
      rw [stack_discard]
      exact of_decide_eq_true h
    obtain ⟨accepted, stack, same⟩ := push_of_room next room
    rw [stack_discard] at stack
    exact ⟨accepted, stack, (sameRecord_discard c o.frame).trans same⟩
  | pushBoth first second =>
    rw [hact] at h
    have room₂ : c.stack.length + 2 < Limits.maxFrameDepth := of_decide_eq_true h
    have room₁ : (c.putBack o.frame).stack.length < Limits.maxFrameDepth :=
      Nat.lt_of_succ_lt room₂
    obtain ⟨accepted₁, stack₁, same₁⟩ := push_of_room first room₁
    have room₂' : ((c.putBack o.frame).push first).1.stack.length < Limits.maxFrameDepth := by
      rw [stack₁]
      exact room₂
    obtain ⟨accepted₂, stack₂, same₂⟩ := push_of_room second room₂'
    have both : apply c o.frame (.pushBoth first second)
        = (((c.putBack o.frame).push first).1.push second) := by
      unfold apply
      dsimp only
      rw [← Prod.eta ((c.putBack o.frame).push first), accepted₁]
    unfold apply at both
    rw [both]
    refine ⟨accepted₂, ?_, ?_⟩
    · rw [stack₂, stack₁]
      rfl
    · exact (same₁.of_frames).trans same₂

/-- An action without room for its frames is refused with a stack of the greatest depth. -/
theorem apply_of_not_fits {c : Classifier} {o : Outcome}
    (h : o.fits (some Limits.maxFrameDepth) c.stack = false) :
    (c.apply o.frame o.action).2 = false
      ∧ Limits.maxFrameDepth ≤ (c.apply o.frame o.action).1.stack.length := by
  unfold Outcome.fits at h
  unfold apply
  cases hact : o.action with
  | stay | pop =>
    rw [hact] at h
    cases h
  | push child =>
    rw [hact] at h
    have full : Limits.maxFrameDepth ≤ (c.putBack o.frame).stack.length :=
      Nat.le_of_not_lt (of_decide_eq_false h)
    obtain ⟨refused, stack⟩ := push_of_full child full
    exact ⟨refused, by dsimp only; rw [stack]; exact full⟩
  | replace next =>
    rw [hact] at h
    have full : Limits.maxFrameDepth ≤ (c.discard o.frame).stack.length := by
      rw [stack_discard]
      exact Nat.le_of_not_lt (of_decide_eq_false h)
    obtain ⟨refused, stack⟩ := push_of_full next full
    exact ⟨refused, by dsimp only; rw [stack]; exact full⟩
  | pushBoth first second =>
    rw [hact] at h
    have full : Limits.maxFrameDepth ≤ c.stack.length + 2 :=
      Nat.le_of_not_lt (of_decide_eq_false h)
    dsimp only
    rw [← Prod.eta ((c.putBack o.frame).push first)]
    by_cases room₁ : (c.putBack o.frame).stack.length < Limits.maxFrameDepth
    · obtain ⟨accepted₁, stack₁, -⟩ := push_of_room first room₁
      rw [accepted₁]
      have full₂ : Limits.maxFrameDepth ≤ ((c.putBack o.frame).push first).1.stack.length := by
        rw [stack₁]
        exact full
      obtain ⟨refused, stack₂⟩ := push_of_full second full₂
      exact ⟨refused, by dsimp only; rw [stack₂]; exact full₂⟩
    · have full₁ : Limits.maxFrameDepth ≤ (c.putBack o.frame).stack.length :=
        Nat.le_of_not_lt room₁
      obtain ⟨refused, stack₁⟩ := push_of_full first full₁
      rw [refused]
      exact ⟨rfl, by dsimp only; rw [stack₁]; exact full₁⟩

/-! ## From walks to the classifier -/

/-- While nothing is pending and the source goes on, the top frame decides by itself. -/
theorem recover_of_quiet {c : Classifier} (hc : Quiet c) (f : Frame) {kind : TokenKind}
    (h : kind ≠ .eof) : recover c f kind = (c, f, none) := by
  obtain ⟨stack, blocks, errors, pendingEnd, pendingNext, endStatement, lastLocation⟩ := c
  obtain ⟨hEnd, hNext, hStatement⟩ := hc
  dsimp only at hEnd hNext hStatement
  subst hEnd hNext hStatement
  unfold recover
  rw [if_neg h]
  rfl

theorem quiet_below {c : Classifier} (hc : Quiet c) (below : List Frame) :
    Quiet { c with stack := below } :=
  ⟨hc.pendingEnd, hc.pendingNext, hc.endStatement⟩

/-- One move of a quiet classifier. -/
theorem offerToken_succ {c : Classifier} {f : Frame} {below : List Frame} {t : Token} (fuel : Nat)
    (hc : Quiet c) (hs : c.stack = f :: below) (ht : t.kind ≠ .eof) :
    offerToken (fuel + 1) c t
      = match perform { c with stack := below } t (f.move t.kind) with
        | (c', accepted) =>
          if (f.move t.kind).consumed || !accepted then { state := c' }
          else offerToken fuel c' t := by
  rw [offerToken, hs]
  dsimp only
  rw [recover_of_quiet (quiet_below hc below) f ht]
  rfl

/-- A clean outcome has no effect but that of its action. -/
theorem perform_of_clean {c : Classifier} (t : Token) {o : Outcome} (h : o.isClean = true) :
    ∃ blocks, c.perform t o = apply { c with blocks } o.frame o.action := by
  have clean : o.misplaced = false ∧ o.signal = none := by
    simpa [Outcome.isClean] using h
  unfold perform
  rw [clean.1, clean.2]
  simp only [announce, Bool.false_eq_true, if_false]
  by_cases hx : o.startsExpression = true
  · rw [if_pos hx]
    unfold noteExpression
    split
    · exact ⟨_, rfl⟩
    · exact ⟨c.blocks, rfl⟩
  · rw [if_neg hx]
    exact ⟨c.blocks, rfl⟩

/-- The classifier makes the moves of a walk and records nothing. -/
theorem offerToken_of_walk? {t : Token} (ht : t.kind ≠ .eof) {n : Nat} {c : Classifier}
    {stack : List Frame} (hc : Quiet c)
    (h : walk? (some Limits.maxFrameDepth) t.kind n c.stack = some stack)
    {fuel : Nat} (hn : n ≤ fuel) :
    (offerToken fuel c t).state.stack = stack ∧ SameRecord c (offerToken fuel c t).state
      ∧ (offerToken fuel c t).events = [] := by
  induction n generalizing c fuel with
  | zero => cases h
  | succ n ih =>
    obtain ⟨fuel, rfl⟩ : ∃ k, fuel = k + 1 := ⟨fuel - 1, by omega⟩
    cases hs : c.stack with
    | nil =>
      rw [hs] at h
      cases h
    | cons f below =>
      rw [hs, walk?] at h
      split at h
      · next ok =>
        -- a clean move with room for its frames is carried out as it is on the bare stack
        obtain ⟨clean, fits⟩ := Bool.and_eq_true_iff.1 ok
        obtain ⟨blocks, performed⟩ := perform_of_clean (c := { c with stack := below }) t clean
        obtain ⟨accepted, stacked, same⟩ :=
          apply_of_fits (c := { c with stack := below, blocks }) fits
        have same' : SameRecord c (perform { c with stack := below } t (f.move t.kind)).1 := by
          rw [performed]
          exact same.of_frames
        rw [offerToken_succ fuel hc hs ht, ← Prod.eta (perform _ _ _)]
        dsimp only
        rw [← performed] at accepted stacked
        rw [accepted]
        cases used : (f.move t.kind).consumed with
        | true =>
          rw [used, if_pos rfl] at h
          cases h
          exact ⟨stacked, same', rfl⟩
        | false =>
          rw [used, if_neg (by decide)] at h
          have h' := ih (same'.quiet hc) (by rw [stacked]; exact h) (Nat.le_of_succ_le_succ hn)
          exact ⟨h'.1, same'.trans h'.2.1, h'.2.2⟩
      · cases h

/-- The classifier comes to the rest of its stack and tells how the top frame wants to read on. -/
theorem settle_of_rest? {n : Nat} {c : Classifier} {f : Frame} {below : List Frame}
    (h : rest? (some Limits.maxFrameDepth) n c.stack = some (f :: below)) {fuel : Nat}
    (hn : n ≤ fuel) :
    (settle fuel c).state.stack = f :: below ∧ SameRecord c (settle fuel c).state
      ∧ (settle fuel c).hints = f.hints ∧ (settle fuel c).events = [] := by
  induction n generalizing c fuel with
  | zero => cases h
  | succ n ih =>
    obtain ⟨fuel, rfl⟩ : ∃ k, fuel = k + 1 := ⟨fuel - 1, by omega⟩
    cases hs : c.stack with
    | nil =>
      rw [hs] at h
      cases h
    | cons g lower =>
      rw [hs, rest?] at h
      rw [settle, hs]
      dsimp only
      cases moves : g.epsilon? with
      | none =>
        rw [moves] at h
        cases h
        exact ⟨hs, .refl c, rfl, rfl⟩
      | some o =>
        rw [moves] at h
        dsimp only at h
        split at h
        · next fits =>
          obtain ⟨accepted, stacked, same⟩ := apply_of_fits (c := { c with stack := lower }) fits
          dsimp only
          rw [← Prod.eta (apply _ _ _), accepted]
          have h' := ih (by rw [stacked]; exact h) (Nat.le_of_succ_le_succ hn)
          refine ⟨h'.1, ?_, h'.2.2⟩
          exact same.of_frames.trans h'.2.1
        · cases h

/-! ## Stacks that are never full -/

/-- If the classifier is not seen at the greatest depth, no frame of the walk was refused. -/
theorem walk?_of_shallow {t : Token} (ht : t.kind ≠ .eof) {n : Nat} {c : Classifier}
    {stack : List Frame} (hc : Quiet c) (h : walk? none t.kind n c.stack = some stack)
    {fuel : Nat} (hn : n ≤ fuel)
    (shallow : (offerToken fuel c t).state.stack.length < Limits.maxFrameDepth) :
    walk? (some Limits.maxFrameDepth) t.kind n c.stack = some stack := by
  induction n generalizing c fuel with
  | zero => cases h
  | succ n ih =>
    obtain ⟨fuel, rfl⟩ : ∃ k, fuel = k + 1 := ⟨fuel - 1, by omega⟩
    cases hs : c.stack with
    | nil =>
      rw [hs] at h
      cases h
    | cons f below =>
      rw [hs, walk?] at h
      rw [walk?]
      split at h
      · next ok =>
        have clean := (Bool.and_eq_true_iff.1 ok).1
        obtain ⟨blocks, performed⟩ := perform_of_clean (c := { c with stack := below }) t clean
        rw [offerToken_succ fuel hc hs ht, performed, ← Prod.eta (apply _ _ _)] at shallow
        dsimp only at shallow
        cases fits : (f.move t.kind).fits (some Limits.maxFrameDepth) below with
        | false =>
          obtain ⟨refused, full⟩ := apply_of_not_fits (c := { c with stack := below, blocks }) fits
          rw [refused] at shallow
          simp only [Bool.not_false, Bool.or_true, if_true] at shallow
          exact absurd full (Nat.not_le_of_lt shallow)
        | true =>
          obtain ⟨accepted, stacked, same⟩ :=
            apply_of_fits (c := { c with stack := below, blocks }) fits
          rw [clean, Bool.and_self, if_pos rfl]
          cases used : (f.move t.kind).consumed with
          | true => simpa [used] using h
          | false =>
            rw [used, if_neg (by decide)] at h
            rw [accepted, used] at shallow
            have quiet' := same.of_frames.quiet hc
            have h' := ih quiet' (by rw [stacked]; exact h) (Nat.le_of_succ_le_succ hn) shallow
            rw [stacked] at h'
            simpa using h'
      · cases h

/-- If the classifier is not seen at the greatest depth, no frame was refused on the way to rest. -/
theorem rest?_of_shallow {n : Nat} {c : Classifier} {stack : List Frame}
    (h : rest? none n c.stack = some stack) {fuel : Nat} (hn : n ≤ fuel)
    (shallow : (settle fuel c).state.stack.length < Limits.maxFrameDepth) :
    rest? (some Limits.maxFrameDepth) n c.stack = some stack := by
  induction n generalizing c fuel with
  | zero => cases h
  | succ n ih =>
    obtain ⟨fuel, rfl⟩ : ∃ k, fuel = k + 1 := ⟨fuel - 1, by omega⟩
    cases hs : c.stack with
    | nil =>
      rw [hs] at h
      cases h
    | cons g lower =>
      rw [hs, rest?] at h
      rw [rest?]
      rw [settle, hs] at shallow
      dsimp only at shallow
      cases moves : g.epsilon? with
      | none =>
        rw [moves] at h
        exact h
      | some o =>
        rw [moves] at h shallow
        dsimp only at h shallow ⊢
        rw [← Prod.eta (apply _ _ _)] at shallow
        cases fits : o.fits (some Limits.maxFrameDepth) lower with
        | false =>
          -- a refusal would show the stack at its greatest depth
          obtain ⟨refused, full⟩ := apply_of_not_fits (c := { c with stack := lower }) fits
          rw [refused] at shallow
          exact absurd full (Nat.not_le_of_lt shallow)
        | true =>
          obtain ⟨accepted, stacked, -⟩ := apply_of_fits (c := { c with stack := lower }) fits
          rw [accepted] at shallow
          split at h
          · have h' := ih (by rw [stacked]; exact h) (Nat.le_of_succ_le_succ hn) shallow
            rw [stacked] at h'
            simpa using h'
          · cases h

end BasicLexis.Classifier
