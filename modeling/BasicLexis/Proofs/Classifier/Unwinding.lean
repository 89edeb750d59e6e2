import BasicLexis.Proofs.Classifier.Representation

set_option autoImplicit false

/-! # Unwinding to the block that is closed

`End` and the keyword of a block close the block even if others inside of it are still open. The
frame that has read `End` finds the keyword misplaced, ends, and announces which block is closed;
then frames end one after the other, each with its region, until the one that the keyword closes
has used it up.

What the five frames that read `End` make of such a keyword is one lemma
(`exists_move_of_mismatch`). The unwinding itself is by induction on the stack (`unwound`). -/

namespace BasicLexis.Classifier

/-! ## After `End` -/

namespace Frame

/-- The frame has read `End` and waits for the word after it. -/
def awaitsWord : Frame → Bool
  | declarations list => list.step == .afterEnd
  | accessors list => list.step == .afterEnd
  | enumBody step => step == .afterEnd
  | statements list => list.step == .afterEnd
  | selectBlock step => step == .afterEnd
  | _ => false

/-- The word that the frame itself reads after `End`. A selection reads its own end, although it is
    not a frame that an `End` further up can close. -/
def ownWord? : Frame → Option Keyword
  | selectBlock _ => some .Select
  | f => f.closing?

/-- A list in which no accessor was read. It belongs to an automatic property. -/
def isBareAccessors : Frame → Bool
  | accessors list => !list.seenAccessor
  | _ => false

theorem rests_of_awaitsWord {f : Frame} (h : f.awaitsWord = true) : f.rests = false := by
  cases f with
  | declarations list | accessors list | statements list =>
    simp only [awaitsWord, beq_iff_eq] at h
    simp [rests, h]
  | enumBody step | selectBlock step =>
    simp only [awaitsWord, beq_iff_eq] at h
    simp [rests, h]
  | _ => cases h

end Frame

/-- A frame ends before the keyword of a block further down, which it finds misplaced or not. -/
def Outcome.closesBelow (g : Frame) (misplaced : Bool) (word : Keyword) : Outcome :=
  { frame := g, action := .pop, consumed := false, misplaced, signal := some (.closesBlock word) }

section Mismatch

variable {word : Keyword}

theorem DeclarationList.afterEnd_mismatch (d : DeclarationList)
    (block : isBlockKeyword word = true) (other : (Frame.declarations d).closing? ≠ some word) :
    d.afterEnd (.keyword word)
      = .closesBelow (.declarations { d with step := .start }) true word := by
  have other' : (Frame.declarations { d with step := .start }).closing? ≠ some word := by
    obtain ⟨scope, step, bodiless, custom⟩ := d
    cases scope <;> exact other
  simp only [afterEnd, TokenKind.keyword?]
  rw [if_neg other', if_pos block]
  rfl

theorem StatementList.afterEnd_mismatch (s : StatementList)
    (block : isBlockKeyword word = true) (other : s.closing ≠ some word) :
    s.afterEnd (.keyword word)
      = .closesBelow (.statements { s with step := .afterStatement }) true word := by
  simp only [afterEnd, TokenKind.keyword?]
  rw [if_neg other, if_pos block]
  rfl

/-- In a list without accessors, the keyword is not misplaced. -/
theorem AccessorList.afterEnd_mismatch (a : AccessorList)
    (block : isBlockKeyword word = true) (other : a.owner ≠ word) :
    a.afterEnd (.keyword word)
      = .closesBelow (.accessors { a with step := .start }) a.seenAccessor word := by
  simp only [afterEnd, TokenKind.keyword?]
  rw [if_neg (Ne.symm other), if_pos block]
  cases a.seenAccessor <;> rfl

theorem offerEnumBody_mismatch (block : isBlockKeyword word = true) (other : .Enum ≠ word) :
    offerEnumBody .afterEnd (.keyword word) = .closesBelow (.enumBody .start) true word := by
  cases word <;> first | rfl | exact absurd block (by decide) | exact absurd rfl other

theorem offerSelect_mismatch (block : isBlockKeyword word = true) (other : .Select ≠ word) :
    offerSelect .afterEnd (.keyword word) = .closesBelow (.selectBlock .afterEnd) true word := by
  cases word <;> first | rfl | exact absurd block (by decide) | exact absurd rfl other

/-- What a frame makes of the keyword of another block after `End`: it ends and announces which
    block is closed. All but a list without accessors find the keyword misplaced. -/
theorem exists_move_of_mismatch {f : Frame} (h : f.awaitsWord = true)
    (block : isBlockKeyword word = true) (other : f.ownWord? ≠ some word) :
    ∃ g, f.move (.keyword word) = .closesBelow g (!f.isBareAccessors) word := by
  cases f with
  | declarations list =>
    obtain ⟨scope, step, bodiless, custom⟩ := list
    obtain rfl : step = .afterEnd := eq_of_beq h
    exact ⟨_, DeclarationList.afterEnd_mismatch _ block other⟩
  | statements list =>
    obtain ⟨closing, stops, singleLine, step⟩ := list
    obtain rfl : step = .afterEnd := eq_of_beq h
    exact ⟨_, StatementList.afterEnd_mismatch _ block other⟩
  | accessors list =>
    obtain ⟨owner, step, seen⟩ := list
    obtain rfl : step = .afterEnd := eq_of_beq h
    refine ⟨.accessors ⟨owner, .start, seen⟩, ?_⟩
    rw [Frame.isBareAccessors, Bool.not_not]
    exact AccessorList.afterEnd_mismatch _ block fun same => other (congrArg some same)
  | enumBody step =>
    obtain rfl : step = .afterEnd := eq_of_beq h
    exact ⟨_, offerEnumBody_mismatch block fun same => other (congrArg some same)⟩
  | selectBlock step =>
    obtain rfl : step = .afterEnd := eq_of_beq h
    exact ⟨_, offerSelect_mismatch block fun same => other (congrArg some same)⟩
  | _ => cases h

/-- What a mismatched `End` does to the state before frames below it end. -/
theorem perform_closesBelow (c : Classifier) (t : Token) (g : Frame) (misplaced : Bool) :
    c.perform t (.closesBelow g misplaced word)
      = (discard { (if misplaced then c.recordMisplaced t else c) with pendingEnd := some word } g,
        true) := rfl

end Mismatch

/-! ## Unwinding -/

/-- How `End` and a word divide the stack below the frame that read `End`: into the frames that it
    takes off, which are those down to the innermost one that the word closes, and the frames that
    it leaves. If the word closes none of the frames, only the bottom is left. -/
inductive Unwinds (word : Keyword) : List Frame → List Frame → Prop where
  | closed {inner : List Frame} {f : Frame} {left : List Frame}
    (others : ∀ g ∈ inner, g.closing? ≠ some word) (closes : f.closing? = some word) :
    Unwinds word (inner ++ [f]) left
  | all {inner : List Frame} (others : ∀ g ∈ inner, g.closing? ≠ some word) :
    Unwinds word inner [.bottom]

theorem Unwinds.cons {word : Keyword} {f : Frame} {taken left : List Frame}
    (other : f.closing? ≠ some word) (h : Unwinds word taken left) :
    Unwinds word (f :: taken) left := by
  have others {inner : List Frame} (h : ∀ g ∈ inner, g.closing? ≠ some word) :
      ∀ g ∈ f :: inner, g.closing? ≠ some word := List.forall_mem_cons.2 ⟨other, h⟩
  cases h with
  | closed inner closes => exact .closed (others inner) closes
  | all inner => exact .all (others inner)

/-- A frame that ends takes its region with it. -/
theorem blocks_discard (c : Classifier) (f : Frame) :
    (c.discard f).blocks = c.blocks.drop ([f].filterMap Frame.context?).length := by
  unfold discard
  cases context : f.context? <;> simp [context]

theorem eq_nil_of_bottom {below : List Frame} (h : Stacked (.bottom :: below)) : below = [] := by
  cases below with
  | nil => rfl
  | cons g lower => cases h.1

/-- What a call leaves that takes some frames off the stack and changes nothing else. -/
structure TakesOff (c : Classifier) (taken : List Frame) (c' : Classifier) : Prop where
  stack : c.stack = taken ++ c'.stack
  blocks : c'.blocks = c.blocks.drop (taken.filterMap Frame.context?).length
  errors : c'.errors = c.errors
  quiet : Quiet c'

theorem TakesOff.cons {c c' : Classifier} {f : Frame} {below taken : List Frame}
    (hs : c.stack = f :: below) (h : TakesOff (discard { c with stack := below } f) taken c') :
    TakesOff c (f :: taken) c' := by
  refine ⟨?_, ?_, ?_, h.quiet⟩
  · have stack := h.stack
    rw [stack_discard] at stack
    rw [hs, List.cons_append, ← stack]
  · rw [h.blocks, blocks_discard, List.drop_drop, ← List.length_append, ← List.filterMap_append]
    rfl
  · rw [h.errors, (sameRecord_discard _ _).errors]

/-- While a closed block is announced, frames end down to the one that the word closes, which uses
    the token up. -/
theorem unwound {t : Token} (ht : t.kind ≠ .eof) {word : Keyword} (fuel : Nat) {c : Classifier}
    (h : Sound c) (pending : c.pendingEnd = some word) (noNext : c.pendingNext = false)
    (noStatement : c.endStatement = false) (enough : c.stack.length ≤ fuel) :
    ∃ taken, Unwinds word taken (offerToken fuel c t).state.stack
      ∧ TakesOff c taken (offerToken fuel c t).state := by
  induction fuel generalizing c with
  | zero => exact absurd enough h.not_exhausted
  | succ fuel ih =>
    obtain ⟨f, below, hs⟩ := h.exists_top
    have imposed := recover_of_pendingEnd (c := { c with stack := below }) f ht pending
    by_cases bottom : f = .bottom
    · -- no frame was closed by the word
      subst bottom
      have alone : below = [] := eq_nil_of_bottom (hs ▸ h.stacked)
      subst alone
      rw [if_pos rfl] at imposed
      rw [offerToken_succ_moveOnce, moveOnce_of_imposed hs imposed]
      let stopped : Classifier := { c with stack := [.bottom], pendingEnd := none }
      show ∃ taken, Unwinds word taken stopped.stack ∧ TakesOff c taken stopped
      exact ⟨[], .all (List.forall_mem_nil _), hs, rfl, rfl, rfl, noNext, noStatement⟩
    · rw [if_neg bottom] at imposed
      by_cases closes : f.closing? = some word
      · rw [if_pos closes] at imposed
        rw [offerToken_succ_moveOnce, moveOnce_of_imposed hs imposed]
        let closed : Classifier := { c with stack := below, pendingEnd := none }
        show ∃ taken, Unwinds word taken (closed.discard f).stack
          ∧ TakesOff c taken (closed.discard f)
        have same := SamePending.discard closed f
        refine ⟨[f], .closed (List.forall_mem_nil _) closes, ?_, blocks_discard closed f,
          (sameRecord_discard closed f).errors, same.quiet ⟨rfl, noNext, noStatement⟩⟩
        rw [stack_discard]
        exact hs
      · rw [if_neg closes] at imposed
        rw [offerToken_pop fuel hs imposed]
        have same := SamePending.discard { c with stack := below } f
        obtain ⟨taken, unwinds, takesOff⟩ := ih (h.move t hs imposed)
          (same.pendingEnd.trans pending) (same.pendingNext.trans noNext)
          (same.endStatement.trans noStatement) (length_discard hs enough)
        exact ⟨f :: taken, unwinds.cons closes, takesOff.cons hs⟩

/-! ## From `End` to the block -/

/-- The state once a frame that read `End` has announced which block is closed, the frame being off
    the stack. -/
def announceEnd (c : Classifier) (t : Token) (f : Frame) (word : Keyword) : Classifier :=
  { (if !f.isBareAccessors then c.recordMisplaced t else c) with pendingEnd := some word }

theorem announceEnd_keeps (c : Classifier) (t : Token) (f : Frame) (word : Keyword) :
    (c.announceEnd t f word).stack = c.stack ∧ (c.announceEnd t f word).blocks = c.blocks
      ∧ (c.announceEnd t f word).pendingNext = c.pendingNext
      ∧ (c.announceEnd t f word).endStatement = c.endStatement := by
  unfold announceEnd recordMisplaced record
  repeat' split
  all_goals exact ⟨rfl, rfl, rfl, rfl⟩

theorem errors_announceEnd (c : Classifier) (t : Token) (f : Frame) (word : Keyword) :
    (c.announceEnd t f word).errors
      = if f.isBareAccessors = true ∨ Limits.maxRecordedErrors ≤ c.errors.size then c.errors
        else c.errors.push ⟨t.start, t.kind, c.context, .unexpectedToken⟩ := by
  cases bare : f.isBareAccessors with
  | true => simp [announceEnd, bare]
  | false =>
    simp only [announceEnd, bare, Bool.not_false, if_true, recordMisplaced, record]
    split
    · next room => simp [Nat.not_le_of_lt room]
    · next full => simp [Nat.le_of_not_lt full]

/-- The frame that read `End` passes the keyword of another block on to the frames below. -/
theorem passes_of_mismatch {c : Classifier} (hc : Quiet c) {f : Frame} {below : List Frame}
    (hs : c.stack = f :: below) (afterEnd : f.awaitsWord = true) {t : Token} {word : Keyword}
    (ht : t.kind = .keyword word) (block : isBlockKeyword word = true)
    (other : f.ownWord? ≠ some word) :
    Passes t c ((announceEnd { c with stack := below } t f word).discard f) := by
  have notEof : t.kind ≠ .eof := by rw [ht]; nofun
  obtain ⟨g, move⟩ := exists_move_of_mismatch afterEnd block other
  have alike := (orderly_move f (.keyword word)).alike
  rw [move] at alike
  have same (c : Classifier) : c.discard g = c.discard f := by
    unfold discard
    rw [show g.context? = f.context? from alike.context]
  rw [Passes, moveOnce_of_quiet hc hs notEof, ht, move, perform_closesBelow, same]
  rfl

/-- **A mismatched `End` unwinds to the block that it closes.** In every reachable state whose top
    frame has read `End`, the keyword of a block that is not the one of that frame takes off the
    frame and, below it, all frames down to the innermost one that the keyword closes, or all but
    the bottom if it closes none. The regions of these frames are closed and no others, and nothing
    is left pending. One error is recorded, at the token and in the region of the frame that read
    `End`, unless that is a list in which no accessor was read, or as many errors are recorded as
    are kept. -/
theorem mismatched_end_unwinds {c : Classifier} (hc : Reachable c) {f : Frame} {below : List Frame}
    (hs : c.stack = f :: below) (afterEnd : f.awaitsWord = true) {t : Token} {word : Keyword}
    (ht : t.kind = .keyword word) (block : isBlockKeyword word = true)
    (other : f.ownWord? ≠ some word) :
    let c' := (c.inform (some t)).state
    (∃ taken, Unwinds word taken c'.stack ∧ c.stack = f :: taken ++ c'.stack
        ∧ c'.blocks = c.blocks.drop ((f :: taken).filterMap Frame.context?).length)
      ∧ c'.pendingEnd = none ∧ c'.pendingNext = false ∧ c'.endStatement = false
      ∧ c'.errors
        = if f.isBareAccessors = true ∨ Limits.maxRecordedErrors ≤ c.errors.size then c.errors
          else c.errors.push ⟨t.start, t.kind, ({ c with stack := below } : Classifier).context,
            .unexpectedToken⟩ := by
  intro c'
  have notEof : t.kind ≠ .eof := by rw [ht]; nofun
  obtain ⟨noEnd, noNext, noStatement⟩ := hc.quiet hs (Frame.rests_of_awaitsWord afterEnd)
  have sound : Sound { c with lastLocation := t.start } := hc.sound_and_calm.1.of_same rfl rfl
  let told : Classifier := { c with stack := below, lastLocation := t.start }
  have passes : ({ c with lastLocation := t.start } : Classifier).moveOnce t
      = ((told.announceEnd t f word).discard f, true) :=
    passes_of_mismatch (c := { c with lastLocation := t.start }) ⟨noEnd, noNext, noStatement⟩ hs
      afterEnd ht block other
  have sound' := sound.moveOnce t
  rw [passes] at sound'
  -- with the one move for that frame, there is a move for every frame of the stack
  have goesOn : c' = (offerToken (Limits.maxEpsilonSteps - 1)
      ((told.announceEnd t f word).discard f) t).state :=
    congrArg Reply.state ((inform_of_moveOnce passes).trans (if_pos rfl))
  obtain ⟨stack, blocks, next, statement⟩ := announceEnd_keeps told t f word
  have same := SamePending.discard (told.announceEnd t f word) f
  have enough : ((told.announceEnd t f word).discard f).stack.length
      ≤ Limits.maxEpsilonSteps - 1 := Nat.le_trans sound'.depth (by decide)
  obtain ⟨taken, unwinds, takesOff⟩ := unwound notEof _ sound' same.pendingEnd
    (same.pendingNext.trans (next.trans noNext))
    (same.endStatement.trans (statement.trans noStatement)) enough
  rw [← goesOn] at unwinds takesOff
  have whole : TakesOff { told.announceEnd t f word with stack := f :: below } (f :: taken) c' := by
    refine TakesOff.cons rfl ?_
    have off : ({ told.announceEnd t f word with stack := below } : Classifier)
        = told.announceEnd t f word := by
      show ({ told.announceEnd t f word with stack := told.stack } : Classifier) = _
      rw [← stack]
    rwa [off]
  refine ⟨⟨taken, unwinds, hs.trans whole.stack, ?_⟩, whole.quiet.pendingEnd,
    whole.quiet.pendingNext, whole.quiet.endStatement, ?_⟩
  · rw [whole.blocks]
    exact congrArg (List.drop _) blocks
  · rw [whole.errors]
    exact errors_announceEnd told t f word

/-- `End Sub` within a conditional of a method takes off the conditional and the method, and leaves
    the class. -/
theorem mismatched_end_unwinds_method :
    let c := (({} : Classifier).feed (spell [.keyword .Class, .identifier, .eol, .keyword .Sub,
      .identifier, .eol, .keyword .If, .identifier, .keyword .Then, .eol, .keyword .End])).state
    let t := Token.symbol (.keyword .Sub) .start .start
    let f := Frame.statements ⟨some .If, [.ElseIf, .Else], false, .afterEnd⟩
    let c' := (c.inform (some t)).state
    Reachable c ∧ c.stack = f :: c.stack.tail ∧ f.awaitsWord = true ∧ isBlockKeyword .Sub = true
      ∧ f.ownWord? ≠ some .Sub ∧ c.depth = 6 ∧ c'.depth = 3
      ∧ (∃ taken, Unwinds .Sub taken c'.stack ∧ c.stack = f :: taken ++ c'.stack)
      ∧ c'.pendingEnd = none ∧ c'.errors = #[⟨.start, .keyword .Sub, .body, .unexpectedToken⟩] := by
  intro c t f c'
  have hc : Reachable c := Reachable.new.feed _
  have hs : c.stack = f :: c.stack.tail := by decide +kernel
  obtain ⟨⟨taken, unwinds, stack, -⟩, settled, -⟩ :=
    mismatched_end_unwinds hc hs rfl (t := t) rfl rfl (by decide)
  exact ⟨hc, hs, rfl, rfl, by decide, by decide +kernel, by decide +kernel, ⟨taken, unwinds, stack⟩,
    settled, by decide +kernel⟩

end BasicLexis.Classifier
