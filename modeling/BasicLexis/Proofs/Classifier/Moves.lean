import BasicLexis.Proofs.Classifier.Reachable
import Mathlib.Logic.Relation

set_option autoImplicit false

/-! # Walks as sequences of moves

A token is offered to the stack move by move. `moveOnce` is one such move with all that the state
imposes on it; the token is passed on, or the walk is over. What holds of every state that a token
passes through, and what holds once it is used up or refused, is then a matter of single moves
(`state_offerToken_of_moves`).

A walk may also be cut because it takes too many moves. `EndsWithin` says that it is over by itself
before that, and `events_offerToken` that the classifier notes a cut, and nothing else. -/

namespace BasicLexis.Classifier

/-! ## Single moves -/

/-- One move of the stack for a token: the state afterwards, and whether the token is passed on. -/
def moveOnce (c : Classifier) (t : Token) : Classifier × Bool :=
  match c.stack with
  | [] => (c.putBack .bottom, true)
  | f :: below =>
    let (c, g, imposed) := recover { c with stack := below } f t.kind
    let o := imposed.getD (g.move t.kind)
    let moved := c.perform t o
    (moved.1, !o.consumed && moved.2)

/-- The token is passed on from the first state to the second. -/
def Passes (t : Token) (c c' : Classifier) : Prop := c.moveOnce t = (c', true)

/-- The token is passed on, in any number of moves. -/
abbrev PassesThrough (t : Token) : Classifier → Classifier → Prop :=
  Relation.ReflTransGen (Passes t)

/-- The state and the frame that the state imposes nothing on, or what it imposes on the frame. -/
theorem moveOnce_of_stack {c : Classifier} {f : Frame} {below : List Frame} (t : Token)
    (hs : c.stack = f :: below) :
    ∃ c' g imposed, recover { c with stack := below } f t.kind = (c', g, imposed)
      ∧ c.moveOnce t = ((c'.perform t (imposed.getD (g.move t.kind))).1,
          !(imposed.getD (g.move t.kind)).consumed
            && (c'.perform t (imposed.getD (g.move t.kind))).2) := by
  rcases hr : recover { c with stack := below } f t.kind with ⟨c', g, imposed⟩
  refine ⟨c', g, imposed, rfl, ?_⟩
  rw [moveOnce, hs]
  dsimp only
  rw [hr]

theorem offerToken_succ_moveOnce (fuel : Nat) (c : Classifier) (t : Token) :
    offerToken (fuel + 1) c t
      = if (c.moveOnce t).2 then offerToken fuel (c.moveOnce t).1 t
        else { state := (c.moveOnce t).1 } := by
  cases hs : c.stack with
  | nil => rw [offerToken, moveOnce, hs]; rfl
  | cons f below =>
    obtain ⟨c', g, imposed, hr, once⟩ := moveOnce_of_stack t hs
    obtain ⟨_, _, _, hr', moved⟩ := offerToken_move fuel t hs
    rw [hr] at hr'
    cases hr'
    rw [moved, once]
    dsimp only
    cases (imposed.getD (g.move t.kind)).consumed
    all_goals cases (c'.perform t (imposed.getD (g.move t.kind))).2 <;> rfl

/-- A call starts with a move, which decides whether there are others. -/
theorem inform_of_moveOnce {c c' : Classifier} {t : Token} {passed : Bool}
    (h : moveOnce { c with lastLocation := t.start } t = (c', passed)) :
    c.inform (some t)
      = if passed then offerToken (Limits.maxEpsilonSteps - 1) c' t else { state := c' } := by
  have moved := offerToken_succ_moveOnce (Limits.maxEpsilonSteps - 1)
    { c with lastLocation := t.start } t
  rw [h] at moved
  exact moved

/-- The move of a quiet classifier is that of its top frame. -/
theorem moveOnce_of_quiet {c : Classifier} {f : Frame} {below : List Frame} {t : Token}
    (hc : Quiet c) (hs : c.stack = f :: below) (ht : t.kind ≠ .eof) :
    c.moveOnce t = ((perform { c with stack := below } t (f.move t.kind)).1,
      !(f.move t.kind).consumed && (perform { c with stack := below } t (f.move t.kind)).2) := by
  rw [moveOnce, hs]
  dsimp only
  rw [recover_of_quiet (quiet_below hc below) f ht]
  rfl

/-- A move keeps the frames in good order. -/
theorem Sound.moveOnce {c : Classifier} (h : Sound c) (t : Token) : Sound (c.moveOnce t).1 := by
  obtain ⟨f, below, hs⟩ := h.exists_top
  obtain ⟨c', g, imposed, hr, moved⟩ := moveOnce_of_stack t hs
  rw [moved]
  exact h.move t hs hr

/-- What the frames look like after an outcome for which all of them found room. -/
theorem stack_perform_of_accepted {c : Classifier} {t : Token} {o : Outcome}
    (h : (c.perform t o).2 = true) : (c.perform t o).1.stack = o.stackOn c.stack := by
  obtain ⟨c', performed, stack, -⟩ := perform_eq_apply c t o
  rw [performed] at h ⊢
  rw [← stack]
  cases fits : o.fits (some Limits.maxFrameDepth) c'.stack with
  | true => exact (apply_of_fits fits).2.1
  | false =>
    rw [(apply_of_not_fits fits).1] at h
    cases h

/-- What it takes for a quiet classifier to pass a token on: the top frame does not use it up, there
    is room for what it opens, and either nothing is announced, or the frame ends and announces that
    something further down is over. -/
theorem Quiet.cases_of_passes {c c' : Classifier} {f : Frame} {below : List Frame} {t : Token}
    (hc : Quiet c) (h : Sound c) (hs : c.stack = f :: below) (ht : t.kind ≠ .eof)
    (passes : Passes t c c') :
    (f.move t.kind).consumed = false ∧ c'.stack = (f.move t.kind).stackOn below
      ∧ (((f.move t.kind).signal = none ∧ Quiet c'
          ∧ ∃ g lower, c'.stack = g :: lower ∧ g.mayAnnounce = false)
        ∨ (f.mayAnnounce = true ∧ c'.pendingNext = false
          ∧ ((∃ word, (f.move t.kind).signal = some (.closesBlock word)
              ∧ c'.pendingEnd = some word ∧ c'.endStatement = false)
            ∨ (c'.pendingEnd = none ∧ c'.endStatement = true)))) := by
  have whole := soundBelow_of_sound h hs
  have order := orderly_move f t.kind
  have quiet := quiet_below hc below
  have pending := SamePending.perform { c with stack := below } t (f.move t.kind)
  rw [Passes, moveOnce_of_quiet hc hs ht, Prod.mk.injEq, Bool.and_eq_true, Bool.not_eq_true']
    at passes
  obtain ⟨rfl, passed, accepted⟩ := passes
  refine ⟨passed, stack_perform_of_accepted accepted, ?_⟩
  cases signal : (f.move t.kind).signal with
  | none =>
    rw [signal] at pending
    exact .inl ⟨rfl, pending.quiet quiet, silent_of_passed whole order passed accepted⟩
  | some s =>
    rw [signal] at pending
    cases s with
    | closesOuterLoop =>
      rw [(calm_of_outer_loop t quiet whole order signal).1] at passed
      cases passed
    | closesBlock word =>
      have may := (mayAnnounce_of_signal order signal nofun).1
      exact .inr ⟨may, pending.pendingNext.trans hc.pendingNext,
        .inl ⟨word, rfl, pending.pendingEnd, pending.endStatement.trans hc.endStatement⟩⟩
    | endsStatement =>
      have may := (mayAnnounce_of_signal order signal nofun).1
      exact .inr ⟨may, pending.pendingNext.trans hc.pendingNext,
        .inr ⟨pending.pendingEnd.trans hc.pendingEnd, pending.endStatement⟩⟩

/-! ## Moves that the state imposes -/

/-- At the end of the source, every frame but the bottom ends. -/
theorem recover_of_eof (c : Classifier) (f : Frame) :
    recover c f .eof
      = if f = .bottom then
          ({ c with pendingEnd := none, pendingNext := false, endStatement := false }, f,
            some (.consume f))
        else (c, f, some (.pop f)) := by
  unfold recover
  rw [if_pos rfl]

/-- After a mismatched `End`, every frame ends down to the one that it closes. -/
theorem recover_of_pendingEnd {c : Classifier} (f : Frame) {kind : TokenKind} {word : Keyword}
    (hk : kind ≠ .eof) (pending : c.pendingEnd = some word) :
    recover c f kind
      = if f = .bottom then ({ c with pendingEnd := none }, f, some (.consume f))
        else if f.closing? = some word then
          ({ c with pendingEnd := none }, f, some (.consumePop f))
        else (c, f, some (.pop f)) := by
  unfold recover
  rw [if_neg hk]
  simp only [pending]

/-- After the end of a statement, every frame ends down to the nearest list, which starts a line
    anew. -/
theorem recover_of_endStatement {c : Classifier} (f : Frame) {kind : TokenKind} (hk : kind ≠ .eof)
    (noEnd : c.pendingEnd = none) (noNext : c.pendingNext = false)
    (pending : c.endStatement = true) :
    recover c f kind
      = if f.isStatementList then ({ c with endStatement := false }, f.restartLine, none)
        else (c, f, some (.pop f)) := by
  obtain ⟨stack, blocks, errors, pendingEnd, pendingNext, endStatement, lastLocation⟩ := c
  dsimp only at noEnd noNext pending
  subst noEnd noNext pending
  unfold recover
  rw [if_neg hk]
  rfl

/-- What the state imposes depends on the frame and on what is pending only. -/
theorem recover_with (c : Classifier) (blocks : List Block) (errors : Array ClassifierError)
    (l : Location) (f : Frame) (kind : TokenKind) :
    recover { c with blocks, errors, lastLocation := l } f kind
      = ({ (recover c f kind).1 with blocks, errors, lastLocation := l }, (recover c f kind).2) := by
  obtain ⟨stack, _, _, pendingEnd, pendingNext, endStatement, _⟩ := c
  unfold recover
  dsimp only
  by_cases eof : kind = .eof
  · rw [if_pos eof, if_pos eof]
    split <;> rfl
  rw [if_neg eof, if_neg eof]
  cases pendingEnd with
  | some word =>
    dsimp only
    repeat' split
    all_goals rfl
  | none =>
    cases pendingNext with
    | false =>
      cases endStatement with
      | false => rfl
      | true => cases f <;> rfl
    | true =>
      -- whether the loop around is to be closed depends on the frame
      cases f with
      | forBlock step => cases step <;> cases endStatement <;> rfl
      | statements list =>
        dsimp only
        cases list.stops.contains .Next <;> cases endStatement <;> rfl
      | _ => cases endStatement <;> rfl

/-- Recovery leaves the regions, the errors and the place as they are. -/
theorem recover_keeps (c : Classifier) (f : Frame) (kind : TokenKind) :
    (recover c f kind).1.blocks = c.blocks ∧ (recover c f kind).1.errors = c.errors
      ∧ (recover c f kind).1.lastLocation = c.lastLocation := by
  have same : recover c f kind = _ :=
    recover_with c c.blocks c.errors c.lastLocation f kind
  rw [same]
  exact ⟨rfl, rfl, rfl⟩

/-- A change of the state that each operation of the stack goes along with does not matter to what
    an action does to the stack. -/
theorem apply_of_commutes {φ : Classifier → Classifier}
    (putBack : ∀ c f, (φ c).putBack f = φ (c.putBack f))
    (discard : ∀ c f, (φ c).discard f = φ (c.discard f))
    (push : ∀ c f, (φ c).push f = (φ (c.push f).1, (c.push f).2))
    (c : Classifier) (f : Frame) (action : Action) :
    (φ c).apply f action = (φ (c.apply f action).1, (c.apply f action).2) := by
  unfold apply
  cases action with
  | stay => exact Prod.ext (putBack c f) rfl
  | push child =>
    dsimp only
    rw [putBack, push]
  | pop => exact Prod.ext (discard c f) rfl
  | replace next =>
    dsimp only
    rw [discard, push]
  | pushBoth first second =>
    dsimp only
    rw [putBack, push]
    rcases (c.putBack f).push first with ⟨pushed, accepted⟩
    cases accepted with
    | true => exact push pushed second
    | false => rfl

/-- What the state may impose on the top frame, and the frame that is left to decide otherwise. -/
inductive Imposes (c : Classifier) (kind : TokenKind) (f : Frame) : Frame → Option Outcome → Prop
  where
  /-- The frame ends, and the one below has its turn. -/
  | ends : Imposes c kind f f (some (.pop f))
  /-- The bottom uses up the token. -/
  | stops (bottom : f = .bottom) (due : kind = .eof ∨ c.pendingEnd.isSome = true) :
      Imposes c kind f f (some (.consume f))
  /-- The frame uses up the word that closes it. -/
  | closes (due : c.pendingEnd.isSome = true) : Imposes c kind f f (some (.consumePop f))
  /-- The loop goes on with the variables after `Next`. -/
  | nextVariables (loop : f = .forBlock .body) :
      Imposes c kind f f (some (.retry (.forBlock .nextVariables)))
  /-- The frame decides by itself. -/
  | free : Imposes c kind f f none
  /-- The frame decides by itself, at the start of a line. -/
  | freshLine (list : f.isStatementList = true) : Imposes c kind f f.restartLine none

theorem imposes_recover (c : Classifier) (f : Frame) (kind : TokenKind) :
    Imposes c kind f (recover c f kind).2.1 (recover c f kind).2.2 := by
  unfold recover
  split
  · next eof =>
    split
    · next bottom => exact .stops bottom (.inl eof)
    · exact .ends
  · split
    · next pending =>
      have due : c.pendingEnd.isSome = true := by rw [pending]; rfl
      split
      · next bottom => exact .stops bottom (.inr due)
      · split
        · exact .closes due
        · exact .ends
    · dsimp only
      split
      · next imposed =>
        repeat' split at imposed
        all_goals first
          | (cases imposed; exact .nextVariables rfl)
          | (cases imposed; exact .ends)
          | cases imposed
      · split
        · split
          · next list => exact .freshLine list
          · exact .ends
        · exact .free

/-- The state itself announces no mismatched `End`. -/
theorem pendingEnd_recover {c : Classifier} (h : c.pendingEnd = none) (f : Frame)
    (kind : TokenKind) : (recover c f kind).1.pendingEnd = none := by
  unfold recover
  split
  · split
    · rfl
    · exact h
  · split
    · next pending =>
      rw [h] at pending
      cases pending
    · dsimp only
      split
      · next imposed =>
        repeat' split at imposed
        all_goals first
          | (cases imposed; exact h)
          | cases imposed
      · repeat' split
        all_goals exact h

/-- The move of a classifier on whose top frame nothing is imposed. -/
theorem moveOnce_of_free {c c' : Classifier} {f g : Frame} {below : List Frame} {t : Token}
    (hs : c.stack = f :: below)
    (hr : recover { c with stack := below } f t.kind = (c', g, none)) :
    c.moveOnce t = ((c'.perform t (g.move t.kind)).1,
      !(g.move t.kind).consumed && (c'.perform t (g.move t.kind)).2) := by
  rw [moveOnce, hs]
  dsimp only
  rw [hr]
  rfl

/-- The move of a classifier on whose top frame an outcome is imposed. -/
theorem moveOnce_of_imposed {c c' : Classifier} {f g : Frame} {below : List Frame} {t : Token}
    {o : Outcome} (hs : c.stack = f :: below)
    (hr : recover { c with stack := below } f t.kind = (c', g, some o)) :
    c.moveOnce t = ((c'.perform t o).1, !o.consumed && (c'.perform t o).2) := by
  rw [moveOnce, hs]
  dsimp only
  rw [hr]
  rfl

/-- A frame that recovery ends gives way to the one below. -/
theorem passes_pop {c c' : Classifier} {f : Frame} {below : List Frame} {t : Token}
    (hs : c.stack = f :: below)
    (hr : recover { c with stack := below } f t.kind = (c', f, some (.pop f))) :
    Passes t c (c'.discard f) :=
  moveOnce_of_imposed hs hr

/-! ## Walks that are over by themselves -/

/-- The walk of the token is over within so many moves. -/
def EndsWithin (t : Token) : Nat → Classifier → Prop
  | 0, _ => False
  | n + 1, c => (c.moveOnce t).2 = true → EndsWithin t n (c.moveOnce t).1

namespace EndsWithin

theorem mono {t : Token} {n m : Nat} {c : Classifier} (h : EndsWithin t n c) (le : n ≤ m) :
    EndsWithin t m c := by
  induction n generalizing m c with
  | zero => cases h
  | succ n ih =>
    obtain ⟨m, rfl⟩ : ∃ k, m = k + 1 := ⟨m - 1, by omega⟩
    exact fun passed => ih (h passed) (Nat.le_of_succ_le_succ le)

/-- A walk that is over after a token was passed on is over a move later. -/
theorem of_passes {t : Token} {n : Nat} {c c' : Classifier} (move : Passes t c c')
    (h : EndsWithin t n c') : EndsWithin t (n + 1) c := by
  intro _
  rw [show (c.moveOnce t).1 = c' from congrArg Prod.fst move]
  exact h

theorem of_not_passed {t : Token} {n : Nat} {c : Classifier} (h : (c.moveOnce t).2 = false) :
    EndsWithin t (n + 1) c := by
  intro passed
  rw [h] at passed
  cases passed

end EndsWithin

/-- The classifier notes that a walk was cut, and nothing else. -/
theorem events_offerToken (t : Token) (n : Nat) (c : Classifier) :
    (EndsWithin t n c ∧ (offerToken n c t).events = [])
      ∨ (¬EndsWithin t n c ∧ (offerToken n c t).events = [stepLimitEvent]) := by
  induction n generalizing c with
  | zero => exact .inr ⟨id, rfl⟩
  | succ n ih =>
    rw [offerToken_succ_moveOnce]
    cases passed : (c.moveOnce t).2 with
    | false => exact .inl ⟨.of_not_passed passed, rfl⟩
    | true =>
      have same : EndsWithin t (n + 1) c ↔ EndsWithin t n (c.moveOnce t).1 :=
        ⟨fun h => h passed, fun h _ => h⟩
      rw [same, if_pos rfl]
      exact ih _

/-- A walk that is cut is cut wherever the token was passed on to. -/
theorem not_endsWithin_of_passesThrough {t : Token} {c c' : Classifier}
    (h : PassesThrough t c c') (endless : ∀ n, ¬EndsWithin t n c') (n : Nat) :
    ¬EndsWithin t n c := by
  induction h using Relation.ReflTransGen.head_induction_on generalizing n with
  | refl => exact endless n
  | @head a b move _ ih =>
    intro ends
    cases n with
    | zero => exact ends
    | succ n =>
      have ends' := ends (congrArg Prod.snd move)
      rw [show (a.moveOnce t).1 = b from congrArg Prod.fst move] at ends'
      exact ih n ends'

/-- What every move keeps while the token is passed on, and what it comes to once the token is not
    passed on any more. -/
theorem state_offerToken_of_moves {t : Token} {before after : Classifier → Prop}
    (keeps : ∀ c, before c → (c.moveOnce t).2 = true → before (c.moveOnce t).1)
    (ends : ∀ c, before c → (c.moveOnce t).2 = false → after (c.moveOnce t).1)
    {n : Nat} {c : Classifier} (h : before c) (inTime : EndsWithin t n c) :
    after (offerToken n c t).state := by
  induction n generalizing c with
  | zero => exact inTime.elim
  | succ n ih =>
    rw [offerToken_succ_moveOnce]
    split
    · next passed => exact ih (keeps c h passed) (inTime passed)
    · next used => exact ends c h (Bool.eq_false_iff.2 used)

end BasicLexis.Classifier
