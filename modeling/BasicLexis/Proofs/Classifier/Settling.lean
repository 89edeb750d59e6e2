import BasicLexis.Proofs.Classifier.Moves
import BasicLexis.Proofs.Classifier.Representation
import Mathlib.Logic.Function.Iterate

set_option autoImplicit false

/-! # Asking changes nothing

Before a token is read, the classifier is asked how to read it, and frames that can go on by
themselves do so until one waits. If nobody asks, they do so once the token is offered to them.
Early or late, the moves are the same ones: while nothing is pending, a frame that goes on by itself
looks neither at the token nor at anything but the stack, and while a loop is pending, the frame on
top waits anyway. The end of the source ends all frames, those that were opened by asking included.

`asking_changes_nothing` says so for every state that a new classifier can come to, and for every
run of calls: it does not matter how often the classifier is asked in between. -/

namespace BasicLexis.Classifier

/-! ## Coming to rest -/

/-- Frames that can go on by themselves do so until one waits, and none of them is refused or
    stopped. -/
def ComesToRest (c : Classifier) : Prop :=
  (rest? (some Limits.maxFrameDepth) Limits.maxEpsilonSteps c.stack).isSome = true

instance (c : Classifier) : Decidable c.ComesToRest :=
  inferInstanceAs (Decidable (_ = true))

theorem ComesToRest.exists_top {c : Classifier} (h : c.ComesToRest) :
    ∃ f below, rest? (some Limits.maxFrameDepth) Limits.maxEpsilonSteps c.stack
      = some (f :: below) := by
  obtain ⟨stack, rests⟩ := Option.isSome_iff_exists.1 h
  cases stack with
  | nil => exact absurd rests rest?_ne_nil
  | cons f below => exact ⟨f, below, rests⟩

/-- At rest, the frame on top waits for a token. -/
theorem waits_of_rest? {limit : Option Nat} {n : Nat} {stack below : List Frame} {f : Frame}
    (h : rest? limit n stack = some (f :: below)) : f.epsilon? = none := by
  induction n generalizing stack with
  | zero => cases h
  | succ n ih =>
    cases stack with
    | nil => cases h
    | cons g lower =>
      rw [rest?] at h
      split at h
      · next waits =>
        cases h
        exact waits
      · split at h
        · exact ih h
        · cases h

/-- A classifier whose top frame waits stays as it is. -/
theorem settle_of_waits {c : Classifier} {f : Frame} {below : List Frame} (n : Nat)
    (hs : c.stack = f :: below) (waits : f.epsilon? = none) :
    settle (n + 1) c = { state := c, hints := f.hints } := by
  rw [settle, hs]
  dsimp only
  rw [waits]

/-- A classifier that comes to rest answers with the hints of the frame that waits, keeps its
    errors, and stays as it is when it is asked again. -/
theorem ComesToRest.inform_none {c : Classifier} (h : c.ComesToRest) :
    (c.inform none).state.inform none = c.inform none
      ∧ SameRecord c (c.inform none).state := by
  obtain ⟨f, below, rests⟩ := h.exists_top
  obtain ⟨stack, same, hints, events⟩ := settle_of_rest? rests (Nat.le_refl _)
  have again := settle_of_waits (Limits.maxEpsilonSteps - 1) stack (waits_of_rest? rests)
  refine ⟨?_, same⟩
  calc (c.inform none).state.inform none
      = { state := (c.inform none).state, hints := f.hints } := again
    _ = c.inform none := by
      show _ = settle Limits.maxEpsilonSteps c
      rw [← hints, ← events]
      rfl

/-! ## Moves that frames make by themselves -/

/-- The same state, the latest token being at a location. -/
def locate (c : Classifier) (l : Location) : Classifier := { c with lastLocation := l }

/-- What a frame does by itself starts no expression. -/
theorem startsExpression_of_epsilon? {f : Frame} {o : Outcome} (h : f.epsilon? = some o) :
    o.startsExpression = false := by
  unfold Frame.epsilon? at h
  split at h
  all_goals first
    | (cases h; rfl)
    | cases h

/-- A frame that finds room is opened wherever the latest token is. -/
theorem push_locate {c : Classifier} (l : Location) (f : Frame)
    (room : c.stack.length < Limits.maxFrameDepth) :
    (c.locate l).push f = ((c.push f).1.locate l, true) := by
  have room' : ¬Limits.maxFrameDepth ≤ c.stack.length := Nat.not_le_of_lt room
  simp [push, locate, room']

theorem discard_locate (c : Classifier) (l : Location) (f : Frame) :
    (c.locate l).discard f = (c.discard f).locate l := by
  unfold discard
  split <;> rfl

/-- Frames that find room are moved wherever the latest token is. -/
theorem apply_locate {c : Classifier} {o : Outcome} (l : Location)
    (fits : o.fits (some Limits.maxFrameDepth) c.stack = true) :
    (c.locate l).apply o.frame o.action = ((c.apply o.frame o.action).1.locate l, true) := by
  unfold Outcome.fits at fits
  unfold apply
  cases action : o.action with
  | stay => rfl
  | pop => rw [discard_locate]
  | push child =>
    rw [action] at fits
    have room : (c.putBack o.frame).stack.length < Limits.maxFrameDepth := of_decide_eq_true fits
    exact push_locate l child room
  | replace next =>
    rw [action] at fits
    have room : (c.discard o.frame).stack.length < Limits.maxFrameDepth := by
      rw [stack_discard]
      exact of_decide_eq_true fits
    rw [discard_locate]
    exact push_locate l next room
  | pushBoth first second =>
    rw [action] at fits
    have fits : c.stack.length + 2 < Limits.maxFrameDepth := of_decide_eq_true fits
    have room₁ : (c.putBack o.frame).stack.length < Limits.maxFrameDepth := Nat.lt_of_succ_lt fits
    obtain ⟨accepted, stack, -⟩ := push_of_room first room₁
    have room₂ : ((c.putBack o.frame).push first).1.stack.length < Limits.maxFrameDepth := by
      rw [stack]
      exact fits
    have first' : ((c.locate l).putBack o.frame).push first
        = (((c.putBack o.frame).push first).1.locate l, true) := push_locate l first room₁
    dsimp only
    rw [first', ← Prod.eta ((c.putBack o.frame).push first), accepted]
    exact push_locate l second room₂

/-- A frame that goes on by itself makes the same move when it is asked and when it is offered a
    token, as long as nothing is pending. -/
theorem passes_of_epsilon? {c : Classifier} {f : Frame} {below : List Frame} {o : Outcome}
    (hc : Quiet c) (hs : c.stack = f :: below) (moves : f.epsilon? = some o)
    (fits : o.fits (some Limits.maxFrameDepth) below = true) {t : Token} (ht : t.kind ≠ .eof)
    (l : Location) :
    Passes t (c.locate l) ((apply { c with stack := below } o.frame o.action).1.locate l) := by
  obtain ⟨-, passed, clean⟩ := orderly_epsilon? moves
  have starts := startsExpression_of_epsilon? moves
  have move : f.move t.kind = o := by rw [Frame.move, moves, Option.getD_some]
  simp only [Outcome.isClean, Bool.and_eq_true, Bool.not_eq_true', Option.isNone_iff_eq_none]
    at clean
  have performed : perform { c.locate l with stack := below } t o
      = ((apply { c with stack := below } o.frame o.action).1.locate l, true) := by
    simp only [perform, starts, clean.1, clean.2, announce, Bool.false_eq_true, if_false]
    exact apply_locate (c := { c with stack := below }) l fits
  have quiet : Quiet (c.locate l) := ⟨hc.1, hc.2, hc.3⟩
  rw [Passes, moveOnce_of_quiet quiet hs ht, move, performed, passed]
  rfl

/-- While nothing is pending, frames that are offered a token before they are asked first make the
    moves that asking them would have made. -/
theorem offerToken_settle {n : Nat} {c : Classifier} {stack : List Frame} (hc : Quiet c)
    (h : rest? (some Limits.maxFrameDepth) n c.stack = some stack) {fuel : Nat} (enough : n ≤ fuel)
    {t : Token} (ht : t.kind ≠ .eof) (l : Location) :
    ∃ k < n, ∀ m, offerToken (m + k) (c.locate l) t
      = offerToken m ((settle fuel c).state.locate l) t := by
  induction n generalizing c fuel with
  | zero => cases h
  | succ n ih =>
    obtain ⟨fuel, rfl⟩ : ∃ k, fuel = k + 1 := ⟨fuel - 1, by omega⟩
    cases hs : c.stack with
    | nil =>
      rw [hs] at h
      cases h
    | cons f below =>
      cases moves : f.epsilon? with
      | none =>
        rw [settle_of_waits fuel hs moves]
        exact ⟨0, Nat.succ_pos n, fun m => rfl⟩
      | some o =>
        rw [hs, rest?, moves] at h
        dsimp only at h
        split at h
        · next fits =>
          obtain ⟨accepted, stacked, same⟩ := apply_of_fits (c := { c with stack := below }) fits
          have first := passes_of_epsilon? hc hs moves fits ht l
          have goesOn : settle (fuel + 1) c
              = settle fuel (apply { c with stack := below } o.frame o.action).1 := by
            rw [settle, hs]
            dsimp only
            rw [moves]
            dsimp only
            rw [← Prod.eta (apply _ _ _), accepted]
          rw [goesOn]
          obtain ⟨k, few, ih⟩ := ih (same.of_frames.quiet hc) (by rw [stacked]; exact h)
            (Nat.le_of_succ_le_succ enough)
          refine ⟨k + 1, Nat.succ_lt_succ few, fun m => ?_⟩
          rw [← Nat.add_assoc, offerToken_succ_moveOnce, congrArg Prod.snd first, if_pos rfl,
            congrArg Prod.fst first]
          exact ih m
        · cases h

/-- A walk that is over in time is the same with more moves to spare. -/
theorem offerToken_of_endsWithin {t : Token} {n m : Nat} {c : Classifier} (h : EndsWithin t n c)
    (le : n ≤ m) : offerToken m c t = offerToken n c t := by
  induction n generalizing m c with
  | zero => cases h
  | succ n ih =>
    obtain ⟨m, rfl⟩ : ∃ k, m = k + 1 := ⟨m - 1, by omega⟩
    rw [offerToken_succ_moveOnce, offerToken_succ_moveOnce]
    split
    · next passed => exact ih (h passed) (Nat.le_of_succ_le_succ le)
    · rfl

/-! ## The end of the source -/

/-- At the end of the source every frame ends but the bottom, and nothing is left but the errors. -/
theorem offerToken_of_eof {t : Token} (ht : t.kind = .eof) {fuel : Nat} {c : Classifier}
    (h : Sound c) (enough : c.stack.length ≤ fuel) :
    offerToken fuel c t
      = { state := { errors := c.errors, lastLocation := c.lastLocation } } := by
  induction fuel generalizing c with
  | zero => exact absurd enough h.not_exhausted
  | succ fuel ih =>
    obtain ⟨f, below, hs⟩ := h.exists_top
    have imposed := recover_of_eof { c with stack := below } f
    rw [← ht] at imposed
    by_cases bottom : f = .bottom
    · subst bottom
      -- the bottom lies on nothing, and no region is open any more
      have alone : below = [] := by
        obtain ⟨upper, stacked, inner⟩ := h.stacked.bottom_last
        rw [hs] at stacked
        cases upper with
        | nil => simpa using stacked
        | cons g rest =>
          obtain ⟨rfl, -⟩ := List.cons.inj stacked
          exact absurd (List.mem_cons_self ..) inner
      have closed : c.blocks = [] := by
        have regions := h.regions
        rw [hs, alone] at regions
        exact List.map_eq_nil_iff.1 regions
      rw [if_pos rfl] at imposed
      rw [offerToken, hs]
      dsimp only
      rw [imposed]
      simp [perform, announce, apply, putBack, Outcome.consume, alone, closed]
    · rw [if_neg bottom] at imposed
      have same := sameRecord_discard { c with stack := below } f
      have located : (discard { c with stack := below } f).lastLocation = c.lastLocation := by
        unfold discard
        split <;> rfl
      have ended := ih (c := discard { c with stack := below } f) (h.move t hs imposed)
        (length_discard hs enough)
      rw [offerToken_pop fuel hs imposed, ended, same.errors, located]

/-! ## Asking and telling -/

/-- Once a classifier has come to rest, it takes a token as it would have taken it before, if the
    walk of the token is not cut. -/
theorem inform_some_of_rest {c : Classifier} (h : Reachable c) (rests : c.ComesToRest) {t : Token}
    (uncut : (c.inform (some t)).events = []) :
    (c.inform none).state.inform (some t) = c.inform (some t) := by
  obtain ⟨sound, calm⟩ := h.sound_and_calm
  obtain ⟨-, same⟩ := rests.inform_none
  by_cases ht : t.kind = .eof
  · -- whatever was opened by asking is ended as well
    have told (c : Classifier) (hc : Sound c) : c.inform (some t)
        = { state := { errors := c.errors, lastLocation := t.start } } := by
      have depth : c.stack.length ≤ Limits.maxEpsilonSteps := Nat.le_trans hc.depth (by decide)
      exact offerToken_of_eof ht (c := c.locate t.start) (hc.of_same rfl rfl) depth
    rw [told (c.inform none).state (sound.settle _), told c sound, same.errors]
  cases pending : c.pendingNext with
  | true =>
    -- the frame on top waits, so there is nothing that asking could have done
    obtain ⟨f, below, hs, -, hosts⟩ := calm.host pending
    have still : c.inform none = { state := c, hints := f.hints } :=
      settle_of_waits _ hs (epsilon?_of_hosts hosts)
    rw [still]
  | false =>
    have quiet : Quiet c := ⟨calm.pendingEnd, pending, calm.endStatement⟩
    obtain ⟨f, below, rest⟩ := rests.exists_top
    obtain ⟨k, few, early⟩ := offerToken_settle quiet rest (Nat.le_refl _) ht t.start
    have early := early (Limits.maxEpsilonSteps - k)
    rw [Nat.sub_add_cancel (Nat.le_of_lt few)] at early
    -- the walk that is left after the moves made early is over in time as well
    have inTime : EndsWithin t (Limits.maxEpsilonSteps - k)
        ((c.inform none).state.locate t.start) := by
      rcases events_offerToken t (Limits.maxEpsilonSteps - k)
        ((c.inform none).state.locate t.start) with ⟨ends, -⟩ | ⟨-, cut⟩
      · exact ends
      · have uncut' : (offerToken Limits.maxEpsilonSteps (c.locate t.start) t).events = [] := uncut
        rw [early] at uncut'
        exact absurd (cut.symm.trans uncut') (List.cons_ne_nil _ _)
    calc (c.inform none).state.inform (some t)
        = offerToken (Limits.maxEpsilonSteps - k) ((c.inform none).state.locate t.start) t :=
          offerToken_of_endsWithin inTime (Nat.sub_le _ _)
      _ = c.inform (some t) := early.symm

/-! ## Runs of calls -/

/-- The answers to calls, one after the other. -/
def answers (c : Classifier) : List (Option Token) → List Reply
  | [] => []
  | call :: calls => c.inform call :: answers (c.inform call).state calls

/-- The state after the classifier was asked so many times. -/
def askedTimes (c : Classifier) (n : Nat) : Classifier :=
  (fun c : Classifier => (c.inform none).state)^[n] c

/-- The answers to calls, before each of which the classifier is asked so many times. -/
def answersBetween (c : Classifier) : List (Nat × Option Token) → List Reply
  | [] => []
  | (n, call) :: calls =>
    (c.askedTimes n).inform call :: answersBetween ((c.askedTimes n).inform call).state calls

/-- No limit is reached during the calls, nor by asking before one of them. -/
def Unhindered (c : Classifier) : List (Option Token) → Prop
  | [] => True
  | call :: calls =>
    c.ComesToRest ∧ (c.inform call).events = [] ∧ Unhindered (c.inform call).state calls

instance decidableUnhindered (c : Classifier) :
    (calls : List (Option Token)) → Decidable (Unhindered c calls)
  | [] => .isTrue trivial
  | _ :: calls =>
    @instDecidableAnd _ _ _ (@instDecidableAnd _ _ _ (decidableUnhindered _ calls))

/-- Asking once or many times is the same. -/
theorem ComesToRest.askedTimes_succ {c : Classifier} (h : c.ComesToRest) (n : Nat) :
    c.askedTimes (n + 1) = (c.inform none).state := by
  induction n with
  | zero => rfl
  | succ n ih =>
    rw [askedTimes, Function.iterate_succ_apply', ← askedTimes, ih]
    exact congrArg Reply.state h.inform_none.1

/-- A call is answered as if nobody had asked before. -/
theorem inform_askedTimes {c : Classifier} (h : Reachable c) (rests : c.ComesToRest)
    {call : Option Token} (uncut : (c.inform call).events = []) (n : Nat) :
    (c.askedTimes n).inform call = c.inform call := by
  cases n with
  | zero => rfl
  | succ n =>
    rw [rests.askedTimes_succ]
    cases call with
    | none => exact rests.inform_none.1
    | some t => exact inform_some_of_rest h rests uncut

theorem answersBetween_eq {c : Classifier} (h : Reachable c) (calls : List (Nat × Option Token))
    (free : Unhindered c (calls.map Prod.snd)) :
    answersBetween c calls = answers c (calls.map Prod.snd) := by
  induction calls generalizing c with
  | nil => rfl
  | cons entry calls ih =>
    obtain ⟨n, call⟩ := entry
    obtain ⟨rests, uncut, free⟩ := free
    rw [List.map_cons, answers, answersBetween, inform_askedTimes h rests uncut n,
      ih (h.inform call) free]

/-- **Asking changes nothing.** In every state that a new classifier can come to, if no limit is
    reached, asking twice is asking once; asking records no error; a token leads to the same state
    whether the classifier is asked before it or not; and all calls of a run are answered in the same
    way, however often the classifier is asked between them. -/
theorem asking_changes_nothing {c : Classifier} (h : Reachable c) (rests : c.ComesToRest) :
    (c.inform none).state.inform none = c.inform none
      ∧ (∀ n, (c.askedTimes n).errors = c.errors)
      ∧ (∀ t, (c.inform (some t)).events = [] →
          (c.inform none).state.inform (some t) = c.inform (some t))
      ∧ ∀ calls : List (Nat × Option Token), Unhindered c (calls.map Prod.snd) →
          answersBetween c calls = answers c (calls.map Prod.snd) := by
  obtain ⟨again, same⟩ := rests.inform_none
  refine ⟨again, fun n => ?_, fun t => inform_some_of_rest h rests, answersBetween_eq h⟩
  cases n with
  | zero => rfl
  | succ n =>
    rw [rests.askedTimes_succ]
    exact same.errors

/-- After `Try` the body of the block is opened by asking, or by the line end that comes next. -/
theorem asking_changes_nothing_try :
    let c := (({} : Classifier).inform (some (.symbol (.keyword .Try) .start .start))).state
    let lineEnd : Token := .symbol .eol .start .start
    let name : Token := .symbol .identifier .start .start
    Reachable c ∧ c.ComesToRest ∧ c.depth = 3 ∧ (c.inform none).state.depth = 4
      ∧ (c.inform none).state.inform none = c.inform none
      ∧ (c.askedTimes 5).errors = c.errors
      ∧ (c.inform none).state.inform (some lineEnd) = c.inform (some lineEnd)
      ∧ answersBetween c [(2, some lineEnd), (1, some name), (0, none)]
        = answers c [some lineEnd, some name, none] := by
  intro c lineEnd name
  have reachable : Reachable c := Reachable.new.inform _
  have rests : c.ComesToRest := by decide +kernel
  obtain ⟨again, errors, telling, runs⟩ := asking_changes_nothing reachable rests
  exact ⟨reachable, rests, by decide +kernel, by decide +kernel, again, errors 5,
    telling lineEnd (by decide +kernel),
    runs [(2, some lineEnd), (1, some name), (0, none)] (by decide +kernel)⟩

end BasicLexis.Classifier
