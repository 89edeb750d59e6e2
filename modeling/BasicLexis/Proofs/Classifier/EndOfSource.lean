import BasicLexis.Proofs.Classifier.ByKind
import BasicLexis.Proofs.Classifier.Settling
import Mathlib.Data.List.Forall2

set_option autoImplicit false

/-! # The end of the source starts the classifier anew

The end of the source empties the stack, whatever is on it and whatever is pending, and the walk down
to the bottom is never cut: it takes a move for each frame, of which there are fewer than moves are
allowed. Afterwards the classifier is a new one that remembers the errors so far.

Nobody reads the errors that were recorded: a classifier with earlier errors (`withEarlier`) does
what the same classifier without them does, and records the same errors after the earlier ones, as
long as there is room (`answers_withEarlier`). Together this says that every later run of calls is
answered as a new classifier would have answered it (`eof_starts_anew`). -/

namespace BasicLexis.Classifier

/-! ## Earlier errors -/

/-- The errors of a list that are kept. -/
def kept (errors : List ClassifierError) : List ClassifierError :=
  errors.take Limits.maxRecordedErrors

/-- The same state, after other errors had been recorded. -/
def withEarlier (c : Classifier) (old : Array ClassifierError) : Classifier :=
  { c with errors := (kept (old.toList ++ c.errors.toList)).toArray }

variable (old : Array ClassifierError)

@[simp]
theorem stack_withEarlier (c : Classifier) : (c.withEarlier old).stack = c.stack := rfl

/-- An error is kept if there is room for it after the earlier ones. -/
theorem record_withEarlier (c : Classifier) (e : ClassifierError) :
    (c.withEarlier old).record e = (c.record e).withEarlier old := by
  have size : (c.withEarlier old).errors.size
      = min Limits.maxRecordedErrors (old.size + c.errors.size) := by
    simp [withEarlier, kept]
  by_cases room : old.size + c.errors.size < Limits.maxRecordedErrors
  · have here : (c.withEarlier old).errors.size < Limits.maxRecordedErrors := by omega
    have there : c.errors.size < Limits.maxRecordedErrors := by omega
    have whole : kept (old.toList ++ c.errors.toList) = old.toList ++ c.errors.toList := by
      apply List.take_of_length_le
      simp
      omega
    have whole' : kept (old.toList ++ (c.errors.toList ++ [e]))
        = old.toList ++ (c.errors.toList ++ [e]) := by
      apply List.take_of_length_le
      simp
      omega
    rw [record, if_pos here, record, if_pos there]
    simp [withEarlier, whole, whole']
  · have here : ¬(c.withEarlier old).errors.size < Limits.maxRecordedErrors := by omega
    rw [record, if_neg here, record]
    split
    · -- there is room only for the errors that came first
      have full : Limits.maxRecordedErrors ≤ (old.toList ++ c.errors.toList).length := by
        simp
        omega
      simp only [withEarlier, kept, Array.toList_push, ← List.append_assoc,
        List.take_append_of_le_length full]
    · rfl

/-! ## The operations of the stack -/

theorem push_withEarlier (c : Classifier) (f : Frame) :
    (c.withEarlier old).push f = ((c.push f).1.withEarlier old, (c.push f).2) := by
  unfold push
  rw [stack_withEarlier]
  split
  · exact Prod.ext (record_withEarlier old c _) rfl
  · rfl

theorem discard_withEarlier (c : Classifier) (f : Frame) :
    (c.withEarlier old).discard f = (c.discard f).withEarlier old := by
  unfold discard
  split <;> rfl

theorem apply_withEarlier (c : Classifier) (f : Frame) (action : Action) :
    (c.withEarlier old).apply f action
      = ((c.apply f action).1.withEarlier old, (c.apply f action).2) :=
  apply_of_commutes (fun _ _ => rfl) (discard_withEarlier old) (push_withEarlier old) c f action

theorem announce_withEarlier (c : Classifier) (signal : Option Signal) :
    (c.withEarlier old).announce signal = (c.announce signal).withEarlier old := by
  unfold announce
  split <;> rfl

theorem noteExpression_withEarlier (c : Classifier) (l : Location) :
    (c.withEarlier old).noteExpression l = (c.noteExpression l).withEarlier old := by
  obtain ⟨stack, blocks, errors, pendingEnd, pendingNext, endStatement, last⟩ := c
  cases blocks <;> rfl

theorem perform_withEarlier (c : Classifier) (t : Token) (o : Outcome) :
    (c.withEarlier old).perform t o
      = ((c.perform t o).1.withEarlier old, (c.perform t o).2) := by
  have noted : (if o.startsExpression then (c.withEarlier old).noteExpression t.start
        else c.withEarlier old)
      = (if o.startsExpression then c.noteExpression t.start else c).withEarlier old := by
    split
    · exact noteExpression_withEarlier old c t.start
    · rfl
  have recorded (c : Classifier) : (if o.misplaced then (c.withEarlier old).recordMisplaced t
        else c.withEarlier old)
      = (if o.misplaced then c.recordMisplaced t else c).withEarlier old := by
    split
    · exact record_withEarlier old c _
    · rfl
  unfold perform
  dsimp only
  rw [noted, recorded, announce_withEarlier, apply_withEarlier]

/-- What recovery imposes does not depend on the errors. -/
theorem recover_withEarlier (c : Classifier) (f : Frame) (kind : TokenKind) :
    recover (c.withEarlier old) f kind
      = ((recover c f kind).1.withEarlier old, (recover c f kind).2) := by
  obtain ⟨blocks, errors, last⟩ := recover_keeps c f kind
  have changed : recover (c.withEarlier old) f kind = _ :=
    recover_with c c.blocks (c.withEarlier old).errors c.lastLocation f kind
  rw [changed, withEarlier, withEarlier, errors, ← blocks, ← last]

/-! ## Moves and calls -/

/-- The same answer, from a classifier that had recorded errors earlier. -/
def Reply.withEarlier (r : Reply) (old : Array ClassifierError) : Reply :=
  { r with state := r.state.withEarlier old }

theorem moveOnce_withEarlier (c : Classifier) (t : Token) :
    (c.withEarlier old).moveOnce t
      = ((c.moveOnce t).1.withEarlier old, (c.moveOnce t).2) := by
  cases hs : c.stack with
  | nil =>
    have hs' : (c.withEarlier old).stack = [] := hs
    rw [moveOnce, moveOnce, hs, hs']
    rfl
  | cons f below =>
    have hs' : (c.withEarlier old).stack = f :: below := hs
    obtain ⟨d, g, imposed, recovered, moved⟩ := moveOnce_of_stack t hs
    obtain ⟨d', g', imposed', recovered', moved'⟩ := moveOnce_of_stack t hs'
    have same := recover_withEarlier old { c with stack := below } f t.kind
    rw [recovered] at same
    cases recovered'.symm.trans same
    rw [moved, moved', perform_withEarlier]

theorem offerToken_withEarlier (fuel : Nat) (c : Classifier) (t : Token) :
    offerToken fuel (c.withEarlier old) t = (offerToken fuel c t).withEarlier old := by
  induction fuel generalizing c with
  | zero =>
    rw [offerToken, offerToken, recordLimit, record_withEarlier]
    rfl
  | succ fuel ih =>
    rw [offerToken_succ_moveOnce, offerToken_succ_moveOnce, moveOnce_withEarlier]
    split
    · exact ih _
    · rfl

theorem settle_withEarlier (fuel : Nat) (c : Classifier) :
    settle fuel (c.withEarlier old) = (settle fuel c).withEarlier old := by
  induction fuel generalizing c with
  | zero =>
    rw [settle, settle, recordLimit, record_withEarlier]
    rfl
  | succ fuel ih =>
    rw [settle, settle, stack_withEarlier]
    split
    · exact ih (c.putBack .bottom)
    · next f below _ =>
      split
      · rfl
      · next o _ =>
        have applied := apply_withEarlier old { c with stack := below } o.frame o.action
        have same : ({ c.withEarlier old with stack := below } : Classifier)
            = ({ c with stack := below } : Classifier).withEarlier old := rfl
        rw [same, applied]
        rcases apply { c with stack := below } o.frame o.action with ⟨moved, accepted⟩
        cases accepted with
        | true => exact ih moved
        | false => rfl

theorem inform_withEarlier (c : Classifier) (call : Option Token) :
    (c.withEarlier old).inform call = (c.inform call).withEarlier old := by
  cases call with
  | none => exact settle_withEarlier old _ c
  | some t => exact offerToken_withEarlier old _ { c with lastLocation := t.start } t

/-- A run of calls is answered as if there had been no earlier errors. -/
theorem answers_withEarlier (c : Classifier) (calls : List (Option Token)) :
    answers (c.withEarlier old) calls = (answers c calls).map (·.withEarlier old) := by
  induction calls generalizing c with
  | nil => rfl
  | cons call calls ih =>
    rw [answers, answers, inform_withEarlier, List.map_cons]
    exact congrArg _ (ih (c.inform call).state)

/-! ## Where the latest token was -/

/-- A classifier comes to rest wherever the latest token was. -/
theorem settle_locate {n : Nat} {c : Classifier} {stack : List Frame} (l : Location)
    (h : rest? (some Limits.maxFrameDepth) n c.stack = some stack) {fuel : Nat} (enough : n ≤ fuel) :
    settle fuel (c.locate l)
      = { settle fuel c with state := (settle fuel c).state.locate l } := by
  induction n generalizing c fuel with
  | zero => cases h
  | succ n ih =>
    obtain ⟨fuel, rfl⟩ : ∃ k, fuel = k + 1 := ⟨fuel - 1, by omega⟩
    cases hs : c.stack with
    | nil =>
      rw [hs] at h
      cases h
    | cons f below =>
      have hs' : (c.locate l).stack = f :: below := hs
      cases moves : f.epsilon? with
      | none => rw [settle_of_waits fuel hs moves, settle_of_waits fuel hs' moves]
      | some o =>
        rw [hs, rest?, moves] at h
        dsimp only at h
        split at h
        · next fits =>
          obtain ⟨accepted, stacked, -⟩ := apply_of_fits (c := { c with stack := below }) fits
          have located := apply_locate (c := { c with stack := below }) l fits
          have same : ({ c.locate l with stack := below } : Classifier)
              = ({ c with stack := below } : Classifier).locate l := rfl
          rw [settle, settle, hs, hs']
          dsimp only
          rw [moves]
          dsimp only
          rw [same, located, ← Prod.eta (apply { c with stack := below } _ _), accepted]
          exact ih (by rw [stacked]; exact h) (Nat.le_of_succ_le_succ enough)
        · cases h

/-- A classifier whose top frame waits is at rest. -/
theorem comesToRest_of_waits {c : Classifier} {f : Frame} {below : List Frame}
    (hs : c.stack = f :: below) (waits : f.epsilon? = none) : c.ComesToRest := by
  have rest : rest? (some Limits.maxFrameDepth) (Limits.maxEpsilonSteps - 1 + 1) c.stack
      = some (f :: below) := by
    rw [hs, rest?, waits]
  exact Option.isSome_of_eq_some rest

/-- The second answer is the first one, after other errors had been recorded: the hints, the log, the
    regions and the depth are the same, and the errors are recorded after the earlier ones, as far as
    they are kept. -/
structure Resumed (old : Array ClassifierError) (fresh r : Reply) : Prop where
  hints : r.hints = fresh.hints
  events : r.events = fresh.events
  context : r.state.context = fresh.state.context
  depth : r.state.depth = fresh.state.depth
  blocks : r.state.blocks = fresh.state.blocks
  course : SameCourse fresh.state r.state
  errors : r.state.errors.toList = kept (old.toList ++ fresh.state.errors.toList)

theorem resumed_withEarlier (r : Reply) : Resumed old r (r.withEarlier old) :=
  ⟨rfl, rfl, rfl, rfl, rfl, ⟨rfl, rfl, rfl, rfl⟩, rfl⟩

/-- While a classifier that comes to rest is only asked, it does not matter where the latest token
    was; once it is told a token, it is known where the latest one was. -/
theorem resumed_of_locate {c : Classifier} (rests : c.ComesToRest) (l : Location)
    (calls : List (Option Token)) :
    List.Forall₂ (Resumed old) (answers c calls) (answers ((c.locate l).withEarlier old) calls) := by
  induction calls generalizing c with
  | nil => exact .nil
  | cons call calls ih =>
    cases call with
    | some t =>
      -- from here on the two are at the same place
      have same : ((c.locate l).withEarlier old).inform (some t)
          = (c.inform (some t)).withEarlier old := inform_withEarlier old (c.locate l) (some t)
      rw [answers, answers, same]
      refine .cons (resumed_withEarlier old _) ?_
      have later := answers_withEarlier old (c.inform (some t)).state calls
      rw [show ((c.inform (some t)).withEarlier old).state
        = (c.inform (some t)).state.withEarlier old from rfl, later, List.forall₂_map_right_iff]
      exact List.forall₂_same.2 fun r _ => resumed_withEarlier old r
    | none =>
      obtain ⟨f, below, rest⟩ := rests.exists_top
      obtain ⟨stack, -, -, -⟩ := settle_of_rest? rest (Nat.le_refl _)
      have located : (c.locate l).inform none
          = { c.inform none with state := (c.inform none).state.locate l } :=
        settle_locate l rest (Nat.le_refl _)
      have asked : ((c.locate l).withEarlier old).inform none
          = ({ c.inform none with state := (c.inform none).state.locate l } : Reply).withEarlier
              old := by
        rw [inform_withEarlier, located]
      have rests' : (c.inform none).state.ComesToRest :=
        comesToRest_of_waits stack (waits_of_rest? rest)
      rw [answers, answers, asked]
      exact .cons ⟨rfl, rfl, rfl, rfl, rfl, ⟨rfl, rfl, rfl, rfl⟩, rfl⟩ (ih rests')

/-! ## The end of the source -/

/-- **The end of the source starts the classifier anew.** Whatever a new classifier was told before,
    at the end of the source the walk is not cut, no error is recorded, and the state is that of a
    new classifier but for the errors so far and the place. Every later run of calls is answered as
    by a new classifier: the hints, the contexts and the depths are the same, and so are the errors
    that are recorded after the earlier ones, as far as they are kept. -/
theorem eof_starts_anew {c : Classifier} (h : Reachable c) {t : Token} (eof : t.kind = .eof) :
    c.inform (some t)
        = { state := { ({} : Classifier) with errors := c.errors, lastLocation := t.start } }
      ∧ ∀ calls : List (Option Token),
          List.Forall₂ (Resumed c.errors) (answers {} calls)
            (answers (c.inform (some t)).state calls) := by
  obtain ⟨sound, -⟩ := h.sound_and_calm
  have depth : c.stack.length ≤ Limits.maxEpsilonSteps := Nat.le_trans sound.depth (by decide)
  have ended : c.inform (some t)
      = { state := { ({} : Classifier) with errors := c.errors, lastLocation := t.start } } :=
    offerToken_of_eof eof (c := c.locate t.start) (sound.of_same rfl rfl) depth
  refine ⟨ended, fun calls => ?_⟩
  have whole : kept c.errors.toList = c.errors.toList := List.take_of_length_le h.errors_bounded
  have anew : (c.inform (some t)).state
      = (({} : Classifier).locate t.start).withEarlier c.errors := by
    simp [ended, withEarlier, locate, whole]
  rw [anew]
  exact resumed_of_locate c.errors (by decide +kernel) t.start calls

/-- After a comma that closes an inner loop, the end of the source forgets that the loop around is
    to be closed. -/
theorem eof_starts_anew_loops :
    let c := (({} : Classifier).feed (spell [.keyword .Sub, .identifier, .eol, .keyword .For,
      .identifier, .eol, .keyword .For, .identifier, .eol, .greater, .eol, .keyword .Next,
      .identifier, .comma])).state
    let eof : Token := .symbol .eof ⟨3, 1⟩ ⟨3, 1⟩
    let c' := (c.inform (some eof)).state
    let later := [none, some (.symbol (.keyword .Next) .start .start), none]
    c.pendingNext = true ∧ c.depth = 5 ∧ c.errors.size = 2
      ∧ c' = { ({} : Classifier) with errors := c.errors, lastLocation := ⟨3, 1⟩ }
      ∧ List.Forall₂ (Resumed c.errors) (answers {} later) (answers c' later) := by
  intro c eof c' later
  have reachable : Reachable c := Reachable.new.feed _
  obtain ⟨ended, resumed⟩ := eof_starts_anew reachable (t := eof) rfl
  exact ⟨by decide +kernel, by decide +kernel, by decide +kernel, congrArg Reply.state ended,
    resumed later⟩

end BasicLexis.Classifier
