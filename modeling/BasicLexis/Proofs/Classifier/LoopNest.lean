import BasicLexis.Proofs.Classifier.Settling
import BasicLexis.Proofs.Classifier.StatementGrammar

set_option autoImplicit false

/-! # Nested loops that end together

`Next a, b` ends two loops at once: the variables after `Next` belong to the loops from the inside
out. The innermost loop reads `Next` and the first variable. A comma ends that loop and announces
that the loop around it is to be closed as well, which is left pending until the next token comes;
the list of statements between the two loops then ends, and the outer loop goes on as if it had read
`Next` itself.

So before every variable the classifier is in the same situation, with one loop less on the stack
than before (`Naming`). There is one lemma for each kind of token, and the main statement is by
induction on the number of variables. -/

namespace BasicLexis.Grammar

open Classifier

/-- There is nothing left to ask for if the top frame waits once the token was taken. -/
theorem state_ask_of_waits {c c' : Classifier} {t : Token} {f : Frame} {below : List Frame}
    (taken : (c.inform (some t)).state = c') (hs : c'.stack = f :: below)
    (waits : f.epsilon? = none) : (c.ask t).state = c' := by
  subst taken
  have settled := settle_of_waits (Limits.maxEpsilonSteps - 1) hs waits
  exact (congrArg Reply.state settled :)

/-- The frames of so many loops that stand directly in each other, the outermost of which is a
    statement of a list that is read line by line. The innermost list of statements is in the given
    step; the others wait for the loop that stands on them. -/
def inLoops (closing : Option Keyword) (stops : List Keyword) (below : List Frame) :
    Nat → StatementsStep → List Frame
  | 0, step => .statements ⟨closing, stops, false, step⟩ :: below
  | n + 1, step =>
    .statements ⟨none, [.Next], false, step⟩ :: .forBlock .body
      :: inLoops closing stops below n .afterStatement

/-- The kinds of the tokens of so many variables with commas between them. -/
def loopVariables (k : Nat) : List TokenKind := (List.replicate k .identifier).intersperse .comma

theorem loopVariables_succ (k : Nat) :
    loopVariables (k + 2) = .identifier :: .comma :: loopVariables (k + 1) := rfl

theorem exists_loopVariables (k : Nat) :
    ∃ others, loopVariables (k + 1) = .identifier :: others := by
  cases k with
  | zero => exact ⟨[], rfl⟩
  | succ k => exact ⟨_, loopVariables_succ k⟩

section Naming

variable {closing : Option Keyword} {stops : List Keyword} {below : List Frame} {n : Nat}

/-- Each loop opens one region, that of its statements. -/
theorem contexts_inLoops (k : Nat) (few : k ≤ n) (step step' : StatementsStep) :
    (inLoops closing stops below (n - k) step').filterMap Frame.context?
      = ((inLoops closing stops below n step).filterMap Frame.context?).drop k := by
  induction k generalizing n step with
  | zero => cases n <;> rfl
  | succ k ih =>
    obtain ⟨n, rfl⟩ : ∃ m, n = m + 1 := ⟨n - 1, by omega⟩
    rw [Nat.add_sub_add_right]
    exact ih (Nat.le_of_succ_le_succ few) .afterStatement

/-- `Next` was read, or a comma after it: a variable belongs to the loop on top, around which so
    many others are open. Nothing was recorded since the errors were these. -/
structure Naming (closing : Option Keyword) (stops : List Keyword) (below : List Frame)
    (errors : Array ClassifierError) (n : Nat) (c : Classifier) : Prop where
  stack : c.stack = .forBlock .nextVariables :: inLoops closing stops below n .afterStatement
  quiet : Quiet c
  errors : c.errors = errors

variable {c : Classifier} {t : Token}

/-- A token that leads to the variables of a loop without any incident. -/
theorem naming_of_walk? (hc : Quiet c) (ht : t.kind ≠ .eof)
    (h : walk? (some Limits.maxFrameDepth) t.kind 8 c.stack
      = some (.forBlock .nextVariables :: inLoops closing stops below n .afterStatement)) :
    Naming closing stops below c.errors n (c.ask t).state := by
  obtain ⟨f, lower, same, stack, record, -⟩ := ask_of_walk? hc ht h rfl
  exact ⟨stack.trans same.symm, record.quiet hc, record.errors⟩

/-- `Next` ends the statements of the innermost loop. -/
theorem naming_of_next (hc : Quiet c) (hs : c.stack = inLoops closing stops below (n + 1) .start)
    (ht : t.kind = .keyword .Next) :
    Naming closing stops below c.errors n (c.ask t).state := by
  refine naming_of_walk? hc (by rw [ht]; nofun) ?_
  rw [ht, hs]
  rfl

variable {errors : Array ClassifierError}

theorem Naming.name (h : Naming closing stops below errors n c) (ht : t.kind = .identifier) :
    Naming closing stops below errors n (c.ask t).state := by
  have named : Naming closing stops below c.errors n (c.ask t).state := by
    refine naming_of_walk? h.quiet (by rw [ht]; nofun) ?_
    rw [ht, h.stack]
    rfl
  exact h.errors ▸ named

/-- The end of the line ends the loop on top. -/
theorem Naming.eol (h : Naming closing stops below errors n c) (ht : t.kind = .eol) :
    (c.ask t).state.stack = inLoops closing stops below n .start
      ∧ Quiet (c.ask t).state ∧ (c.ask t).state.errors = errors := by
  have walked : walk? (some Limits.maxFrameDepth) t.kind 8 c.stack
      = some (inLoops closing stops below n .start) := by
    rw [ht, h.stack]
    cases n <;> rfl
  have rests : rest? (some Limits.maxFrameDepth) 8 (inLoops closing stops below n .start)
      = some (inLoops closing stops below n .start) := by
    cases n <;> rfl
  obtain ⟨f, lower, same, stack, record, -⟩ :=
    ask_of_walk? h.quiet (by rw [ht]; nofun) walked rests
  exact ⟨stack.trans same.symm, record.quiet h.quiet, record.errors.trans h.errors⟩

/-- A comma ends the loop on top and leaves it to the next token to go on with the loop around. -/
theorem Naming.comma (h : Naming closing stops below errors n c) (ht : t.kind = .comma) :
    (c.ask t).state
      = { c with
          stack := inLoops closing stops below n .afterStatement
          pendingNext := true
          lastLocation := t.start } := by
  have notEof : t.kind ≠ .eof := by rw [ht]; nofun
  have quiet : Quiet { c with lastLocation := t.start } := ⟨h.quiet.1, h.quiet.2, h.quiet.3⟩
  have taken : (c.inform (some t)).state
      = { c with
          stack := inLoops closing stops below n .afterStatement
          pendingNext := true
          lastLocation := t.start } := by
    rw [inform_of_moveOnce (moveOnce_of_quiet quiet h.stack notEof), ht]
    rfl
  cases n <;> exact state_ask_of_waits taken rfl rfl

/-- With the variable after the comma, the list of statements between the two loops ends, and the
    variable belongs to the loop around. -/
theorem Naming.comma_name (h : Naming closing stops below errors (n + 1) c) (ht : t.kind = .comma)
    {u : Token} (hu : u.kind = .identifier) :
    Naming closing stops below errors n ((c.ask t).state.ask u).state := by
  have notEof : u.kind ≠ .eof := by rw [hu]; nofun
  -- three moves: the list ends, the loop goes on with the variables, and it takes this one
  let list : Frame := .statements ⟨none, [.Next], false, .afterStatement⟩
  let outer := inLoops closing stops below n .afterStatement
  let pending : Classifier :=
    { c with
      stack := list :: .forBlock .body :: outer
      pendingNext := true
      lastLocation := u.start }
  let loop : Classifier :=
    { pending with stack := .forBlock .body :: outer, blocks := c.blocks.tail }
  let naming : Classifier :=
    { loop with stack := .forBlock .nextVariables :: outer, pendingNext := false }
  have ends : pending.moveOnce u = (loop, true) := by
    have imposed : recover { pending with stack := .forBlock .body :: outer } list u.kind
        = ({ pending with stack := .forBlock .body :: outer }, list, some (.pop list)) := by
      rw [recover, if_neg notEof]
      simp only [pending, h.quiet.pendingEnd]
      rfl
    exact moveOnce_of_imposed rfl imposed
  have goesOn : loop.moveOnce u = (naming, true) := by
    have imposed : recover { loop with stack := outer } (.forBlock .body) u.kind
        = ({ loop with stack := outer, pendingNext := false }, .forBlock .body,
          some (.retry (.forBlock .nextVariables))) := by
      rw [recover, if_neg notEof]
      simp only [loop, pending, h.quiet.pendingEnd]
      rfl
    exact moveOnce_of_imposed rfl imposed
  have quiet : Quiet naming := ⟨h.quiet.pendingEnd, rfl, h.quiet.endStatement⟩
  have takes : naming.moveOnce u = (naming, false) := by
    rw [moveOnce_of_quiet quiet rfl notEof, hu]
    rfl
  have taken : ((c.ask t).state.inform (some u)).state = naming := by
    rw [h.comma ht, inform_of_moveOnce ends, if_pos rfl]
    show (offerToken (Limits.maxEpsilonSteps - 3 + 1 + 1) loop u).state = naming
    rw [offerToken_succ_moveOnce, goesOn, if_pos rfl, offerToken_succ_moveOnce, takes]
    rfl
  have asked : ((c.ask t).state.ask u).state = naming := state_ask_of_waits taken rfl rfl
  rw [asked]
  exact ⟨rfl, quiet, h.errors⟩

/-- **Run lemma.** Variables after a comma each go on with one loop further out, and the end of the
    line ends the last of these loops. -/
theorem Naming.feed (k : Nat) (h : Naming closing stops below errors (n + k) c)
    {tokens : List Token}
    (spelled : .identifier :: tokens.map Token.kind = loopVariables (k + 1) ++ [.eol]) :
    (c.feed tokens).state.stack = inLoops closing stops below n .start
      ∧ Quiet (c.feed tokens).state ∧ (c.feed tokens).state.errors = errors := by
  induction k generalizing c tokens with
  | zero =>
    obtain ⟨t, rfl, ht⟩ : ∃ t, tokens = [t] ∧ t.kind = .eol := by
      have kinds : tokens.map Token.kind = [.eol] := (List.cons.inj spelled).2
      obtain ⟨t, rest, rfl, ht, hrest⟩ := List.map_eq_cons_iff.1 kinds
      exact ⟨t, by rw [List.map_eq_nil_iff.1 hrest], ht⟩
    rw [state_feed_cons]
    exact h.eol ht
  | succ k ih =>
    rw [loopVariables_succ] at spelled
    have kinds : tokens.map Token.kind = .comma :: (loopVariables (k + 1) ++ [.eol]) :=
      (List.cons.inj spelled).2
    obtain ⟨t, rest, rfl, ht, hrest⟩ := List.map_eq_cons_iff.1 kinds
    obtain ⟨others, hothers⟩ := exists_loopVariables k
    rw [hothers] at hrest
    obtain ⟨u, tokens, rfl, hu, hlast⟩ := List.map_eq_cons_iff.1 hrest
    rw [state_feed_cons, state_feed_cons]
    refine ih (h.comma_name ht hu) ?_
    rw [hothers, hlast]
    rfl

end Naming

/-- **`Next` with several variables ends as many loops as it names.** In every reachable state that
    is at the start of a line in the innermost of some loops that stand directly in each other,
    `Next` with at least one and at most as many variables is taken without an error. The list of
    statements that the last of the named loops is a statement of is at the start of a line again,
    the loops further out are open, one region less is open for every variable, and nothing is left
    pending. -/
theorem loops_closed {n k : Nat} (named : 1 ≤ k) (few : k ≤ n) {c : Classifier} (hc : Reachable c)
    {closing : Option Keyword} {stops : List Keyword} {below : List Frame}
    (hs : c.stack = inLoops closing stops below n .start) {tokens : List Token}
    (spelled : tokens.map Token.kind
      = .keyword .Next :: (loopVariables k ++ [.eol])) :
    (c.feed tokens).state.errors = c.errors
      ∧ (c.feed tokens).state.stack = inLoops closing stops below (n - k) .start
      ∧ (c.feed tokens).state.blocks.map Block.context = (c.blocks.map Block.context).drop k
      ∧ (c.feed tokens).state.pendingNext = false := by
  obtain ⟨k, rfl⟩ : ∃ j, k = j + 1 := ⟨k - 1, by omega⟩
  obtain ⟨m, rfl⟩ : ∃ m, n = m + k + 1 := ⟨n - (k + 1), by omega⟩
  have rest : m + k + 1 - (k + 1) = m := by omega
  obtain ⟨t, others, rfl, ht, hothers⟩ := List.map_eq_cons_iff.1 spelled
  have next := naming_of_next (hc.quiet hs rfl) hs ht
  obtain ⟨further, hfurther⟩ := exists_loopVariables k
  rw [hfurther] at hothers
  obtain ⟨u, tokens, rfl, hu, hlast⟩ := List.map_eq_cons_iff.1 hothers
  have names : .identifier :: tokens.map Token.kind = loopVariables (k + 1) ++ [.eol] := by
    rw [hfurther, hlast]
    rfl
  obtain ⟨stack, quiet, errors⟩ := (next.name hu).feed k names
  rw [rest]
  have fed : (c.feed (t :: u :: tokens)).state
      = (((c.ask t).state.ask u).state.feed tokens).state := by
    rw [state_feed_cons, state_feed_cons]
  have regions := (hc.feed (t :: u :: tokens)).sound_and_calm.1.regions
  rw [fed] at regions ⊢
  refine ⟨errors, stack, ?_, quiet.pendingNext⟩
  rw [regions, stack, hc.sound_and_calm.1.regions, hs,
    ← contexts_inLoops (k + 1) few .start .start, rest]

/-- `Next j, i` in the innermost of three loops leaves the outermost one open. -/
theorem loops_closed_two_of_three :
    let loop := [.keyword .For, .identifier, .assign, .identifier, .keyword .To, .identifier, .eol]
    let c := (({} : Classifier).feed (spell ([.keyword .Sub, .identifier, .eol] ++ loop ++ loop
      ++ loop))).state
    let tokens := spell [.keyword .Next, .identifier, .comma, .identifier, .eol]
    1 ≤ 2 ∧ 2 ≤ 3 ∧ Reachable c
      ∧ c.stack = inLoops (some .Sub) [] (c.stack.drop 7) 3 .start
      ∧ tokens.map Token.kind = .keyword .Next :: (loopVariables 2 ++ [.eol])
      ∧ (c.feed tokens).state.errors = c.errors
      ∧ (c.feed tokens).state.stack = inLoops (some .Sub) [] (c.stack.drop 7) 1 .start
      ∧ (c.feed tokens).state.pendingNext = false := by
  intro loop c tokens
  have hc : Reachable c := Reachable.new.feed _
  have hs : c.stack = inLoops (some .Sub) [] (c.stack.drop 7) 3 .start := by decide +kernel
  have spelled : tokens.map Token.kind = .keyword .Next :: (loopVariables 2 ++ [.eol]) := by
    decide +kernel
  obtain ⟨errors, stack, -, pending⟩ := loops_closed (by decide) (by decide) hc hs spelled
  exact ⟨by decide, by decide, hc, hs, spelled, errors, stack, pending⟩

end BasicLexis.Grammar
