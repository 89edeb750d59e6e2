import BasicLexis.Proofs.Classifier.Cost

set_option autoImplicit false

/-! # Walks that are cut

A walk is bounded by the cost of its stack, with one move more for each frame that recovery ends.
This is far less than the number of moves that a walk may take, so a walk is over long before it is
cut, except in one place: the list of declarations of a source hands a token that starts nothing to
a statement, the statement hands it to an expression, and the expression gives up and hands it back.
The token goes round in this circle until the walk is cut.

`cut_iff_goesAstray` says that this is the only way for a walk to be cut. -/

namespace BasicLexis.Classifier

/-! ## The circle -/

/-- A token that starts nothing is offered to the list of declarations of a source, and there is
    room for the statement that it is taken for. -/
structure Strays (t : Token) (c : Classifier) : Prop where
  quiet : Quiet c
  list : ∃ d below, c.stack = .declarations d :: below ∧ d.scope = .unit ∧ d.step = .start
  room : c.stack.length < Limits.maxFrameDepth
  goesOn : t.kind ≠ .eof
  lost : isLost t.kind = true

/-- The token is passed on until it strays. -/
def GoesAstray (t : Token) (c : Classifier) : Prop := ∃ c', PassesThrough t c c' ∧ Strays t c'

/-- A frame that passes the token on in silence, and has room for what it opens. -/
theorem Quiet.passes {c : Classifier} {f : Frame} {below : List Frame} {t : Token} {o : Outcome}
    (hc : Quiet c) (hs : c.stack = f :: below) (ht : t.kind ≠ .eof) (move : f.move t.kind = o)
    (passed : o.consumed = false) (silent : o.signal = none)
    (fits : o.fits (some Limits.maxFrameDepth) below = true) :
    ∃ c', Passes t c c' ∧ Quiet c' ∧ c'.stack = o.stackOn below := by
  subst move
  obtain ⟨c', performed, stack, -⟩ :=
    perform_eq_apply { c with stack := below } t (f.move t.kind)
  have pending := SamePending.perform { c with stack := below } t (f.move t.kind)
  rw [silent] at pending
  have accepted : (perform { c with stack := below } t (f.move t.kind)).2 = true := by
    rw [performed]
    exact (apply_of_fits (by rw [stack]; exact fits)).1
  refine ⟨_, ?_, pending.quiet (quiet_below hc below), stack_perform_of_accepted accepted⟩
  rw [Passes, moveOnce_of_quiet hc hs ht, passed, accepted]
  rfl

/-- A statement that a lost token is taken for hands it to an expression, and the expression hands
    it back. -/
theorem move_of_lost {kind : TokenKind} (lost : isLost kind = true) :
    (Frame.statement .start).move kind = .replace (.statement .start) .newExpression
      ∧ Frame.newExpression.move kind
        = { (Outcome.pop (.expression { started := true })).misplacing with
            startsExpression := true } := by
  simp only [isLost, Bool.and_eq_true, Bool.not_eq_true', Option.isNone_iff_eq_none] at lost
  obtain ⟨⟨noDeclaration, noStatement⟩, noOperand⟩ := lost
  constructor
  · rcases offerStatement_first .start kind (by decide) with used | opens
    · rw [noStatement] at used
      cases used
    · exact opens
  · have inLine : kind ≠ .eol := by
      rintro rfl
      cases noDeclaration
    show Expression.offerOperand {} kind = _
    rw [Expression.offerOperand, if_neg inLine, noOperand]
    rfl

/-- The list of declarations of a source takes a token that it does not use up for the start of a
    statement. -/
theorem move_declarations_unit {d : DeclarationList} {kind : TokenKind} (unit : d.scope = .unit)
    (start : d.step = .start) (passed : (Frame.move (.declarations d) kind).consumed = false) :
    Frame.move (.declarations d) kind = .push (.declarations d) (.statement .start) := by
  obtain ⟨scope, step, bodiless, custom⟩ := d
  dsimp only at unit start
  subst unit start
  rcases DeclarationList.offer_unit bodiless custom kind with used | opens
  · exact absurd (used.symm.trans passed) (by decide)
  · exact opens

theorem passed_of_lost {d : DeclarationList} {kind : TokenKind} (unit : d.scope = .unit)
    (start : d.step = .start) (lost : isLost kind = true) :
    (Frame.move (.declarations d) kind).consumed = false := by
  obtain ⟨scope, step, bodiless, custom⟩ := d
  dsimp only at unit start
  subst unit start
  simp only [isLost, Bool.and_eq_true, Bool.not_eq_true'] at lost
  exact (DeclarationList.consumed_offer_unit bodiless custom kind).trans lost.1.1

/-- The token comes back to the list. -/
theorem Strays.comes_back {t : Token} {c : Classifier} (h : Strays t c) :
    ∃ c₁ c₂ c₃, Passes t c c₁ ∧ Passes t c₁ c₂ ∧ Passes t c₂ c₃ ∧ Strays t c₃ := by
  obtain ⟨quiet, ⟨d, below, stack, unit, start⟩, room, goesOn, lost⟩ := h
  have opens := move_declarations_unit unit start (passed_of_lost unit start lost)
  obtain ⟨statement, expression⟩ := move_of_lost lost
  rw [stack, List.length_cons] at room
  obtain ⟨c₁, pass₁, quiet₁, stack₁⟩ :=
    quiet.passes stack goesOn opens rfl rfl (decide_eq_true room)
  obtain ⟨c₂, pass₂, quiet₂, stack₂⟩ :=
    quiet₁.passes stack₁ goesOn statement rfl rfl (decide_eq_true room)
  obtain ⟨c₃, pass₃, quiet₃, stack₃⟩ := quiet₂.passes stack₂ goesOn expression rfl rfl rfl
  refine ⟨c₁, c₂, c₃, pass₁, pass₂, pass₃, quiet₃, ⟨d, below, stack₃, unit, start⟩, ?_,
    goesOn, lost⟩
  rw [stack₃]
  exact room

/-- A walk that is over within some moves is over within fewer after the first of them. -/
theorem EndsWithin.after {t : Token} {n : Nat} {c c' : Classifier} (h : EndsWithin t n c)
    (move : Passes t c c') : ∃ m < n, EndsWithin t m c' := by
  cases n with
  | zero => exact h.elim
  | succ n =>
    have ends := h (congrArg Prod.snd move)
    rw [show (c.moveOnce t).1 = c' from congrArg Prod.fst move] at ends
    exact ⟨n, Nat.lt_succ_self n, ends⟩

/-- A token that strays does so for ever. -/
theorem Strays.endless {t : Token} {c : Classifier} (h : Strays t c) (n : Nat) :
    ¬EndsWithin t n c := by
  -- three moves lead back to the list, so a walk that ended would have a shorter one within it
  induction n using Nat.strongRecOn generalizing c with
  | ind n ih =>
    intro ends
    obtain ⟨c₁, c₂, c₃, pass₁, pass₂, pass₃, back⟩ := h.comes_back
    obtain ⟨n₁, less₁, ends₁⟩ := ends.after pass₁
    obtain ⟨n₂, less₂, ends₂⟩ := ends₁.after pass₂
    obtain ⟨n₃, less₃, ends₃⟩ := ends₂.after pass₃
    exact ih n₃ (by omega) back ends₃

/-! ## Walks that are over in time, or go astray -/

/-- The walk is over within so many moves, or the token goes astray. -/
def Decided (t : Token) (n : Nat) (c : Classifier) : Prop := EndsWithin t n c ∨ GoesAstray t c

namespace Decided

theorem mono {t : Token} {n m : Nat} {c : Classifier} (h : Decided t n c) (le : n ≤ m) :
    Decided t m c :=
  h.imp_left (·.mono le)

theorem of_passes {t : Token} {n : Nat} {c c' : Classifier} (move : Passes t c c')
    (h : Decided t n c') : Decided t (n + 1) c := by
  rcases h with ends | ⟨c'', through, strays⟩
  · exact .inl (.of_passes move ends)
  · exact .inr ⟨c'', through.head move, strays⟩

/-- States that move in the same way are decided in the same way. -/
theorem of_same_move {t : Token} {n : Nat} {c c' : Classifier} (same : c.moveOnce t = c'.moveOnce t)
    (h : Decided t (n + 1) c') : Decided t (n + 1) c := by
  rcases h with ends | ⟨c'', through, strays⟩
  · refine .inl ?_
    rw [EndsWithin, same]
    exact ends
  · refine .inr ?_
    cases through using Relation.ReflTransGen.head_induction_on with
    | refl =>
      -- the state itself is on the circle, and the other one enters it with its first move
      obtain ⟨c₁, c₂, c₃, pass₁, pass₂, pass₃, back⟩ := strays.comes_back
      exact ⟨c₃, .head (same.trans pass₁) (.head pass₂ (.single pass₃)), back⟩
    | head move rest => exact ⟨c'', .head (same.trans move) rest, strays⟩

end Decided

/-- A walk on which the frame on top has nothing to announce takes no more moves than it costs. -/
theorem decided_of_silent {t : Token} (ht : t.kind ≠ .eof) (n : Nat) {c : Classifier} {f : Frame}
    {below : List Frame} (hc : Quiet c) (h : Sound c) (hs : c.stack = f :: below)
    (silent : f.mayAnnounce = false) (enough : cost t.kind c.stack ≤ n) : Decided t n c := by
  induction n generalizing c f below with
  | zero =>
    have := f.weight_pos t.kind
    rw [hs, cost] at enough
    omega
  | succ n ih =>
    cases passed : (c.moveOnce t).2 with
    | false => exact .inl (.of_not_passed passed)
    | true =>
      have move : Passes t c (c.moveOnce t).1 := Prod.ext rfl passed
      obtain ⟨unused, stack, quiet | announced⟩ := hc.cases_of_passes h hs ht move
      · obtain ⟨signal, quiet, g, lower, top, silent'⟩ := quiet
        -- every move is paid for by the cost of the stack, except on the circle
        by_cases stray : ∃ d, f = .declarations d ∧ d.scope = .unit ∧ d.step = .start
            ∧ isLost t.kind = true
        · obtain ⟨d, rfl, unit, start, lost⟩ := stray
          refine .inr ⟨c, .refl, hc, ⟨d, below, hs, unit, start⟩, ?_, ht, lost⟩
          have depth := (h.moveOnce t).depth
          rw [stack, move_declarations_unit unit start unused] at depth
          rw [hs]
          exact depth
        · refine .of_passes move (ih quiet (h.moveOnce t) top silent' ?_)
          have lower := lowers_move f t.kind (fun d list unit start => by
            cases lost : isLost t.kind with
            | false => rfl
            | true => exact (stray ⟨d, list, unit, start, lost⟩).elim) unused signal below
          rw [hs] at enough
          rw [stack]
          exact Nat.le_of_lt_succ (Nat.lt_of_lt_of_le lower enough)
      · rw [silent] at announced
        cases announced.1

/-! ## Unwinding -/

/-- At the end of the source, each frame takes a move. -/
theorem endsWithin_of_eof {t : Token} (ht : t.kind = .eof) (n : Nat) {c : Classifier} (h : Sound c)
    (enough : c.stack.length ≤ n) : EndsWithin t n c := by
  induction n generalizing c with
  | zero => exact absurd enough h.not_exhausted
  | succ n ih =>
    obtain ⟨f, below, hs⟩ := h.exists_top
    have imposed := recover_of_eof { c with stack := below } f
    rw [← ht] at imposed
    split at imposed
    · refine .of_not_passed ?_
      rw [moveOnce_of_imposed hs imposed]
      rfl
    · exact .of_passes (passes_pop hs imposed) (ih (h.move t hs imposed) (length_discard hs enough))

/-- After a mismatched `End`, each frame takes a move. -/
theorem endsWithin_of_pendingEnd {t : Token} (ht : t.kind ≠ .eof) (n : Nat) {c : Classifier}
    {word : Keyword} (h : Sound c) (pending : c.pendingEnd = some word)
    (enough : c.stack.length ≤ n) : EndsWithin t n c := by
  induction n generalizing c with
  | zero => exact absurd enough h.not_exhausted
  | succ n ih =>
    obtain ⟨f, below, hs⟩ := h.exists_top
    have imposed := recover_of_pendingEnd (c := { c with stack := below }) f ht pending
    split at imposed
    · refine .of_not_passed ?_
      rw [moveOnce_of_imposed hs imposed]
      rfl
    · split at imposed
      · refine .of_not_passed ?_
        rw [moveOnce_of_imposed hs imposed]
        rfl
      · have same := SamePending.discard { c with stack := below } f
        exact .of_passes (passes_pop hs imposed)
          (ih (h.move t hs imposed) (same.pendingEnd.trans pending) (length_discard hs enough))

/-- So many moves are enough for a stack of the given height while frames end, and for the walk that
    follows. -/
def moveBound (height : Nat) : Nat := 7 * height + 13

theorem cost_le_moveBound (kind : TokenKind) (stack : List Frame) :
    cost kind stack ≤ moveBound stack.length := by
  have := cost_le kind stack
  unfold moveBound
  omega

/-- After the end of a statement, each frame takes a move down to the nearest list, and the list
    takes what it costs. -/
theorem decided_of_endStatement {t : Token} (ht : t.kind ≠ .eof) (n : Nat) {c : Classifier}
    (h : Sound c) (noEnd : c.pendingEnd = none) (noNext : c.pendingNext = false)
    (pending : c.endStatement = true) (enough : moveBound c.stack.length ≤ n) : Decided t n c := by
  induction n generalizing c with
  | zero =>
    unfold moveBound at enough
    omega
  | succ n ih =>
    obtain ⟨f, below, hs⟩ := h.exists_top
    have imposed :=
      recover_of_endStatement (c := { c with stack := below }) f ht noEnd noNext pending
    split at imposed
    · next list =>
      -- The list is offered the token as if it had been at the start of a line all along.
      let anew : Classifier := { c with stack := f.restartLine :: below, endStatement := false }
      have quiet : Quiet anew := ⟨noEnd, noNext, rfl⟩
      have alike : Alike f f.restartLine := by
        have := (recover_orderly { c with stack := below } f t.kind).2.2.1
        rwa [imposed] at this
      have sound : Sound anew := Sound.of_same ((soundBelow_of_sound h hs).alike alike) rfl rfl
      have same : c.moveOnce t = anew.moveOnce t := by
        rw [moveOnce_of_free hs imposed, moveOnce_of_quiet quiet rfl ht]
      refine .of_same_move same
        (decided_of_silent ht (n + 1) quiet sound rfl (silent_restartLine list) ?_)
      have costs := cost_le_moveBound t.kind anew.stack
      rw [hs] at enough
      exact Nat.le_trans costs enough
    · have same := SamePending.discard { c with stack := below } f
      refine .of_passes (passes_pop hs imposed) (ih (h.move t hs imposed)
        (same.pendingEnd.trans noEnd) (same.pendingNext.trans noNext)
        (same.endStatement.trans pending) ?_)
      rw [hs, List.length_cons] at enough
      rw [stack_discard]
      unfold moveBound at enough ⊢
      dsimp only
      omega

/-- While the loop around is to be closed, each frame takes a move down to that loop or to a list
    that belongs to none, and these take what they cost. -/
theorem decided_of_pendingNext {t : Token} (ht : t.kind ≠ .eof) (n : Nat) {c : Classifier}
    {f : Frame} {below : List Frame} (h : Sound c) (hs : c.stack = f :: below)
    (rests : f.rests = true) (noEnd : c.pendingEnd = none) (pending : c.pendingNext = true)
    (noStatement : c.endStatement = false) (enough : moveBound c.stack.length ≤ n) :
    Decided t n c := by
  induction n generalizing c f below with
  | zero =>
    unfold moveBound at enough
    omega
  | succ n ih =>
    rw [hs, List.length_cons] at enough
    rcases recover_of_pendingNext (c := { c with stack := below }) f ht noEnd pending noStatement
      with imposed | ⟨rfl, imposed⟩ | imposed
    · -- The frame ends, and the one below it is between two of its parts.
      have order := (recover_orderly { c with stack := below } f t.kind).2.2.2
      rw [imposed] at order
      have inner : f.isBottom = false := by
        have := (order _ rfl).inOrder
        simpa [Outcome.inOrder, Outcome.pop] using this
      have stacked := h.stacked
      rw [hs] at stacked
      obtain ⟨g, lower, hbelow, stands, -⟩ := stacked.below inner
      have same := SamePending.discard { c with stack := below } f
      refine .of_passes (passes_pop hs imposed) (ih (h.move t hs imposed)
        ((stack_discard _ f).trans hbelow) (rests_of_standsOn stands)
        (same.pendingEnd.trans noEnd) (same.pendingNext.trans pending)
        (same.endStatement.trans noStatement) ?_)
      rw [stack_discard]
      unfold moveBound at enough ⊢
      dsimp only
      omega
    · -- The loop goes on with the variables after `Next`.
      have sound := h.move t hs imposed
      refine .of_passes (moveOnce_of_imposed hs imposed)
        (decided_of_silent ht n ⟨noEnd, rfl, noStatement⟩ sound rfl rfl ?_)
      have costs := cost_le t.kind (.forBlock .nextVariables :: below)
      rw [List.length_cons] at costs
      unfold moveBound at enough
      exact Nat.le_trans costs (by omega)
    · -- The list is offered the token as if nothing had been pending.
      have same : c.moveOnce t = moveOnce { c with pendingNext := false } t := by
        rw [moveOnce_of_free hs imposed,
          moveOnce_of_quiet (c := { c with pendingNext := false }) ⟨noEnd, rfl, noStatement⟩ hs ht]
      refine .of_same_move same (decided_of_silent ht (n + 1) ⟨noEnd, rfl, noStatement⟩
        (h.of_same rfl rfl) hs (Frame.mayAnnounce_of_rests rests) ?_)
      have costs := cost_le_moveBound t.kind c.stack
      rw [hs] at costs
      exact Nat.le_trans (by rw [hs]; exact costs) enough

/-! ## Calls -/

/-- A token that does not go astray is used up or refused within so many moves. -/
theorem decided {c : Classifier} (h : Sound c) (hc : Calm c) (t : Token) :
    Decided t (moveBound Limits.maxFrameDepth + 1) c := by
  have depth := h.depth
  have bound : moveBound c.stack.length ≤ moveBound Limits.maxFrameDepth := by
    unfold moveBound
    omega
  by_cases ht : t.kind = .eof
  · refine .inl ((endsWithin_of_eof ht _ h (Nat.le_refl _)).mono ?_)
    unfold moveBound
    omega
  obtain ⟨f, below, hs⟩ := h.exists_top
  cases pending : c.pendingNext with
  | true =>
    obtain ⟨g, lower, stack, rests, -⟩ := hc.host pending
    exact decided_of_pendingNext ht _ h stack rests hc.pendingEnd pending hc.endStatement
      (Nat.le_succ_of_le bound)
  | false =>
    have quiet : Quiet c := ⟨hc.pendingEnd, pending, hc.endStatement⟩
    cases passed : (c.moveOnce t).2 with
    | false => exact .inl (.of_not_passed passed)
    | true =>
      have move : Passes t c (c.moveOnce t).1 := Prod.ext rfl passed
      have sound := h.moveOnce t
      have depth' := sound.depth
      have bound' : moveBound (c.moveOnce t).1.stack.length ≤ moveBound Limits.maxFrameDepth := by
        unfold moveBound
        omega
      obtain ⟨-, -, goesOn | announced⟩ := quiet.cases_of_passes h hs ht move
      · obtain ⟨-, quiet', g, lower, top, silent⟩ := goesOn
        exact .of_passes move (decided_of_silent ht _ quiet' sound top silent
          (Nat.le_trans (cost_le_moveBound t.kind _) bound'))
      · obtain ⟨-, noNext, ⟨word, -, ends, -⟩ | ⟨noEnd, ends⟩⟩ := announced
        · refine .of_passes move (.inl ((endsWithin_of_pendingEnd ht _ sound ends
            (Nat.le_refl _)).mono ?_))
          unfold moveBound
          omega
        · exact .of_passes move (decided_of_endStatement ht _ sound noEnd noNext ends bound')

/-- Frames that go on by themselves wait for a token before they are stopped. -/
theorem events_settle (kind : TokenKind) (n : Nat) {c : Classifier} (h : Sound c)
    (enough : cost kind c.stack ≤ n) : (settle n c).events = [] := by
  induction n generalizing c with
  | zero =>
    obtain ⟨f, below, hs⟩ := h.exists_top
    have := f.weight_pos kind
    rw [hs, cost] at enough
    omega
  | succ n ih =>
    obtain ⟨f, below, hs⟩ := h.exists_top
    rw [settle, hs]
    dsimp only
    cases moves : f.epsilon? with
    | none => rfl
    | some o =>
      obtain ⟨order, passed, clean⟩ := orderly_epsilon? moves
      have signal : o.signal = none := by
        simp only [Outcome.isClean, Bool.and_eq_true, Option.isNone_iff_eq_none] at clean
        exact clean.2
      have lower := lowers_epsilon? moves kind passed signal below
      have sound := (soundBelow_of_sound h hs).apply order
      dsimp only
      cases fits : o.fits (some Limits.maxFrameDepth) below with
      | false =>
        rw [← Prod.eta (apply _ _ _), (apply_of_not_fits (c := { c with stack := below }) fits).1]
      | true =>
        obtain ⟨accepted, stack, -⟩ := apply_of_fits (c := { c with stack := below }) fits
        rw [← Prod.eta (apply _ _ _), accepted]
        refine ih sound ?_
        rw [stack]
        rw [hs] at enough
        exact Nat.le_of_lt_succ (Nat.lt_of_lt_of_le lower enough)

/-- **Only a token that goes astray is cut off.** Frames that go on by themselves are never stopped,
    and the walk of a token is over by itself before it is cut, unless the token starts nothing and
    comes to the list of declarations of the source. -/
theorem cut_iff_goesAstray {c : Classifier} (h : Reachable c) :
    (c.inform none).events = []
      ∧ ∀ t : Token,
        let c' := { c with lastLocation := t.start }
        (¬GoesAstray t c' ∧ EndsWithin t Limits.maxEpsilonSteps c'
            ∧ (c.inform (some t)).events = [])
          ∨ (GoesAstray t c' ∧ ¬EndsWithin t Limits.maxEpsilonSteps c'
            ∧ (c.inform (some t)).events = [stepLimitEvent]) := by
  obtain ⟨sound, calm⟩ := h.sound_and_calm
  refine ⟨?_, fun t => ?_⟩
  · refine events_settle .eol _ sound (Nat.le_trans (cost_le .eol c.stack) ?_)
    have depth := sound.depth
    unfold Limits.maxFrameDepth at depth
    unfold Limits.maxEpsilonSteps
    omega
  · intro c'
    have sound' : Sound c' := sound.of_same rfl rfl
    have calm' : Calm c' := ⟨calm.1, calm.2, calm.3⟩
    have inTime : Decided t Limits.maxEpsilonSteps c' := (decided sound' calm' t).mono (by decide)
    have astray : GoesAstray t c' → ¬EndsWithin t Limits.maxEpsilonSteps c' := by
      rintro ⟨c'', through, strays⟩
      exact not_endsWithin_of_passesThrough through strays.endless _
    rcases events_offerToken t Limits.maxEpsilonSteps c' with ⟨ends, events⟩ | ⟨cut, events⟩
    · exact .inl ⟨fun lost => astray lost ends, ends, events⟩
    · exact .inr ⟨inTime.resolve_left cut, cut, events⟩

/-- A closing parenthesis at the start of a source goes astray; a name does not. -/
theorem cut_iff_goesAstray_closeParen :
    GoesAstray (.symbol .closeParen .start .start) {}
      ∧ (({} : Classifier).inform (some (.symbol .closeParen .start .start))).events
        = [stepLimitEvent]
      ∧ (({} : Classifier).inform (some (.symbol .identifier .start .start))).events = [] := by
  have strays : GoesAstray (.symbol .closeParen .start .start) {} :=
    ⟨{ stack := [.declarations { scope := .unit }, .bottom], blocks := [{ context := .global }] },
      .single rfl, ⟨rfl, rfl, rfl⟩, ⟨_, _, rfl, rfl, rfl⟩, by decide, by decide, by decide⟩
  obtain ⟨-, tokens⟩ := cut_iff_goesAstray .new
  refine ⟨strays, ?_, ?_⟩
  · rcases tokens (.symbol .closeParen .start .start) with ⟨found, -⟩ | ⟨-, -, cut⟩
    · exact (found strays).elim
    · exact cut
  · rcases tokens (.symbol .identifier .start .start) with ⟨-, -, whole⟩ | ⟨⟨c, -, lost⟩, -⟩
    · exact whole
    · exact absurd lost.lost (by decide)

end BasicLexis.Classifier
