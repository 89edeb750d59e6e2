import BasicLexis.Proofs.Classifier.Opening
import BasicLexis.Proofs.Classifier.StepLimit

set_option autoImplicit false

/-! # What follows a name or a literal

After a name the classifier gives no hint at all, and after a literal none that would let a
less-than sign open an XML literal or a name be an XML name. This holds wherever the token stands:
the frame that uses it up, or the one that is left on top when there is no room for another, waits
for something else than an operand. -/

namespace BasicLexis.Classifier

/-- A name or a literal. -/
def isOperandToken (kind : TokenKind) : Bool := kind == .identifier || kind.isLiteral

/-- The hints that may be given after a name or a literal. A literal in the place of an imported
    name leaves the import where it was, so a single tag may still follow. -/
def shuts (kind : TokenKind) (h : Hints) : Bool :=
  !h.xmlMayStart && !h.xmlNameNext && (kind.isLiteral || !h.singleTagNext)

/-- After a name no hint may be given. -/
theorem eq_of_shuts_identifier {h : Hints} (shut : shuts .identifier h = true) : h = {} := by
  obtain ⟨mayStart, nameNext, singleTag⟩ := h
  cases mayStart <;> cases nameNext <;> cases singleTag <;> first | rfl | cases shut

/-- A frame goes on top of another. -/
def Action.isPush : Action → Bool
  | push _ => true
  | _ => false

namespace Frame

/-- The frame waits for a token, and tells nothing about it that may not be told. -/
def waitsShut (kind : TokenKind) (f : Frame) : Bool := f.epsilon?.isNone && shuts kind f.hints

/-- The same, or the frame goes on by opening another one. -/
def standsShut (kind : TokenKind) (f : Frame) : Bool :=
  shuts kind f.hints && f.epsilon?.all (·.action.isPush)

end Frame

namespace Outcome

/-- The outcome announces that `End` and a keyword close a frame further down. -/
def closesBlock (o : Outcome) : Bool :=
  match o.signal with
  | some (.closesBlock _) => true
  | _ => false

/-- Whoever uses up the token waits afterwards and tells nothing that may not be told, and so does a
    frame that finds no room for another. -/
def leavesShut (kind : TokenKind) (o : Outcome) : Bool :=
  match o.action with
  | .stay => !o.consumed || o.frame.waitsShut kind
  | .push child => o.frame.standsShut kind && (!o.consumed || child.waitsShut kind)
  | .pop | .replace _ => !o.consumed
  | .pushBoth _ _ => false

end Outcome

/-- The tokens that are names or literals. -/
theorem isOperandToken_cases {kind : TokenKind} (h : isOperandToken kind = true) :
    kind ∈ [TokenKind.identifier, .literalInteger, .literalString, .literalCharacter,
      .literalDecimal, .literalSingle, .literalDouble, .literalDate] := by
  cases kind <;> first | decide | cases h

/-- What a frame makes of a name or a literal, case by case. -/
theorem leavesShut_move {kind : TokenKind} (h : isOperandToken kind = true) {f : Frame}
    (bracketed : f.bracketed = true) :
    ((f.move kind).leavesShut kind && !(f.move kind).closesBlock) = true := by
  have kinds := isOperandToken_cases h
  simp only [List.mem_cons, List.not_mem_nil, or_false] at kinds
  -- for a fixed kind of token, the step of a frame determines the outcome
  rcases kinds with rfl | rfl | rfl | rfl | rfl | rfl | rfl | rfl
  all_goals cases f with
    | bottom | restOfLine | optionalExpression => rfl
    | declarations list =>
      obtain ⟨scope, step, bodiless, custom⟩ := list
      cases step <;> cases scope <;> rfl
    | member header =>
      obtain ⟨word, body, step⟩ := header
      cases step <;> rfl
    | accessors list =>
      obtain ⟨owner, step, seen⟩ := list
      cases step <;> cases seen <;> rfl
    | statements list =>
      obtain ⟨closing, stops, singleLine, step⟩ := list
      cases step <;> rfl
    | headedBlock block =>
      obtain ⟨word, step⟩ := block
      dsimp only [Frame.move, Frame.epsilon?]
      cases step
      all_goals
        dsimp only [Option.getD]
        repeat' split
        all_goals rfl
    | expression e =>
      obtain ⟨step, started, continued⟩ := e
      cases step <;> rfl
    | group g =>
      obtain ⟨close, step⟩ := g
      simp only [Frame.bracketed, Bool.or_eq_true, beq_iff_eq] at bracketed
      rcases bracketed with rfl | rfl
      all_goals cases step <;> rfl
    | lambda l =>
      show ((l.offer _).leavesShut _ && !(l.offer _).closesBlock) = true
      unfold Lambda.offer
      dsimp only
      repeat' split
      all_goals first | rfl | contradiction
    | query q =>
      obtain ⟨step, clause⟩ := q
      cases step <;> rfl
    | xmlLiteral x =>
      show ((x.offer _).leavesShut _ && !(x.offer _).closesBlock) = true
      unfold XmlLiteral.offer
      cases x.isComplete <;> rfl
    | skipParens depth => rfl
    | attributeList step | imports step | typeName step | parameters step | enumBody step
    | declarators step | statement step | ifBlock step | selectBlock step | doBlock step
    | forBlock step | tryBlock step | expressionList step | newObject step | xmlNamespace step =>
      cases step <;> rfl

/-! ## The walk of a name or a literal -/

/-- The frame on top waits and tells nothing that may not be told, or it wants to open another one
    for which there is no room. -/
def Shut (kind : TokenKind) (c : Classifier) : Prop :=
  ∃ f below, c.stack = f :: below
    ∧ (f.waitsShut kind = true
      ∨ (f.standsShut kind = true ∧ Limits.maxFrameDepth ≤ c.stack.length))

/-- What the classifier tells then. -/
theorem shuts_settle {kind : TokenKind} {c : Classifier} (h : Shut kind c) (n : Nat) :
    shuts kind (settle (n + 1) c).hints = true := by
  obtain ⟨f, below, hs, top⟩ := h
  rw [settle, hs]
  dsimp only
  simp only [Frame.waitsShut, Frame.standsShut, Bool.and_eq_true] at top
  cases moves : f.epsilon? with
  | none => exact top.elim (·.2) (·.1.1)
  | some o =>
    rw [moves] at top
    rcases top with waits | ⟨⟨-, opens⟩, full⟩
    · cases waits.1
    · have noRoom : o.fits (some Limits.maxFrameDepth) below = false := by
        rw [Option.all_some] at opens
        unfold Outcome.fits
        cases action : o.action with
        | push child =>
          rw [hs, List.length_cons] at full
          exact decide_eq_false (Nat.not_lt_of_le full)
        | _ =>
          rw [action] at opens
          cases opens
      dsimp only
      rw [← Prod.eta (apply _ _ _), (apply_of_not_fits (c := { c with stack := below }) noRoom).1]
      dsimp only
      unfold shuts
      simp

/-- The frames after an outcome that ends the walk of a name or a literal. -/
theorem shut_of_leavesShut {kind : TokenKind} {c : Classifier} {t : Token} {o : Outcome}
    (h : o.leavesShut kind = true) (room : c.stack.length < Limits.maxFrameDepth)
    (finished : o.consumed = true ∨ (c.perform t o).2 = false) : Shut kind (c.perform t o).1 := by
  obtain ⟨c', performed, stack, -⟩ := perform_eq_apply c t o
  rw [performed] at finished ⊢
  rw [← stack] at room
  unfold Outcome.leavesShut at h
  unfold apply at finished ⊢
  cases action : o.action with
  | stay =>
    simp only [action, Bool.or_eq_true, Bool.not_eq_true'] at h finished
    have used : o.consumed = true := by simpa using finished
    rw [used] at h
    exact ⟨o.frame, c'.stack, rfl, .inl (by simpa using h)⟩
  | pop =>
    simp only [action, Bool.not_eq_true'] at h finished
    simp [h] at finished
  | replace next =>
    simp only [action, Bool.not_eq_true'] at h finished
    rw [h] at finished
    have accepted :=
      (push_of_room (c := c'.discard o.frame) next (by rw [stack_discard]; exact room)).1
    simp [accepted] at finished
  | pushBoth first second => simp [action] at h
  | push child =>
    simp only [action, Bool.and_eq_true, Bool.or_eq_true, Bool.not_eq_true'] at h finished
    dsimp only
    by_cases full : Limits.maxFrameDepth ≤ (c'.putBack o.frame).stack.length
    · have kept := (push_of_full child full).2
      exact ⟨o.frame, c'.stack, kept, .inr ⟨h.1, by rw [kept]; exact full⟩⟩
    · obtain ⟨accepted, pushed, -⟩ := push_of_room child (Nat.lt_of_not_le full)
      have used : o.consumed = true := by simpa [accepted] using finished
      exact ⟨child, _, pushed, .inl (by simpa [used] using h.2)⟩

/-- While a mismatched `End` is not pending, the walk of a name or a literal ends with the frame
    that waits. -/
theorem shut_of_not_passed {c : Classifier} {t : Token} (h : Sound c) (brackets : Bracketed c)
    (operand : isOperandToken t.kind = true) (noEnd : c.pendingEnd = none)
    (finished : (c.moveOnce t).2 = false) : Shut t.kind (c.moveOnce t).1 := by
  obtain ⟨f, below, hs⟩ := h.exists_top
  obtain ⟨c', g, imposed, hr, moved⟩ := moveOnce_of_stack t hs
  have top : f.bracketed = true := brackets f (by simp [hs])
  have stack := (recover_orderly { c with stack := below } f t.kind).1
  have imposes := imposes_recover { c with stack := below } f t.kind
  rw [hr] at stack imposes
  dsimp only at imposes stack
  have room : c'.stack.length < Limits.maxFrameDepth := by
    have depth := h.depth
    rw [hs] at depth
    rw [stack]
    exact depth
  rw [moved] at finished ⊢
  dsimp only at finished
  have decided (g : Frame) (bracketed : g.bracketed = true)
      (finished : (!(g.move t.kind).consumed && (c'.perform t (g.move t.kind)).2) = false) :
      Shut t.kind (c'.perform t (g.move t.kind)).1 := by
    obtain ⟨leaves, -⟩ := Bool.and_eq_true_iff.1 (leavesShut_move operand bracketed)
    apply shut_of_leavesShut leaves room
    cases used : (g.move t.kind).consumed with
    | true => exact .inl rfl
    | false => exact .inr (by simpa [used] using finished)
  cases imposes with
  | ends => cases finished
  | nextVariables => cases finished
  | stops bottom ended =>
    rcases ended with eof | pending
    · rw [eof] at operand
      cases operand
    · rw [noEnd] at pending
      cases pending
  | closes pending =>
    rw [noEnd] at pending
    cases pending
  | free => exact decided f top finished
  | freshLine => exact decided f.restartLine ((bracketed_restartLine f).trans top) finished

/-- What every move keeps while a name or a literal is passed on. -/
structure Offering (c : Classifier) : Prop where
  sound : Sound c
  brackets : Bracketed c
  noEnd : c.pendingEnd = none

theorem Offering.moveOnce {c : Classifier} {t : Token} (h : Offering c)
    (operand : isOperandToken t.kind = true) : Offering (c.moveOnce t).1 := by
  refine ⟨h.sound.moveOnce t, h.brackets.moveOnce t, ?_⟩
  obtain ⟨f, below, hs⟩ := h.sound.exists_top
  obtain ⟨c', g, imposed, hr, moved⟩ := moveOnce_of_stack t hs
  have top : f.bracketed = true := h.brackets f (by simp [hs])
  have imposes := imposes_recover { c with stack := below } f t.kind
  have noEnd := pendingEnd_recover (c := { c with stack := below }) h.noEnd f t.kind
  rw [hr] at imposes noEnd
  dsimp only at imposes noEnd
  have silent (o : Outcome) (h : o.closesBlock = false) : (c'.perform t o).1.pendingEnd = none := by
    rw [(SamePending.perform c' t o).pendingEnd]
    unfold Outcome.closesBlock at h
    unfold announce
    split
    · next signal => simp [signal] at h
    · exact noEnd
    · exact noEnd
    · exact noEnd
  rw [moved]
  cases imposes with
  | ends | stops | closes | nextVariables => exact silent _ rfl
  | free => exact silent _ (by simpa using (Bool.and_eq_true_iff.1 (leavesShut_move operand top)).2)
  | freshLine =>
    exact silent _ (by simpa using (Bool.and_eq_true_iff.1
      (leavesShut_move operand ((bracketed_restartLine f).trans top))).2)

/-- Names and literals are operands, so they do not go astray. -/
theorem isLost_of_operand {kind : TokenKind} (h : isOperandToken kind = true) :
    isLost kind = false := by
  have kinds := isOperandToken_cases h
  simp only [List.mem_cons, List.not_mem_nil, or_false] at kinds
  rcases kinds with rfl | rfl | rfl | rfl | rfl | rfl | rfl | rfl <;> rfl

/-- **No operand follows a name or a literal.** Whatever a new classifier was told before, after a
    name or a literal it does not tell that an XML literal or an XML name may follow, nor, after a
    name, that a single tag may. -/
theorem shuts_ask {c : Classifier} (h : Reachable c) {t : Token}
    (operand : isOperandToken t.kind = true) : shuts t.kind (c.ask t).hints = true := by
  obtain ⟨sound, calm⟩ := h.sound_and_calm
  have offering : Offering { c with lastLocation := t.start } :=
    ⟨sound.of_same rfl rfl, h.bracketed, calm.pendingEnd⟩
  have inTime : EndsWithin t Limits.maxEpsilonSteps { c with lastLocation := t.start } := by
    rcases (decided offering.sound ⟨calm.1, calm.2, calm.3⟩ t).mono (m := Limits.maxEpsilonSteps)
      (by decide) with ends | ⟨_, -, strays⟩
    · exact ends
    · have lost := strays.lost
      rw [isLost_of_operand operand] at lost
      cases lost
  have shut : Shut t.kind (c.inform (some t)).state :=
    state_offerToken_of_moves (fun c (h : Offering c) _ => h.moveOnce operand)
      (fun c h finished => shut_of_not_passed h.sound h.brackets operand h.noEnd finished) offering inTime
  exact shuts_settle shut _

end BasicLexis.Classifier
