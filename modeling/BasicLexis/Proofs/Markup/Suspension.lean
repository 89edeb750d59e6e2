import BasicLexis.Proofs.Classifier.Opening
import BasicLexis.Proofs.Classifier.Representation
import BasicLexis.Proofs.Markup.Literal

set_option autoImplicit false

/-! # The literals on the classifier's stack

While an embedded expression is read, the literal around it waits further down on the classifier's
stack. As long as no error is recorded, a token can do little to the literals that wait. Ordinary
tokens leave them as they are, unless some of them end together with the frames above them
(`suspends_ask`); the mark that ends an embedded expression is taken by the innermost that is left
(`resumes_ask`); and a literal is added only by a token that begins one (`begins_ask`). -/

namespace BasicLexis.Markup

open Classifier

/-- The literal that a frame follows. -/
def literal? : Frame → Option XmlLiteral
  | .xmlLiteral x => some x
  | _ => none

/-- The literals on a stack, innermost first. -/
def literals (stack : List Frame) : List XmlLiteral := stack.filterMap literal?

/-- The classifier's frame for a literal while an embedded expression of it is read. -/
def suspended (f : MarkupFrame) : XmlLiteral := { mirror f with inExpression := true }

/-- The literals on the stack all wait for the end of an embedded expression, and are among the
    given ones, in the same order. -/
def Suspends (outer : List MarkupFrame) (stack : List Frame) : Prop :=
  ∃ kept : List MarkupFrame, kept.Sublist outer ∧ literals stack = kept.map suspended

theorem literals_cons_of_plain {f : Frame} (h : f.isXmlLiteral = false) (below : List Frame) :
    literals (f :: below) = literals below := by
  cases f with
  | xmlLiteral x => cases h
  | _ => rfl

theorem Suspends.of_literals {outer : List MarkupFrame} {stack stack' : List Frame}
    (h : Suspends outer stack) (same : literals stack' = literals stack) :
    Suspends outer stack' := by
  obtain ⟨kept, among, eq⟩ := h
  exact ⟨kept, among, same.trans eq⟩

/-- The frame on top may end. -/
theorem Suspends.below {outer : List MarkupFrame} {f : Frame} {below : List Frame}
    (h : Suspends outer (f :: below)) : Suspends outer below := by
  cases f with
  | xmlLiteral x =>
    obtain ⟨kept, among, eq⟩ := h
    cases kept with
    | nil => cases eq
    | cons g kept => exact ⟨kept, (List.sublist_cons_self g kept).trans among, (List.cons.inj eq).2⟩
  | _ => exact h

/-! ## Moves without an error -/

/-- What a move without an error can do to the stack, and whether the token is passed on. -/
inductive Leads (kind : TokenKind) (f : Frame) (below : List Frame) : List Frame → Bool → Prop where
  /-- The frame ends. -/
  | ends {passed : Bool} : Leads kind f below below passed
  /-- The bottom uses up the token. -/
  | stops (bottom : f = .bottom) : Leads kind f below (f :: below) false
  /-- A loop goes on with the variables after `Next`. -/
  | nextVariables (loop : f = .forBlock .body) :
      Leads kind f below (.forBlock .nextVariables :: below) true
  /-- The frame itself, or the same list at the start of a line, decides. -/
  | decides (g : Frame) (same : g = f ∨ f.isStatementList = true ∧ g = f.restartLine)
      (fits : (g.move kind).misplaced = false) :
      Leads kind f below ((g.move kind).stackOn below) (!(g.move kind).consumed)

theorem leads_moveOnce {c : Classifier} {t : Token} {f : Frame} {below : List Frame}
    (hs : c.stack = f :: below) (clean : (c.moveOnce t).1.errors = #[]) :
    Leads t.kind f below (c.moveOnce t).1.stack (c.moveOnce t).2 := by
  obtain ⟨c', g, imposed, hr, moved⟩ := moveOnce_of_stack t hs
  have stack := (recover_orderly { c with stack := below } f t.kind).1
  have imposes := imposes_recover { c with stack := below } f t.kind
  rw [hr] at stack imposes
  dsimp only at stack imposes
  rw [moved] at clean ⊢
  dsimp only at clean ⊢
  obtain ⟨fits, stack', accepted⟩ := clean_perform clean
  rw [stack', accepted, stack, Bool.and_true]
  cases imposes with
  | ends => exact .ends
  | stops bottom => exact .stops bottom
  | closes => exact .ends
  | nextVariables loop => exact .nextVariables loop
  | free => exact .decides f (.inl rfl) fits
  | freshLine list => exact .decides f.restartLine (.inr ⟨list, rfl⟩) fits

/-! ## Tokens that begin no literal -/

theorem isXmlLiteral_of_alike {f g : Frame} (h : Alike f g) : g.isXmlLiteral = f.isXmlLiteral := by
  have byContext (f : Frame) : f.isXmlLiteral = (f.context? == some .xml) := by
    cases f with
    | declarations list =>
      obtain ⟨scope, step, bodiless, custom⟩ := list
      cases scope <;> rfl
    | _ => rfl
  rw [byContext, byContext, h.context]

/-- What a frame that follows no literal makes of a token that begins none leaves the literals as
    they are. -/
theorem literals_stackOn {kind : TokenKind} {g : Frame} {o : Outcome} (alike : Alike g o.frame)
    (opens : Opens kind g o) (plain : g.isXmlLiteral = false)
    (noStart : startsXmlLiteral kind = false) (below : List Frame) :
    literals (o.stackOn below) = literals below := by
  have kept : o.frame.isXmlLiteral = false := (isXmlLiteral_of_alike alike).trans plain
  have opened (child : Frame) (mem : child ∈ o.opened) : child.isXmlLiteral = false := by
    have may := List.all_eq_true.1 opens.opened child mem
    simpa [Frame.mayOpen, noStart] using (Bool.and_eq_true_iff.1 may).2
  unfold Outcome.stackOn
  unfold Outcome.opened at opened
  cases action : o.action with
  | stay => exact literals_cons_of_plain kept below
  | pop => rfl
  | push child =>
    rw [action] at opened
    dsimp only
    rw [literals_cons_of_plain (opened child (by simp)), literals_cons_of_plain kept]
  | replace next =>
    rw [action] at opened
    exact literals_cons_of_plain (opened next (by simp)) below
  | pushBoth first second =>
    rw [action] at opened
    dsimp only
    rw [literals_cons_of_plain (opened second (by simp)),
      literals_cons_of_plain (opened first (by simp)), literals_cons_of_plain kept]

theorem literals_of_leads {kind : TokenKind} {f : Frame} {below stack : List Frame} {passed : Bool}
    (h : Leads kind f below stack passed) (plain : f.isXmlLiteral = false)
    (noStart : startsXmlLiteral kind = false) : literals stack = literals below := by
  cases h with
  | ends => rfl
  | stops => exact literals_cons_of_plain plain below
  | nextVariables => rfl
  | decides g same fits =>
    refine literals_stackOn (orderly_move g kind).alike (opens_move g kind) ?_ noStart below
    rcases same with rfl | ⟨list, rfl⟩
    · exact plain
    · cases f <;> first | rfl | cases list

/-- All literals on the stack wait, except that the frame on top may follow one that is complete. -/
inductive Loose (outer : List MarkupFrame) : List Frame → Prop where
  | waiting {stack : List Frame} (h : Suspends outer stack) : Loose outer stack
  | leaving {f : MarkupFrame} {below : List Frame} (complete : f.isComplete = true)
      (h : Suspends outer below) : Loose outer (.xmlLiteral (mirror f) :: below)

/-- What becomes of the literals that wait: they still do, or the innermost of them took the mark
    that ends its embedded expression. -/
inductive Taken (outer : List MarkupFrame) (kind : TokenKind) : List Frame → Prop where
  | waiting {stack : List Frame} (h : Suspends outer stack) : Taken outer kind stack
  | resumed {f : MarkupFrame} {kept : List MarkupFrame} {below : List Frame}
      (mark : kind = .xmlExpressionEnd) (among : (f :: kept).Sublist outer)
      (rest : literals below = kept.map suspended) :
      Taken outer kind (.xmlLiteral (mirror f) :: below)

/-- A token of ordinary source, or the mark that ends an embedded expression. -/
def isOutside (kind : TokenKind) : Bool := !kind.isXml || kind == .xmlExpressionEnd

theorem noStart_of_isOutside {kind : TokenKind} (h : isOutside kind = true) :
    startsXmlLiteral kind = false := by
  cases kind <;> first | rfl | cases h

/-- A literal that waits passes over ordinary tokens or finds them misplaced, and takes the mark
    that ends its embedded expression. -/
theorem move_suspended (f : MarkupFrame) {kind : TokenKind} (h : isOutside kind = true)
    (fits : ((Frame.xmlLiteral (suspended f)).move kind).misplaced = false) :
    (Frame.xmlLiteral (suspended f)).move kind = .consume (.xmlLiteral (suspended f))
      ∨ (kind = .xmlExpressionEnd
        ∧ (Frame.xmlLiteral (suspended f)).move kind = .consume (.xmlLiteral (mirror f))) := by
  have incomplete : (suspended f).isComplete = false := by simp [suspended, XmlLiteral.isComplete]
  change ((suspended f).offer kind).misplaced = false at fits
  change (suspended f).offer kind = _ ∨ _ ∧ (suspended f).offer kind = _
  unfold XmlLiteral.offer at fits ⊢
  rw [incomplete, if_neg Bool.false_ne_true] at fits ⊢
  cases kind with
  | identifier | assign | literalString => exact .inl rfl
  | xmlExpressionEnd => exact .inr ⟨rfl, rfl⟩
  | _ => first | (cases h; done) | cases fits

/-- A complete literal ends before any token but a comment. -/
theorem move_complete {f : MarkupFrame} (complete : f.isComplete = true) {kind : TokenKind}
    (h : isOutside kind = true) :
    (Frame.xmlLiteral (mirror f)).move kind = .pop (.xmlLiteral (mirror f)) := by
  have noComment : kind ≠ .xmlComment := by
    rintro rfl
    cases h
  show (mirror f).offer kind = _
  unfold XmlLiteral.offer
  rw [isComplete_mirror, complete, if_pos rfl, if_neg noComment]

/-- One move without an error. -/
theorem loose_of_leads {outer : List MarkupFrame} {kind : TokenKind} {f : Frame}
    {below stack : List Frame} {passed : Bool} (h : Loose outer (f :: below))
    (outside : isOutside kind = true) (leads : Leads kind f below stack passed) :
    (passed = true → Loose outer stack) ∧ (passed = false → Taken outer kind stack) := by
  have waiting {stack : List Frame} (h : Suspends outer stack) :
      (passed = true → Loose outer stack) ∧ (passed = false → Taken outer kind stack) :=
    ⟨fun _ => .waiting h, fun _ => .waiting h⟩
  cases h with
  | waiting h =>
    cases f with
    | xmlLiteral x =>
      obtain ⟨kept, among, eq⟩ := h
      cases kept with
      | nil => cases eq
      | cons g kept =>
        obtain ⟨rfl, rest⟩ := List.cons.inj eq
        -- the frame on top is the innermost literal that waits
        have all : Suspends outer (.xmlLiteral (suspended g) :: below) := ⟨g :: kept, among, eq⟩
        cases leads with
        | ends => exact waiting all.below
        | stops bottom => cases bottom
        | nextVariables loop => cases loop
        | decides g' same fits =>
          obtain rfl : g' = .xmlLiteral (suspended g) := by
            rcases same with rfl | ⟨list, -⟩
            · rfl
            · cases list
          rcases move_suspended g outside fits with stays | ⟨mark, takes⟩
          · rw [stays] at waiting ⊢
            exact waiting all
          · rw [takes]
            exact ⟨nofun, fun _ => .resumed mark among rest⟩
    | _ =>
      exact waiting (h.below.of_literals
        (literals_of_leads leads rfl (noStart_of_isOutside outside)))
  | leaving complete h =>
    -- the complete literal ends, whether the state or the frame itself decides so
    cases leads with
    | ends => exact waiting h
    | stops bottom => cases bottom
    | nextVariables loop => cases loop
    | decides g' same fits =>
      obtain rfl : g' = _ := by
        rcases same with rfl | ⟨list, -⟩
        · rfl
        · cases list
      rw [move_complete complete outside] at waiting ⊢
      exact waiting h

/-- The whole walk of a token, if no error was recorded on the way. -/
theorem taken_offerToken {outer : List MarkupFrame} {t : Token} (outside : isOutside t.kind = true)
    (n : Nat) {c : Classifier} (sound : Sound c) (h : Loose outer c.stack)
    (clean : (offerToken n c t).state.errors = #[]) :
    Taken outer t.kind (offerToken n c t).state.stack := by
  induction n generalizing c with
  | zero => exact absurd clean (errors_record_ne _ _)
  | succ n ih =>
    obtain ⟨f, below, hs⟩ := sound.exists_top
    rw [hs] at h
    rw [offerToken_succ_moveOnce] at clean ⊢
    cases passed : (c.moveOnce t).2 with
    | true =>
      rw [passed, if_pos rfl] at clean
      have clean' := (Grows.offerToken n (c.moveOnce t).1 t).eq_empty clean
      have leads := leads_moveOnce hs clean'
      rw [passed] at leads
      exact ih (sound.moveOnce t) ((loose_of_leads h outside leads).1 rfl) clean
    | false =>
      rw [passed, if_neg Bool.false_ne_true] at clean
      have leads := leads_moveOnce hs clean
      rw [passed] at leads
      exact (loose_of_leads h outside leads).2 rfl

/-- Frames that go on by themselves leave the literals as they are, and a literal on top waits for
    the next token. -/
theorem literals_settle (n : Nat) {c : Classifier} (sound : Sound c)
    (clean : (settle n c).state.errors = #[]) :
    literals (settle n c).state.stack = literals c.stack
      ∧ ∀ x below, c.stack = .xmlLiteral x :: below → (settle n c).state.stack = c.stack := by
  induction n generalizing c with
  | zero => exact absurd clean (errors_record_ne _ _)
  | succ n ih =>
    obtain ⟨f, below, hs⟩ := sound.exists_top
    rw [settle, hs] at clean ⊢
    dsimp only at clean ⊢
    cases moves : f.epsilon? with
    | none =>
      dsimp only
      rw [hs]
      exact ⟨rfl, fun _ _ _ => rfl⟩
    | some o =>
      rw [moves] at clean
      dsimp only at clean ⊢
      have plain : f.isXmlLiteral = false := by
        cases f with
        | xmlLiteral x => cases moves
        | _ => rfl
      have order := (orderly_epsilon? moves).1
      have sound' := (soundBelow_of_sound sound hs).apply order
      have same := literals_stackOn order.alike (opens_epsilon? moves .eof) plain rfl below
      refine ⟨?_, fun x lower top => by cases top; cases plain⟩
      cases fits : o.fits (some Limits.maxFrameDepth) below with
      | false =>
        -- a frame without room would have been recorded
        rw [← Prod.eta (apply _ _ _),
          (apply_of_not_fits (c := { c with stack := below }) fits).1] at clean
        have refused := accepted_apply clean
        rw [(apply_of_not_fits (c := { c with stack := below }) fits).1] at refused
        cases refused
      | true =>
        obtain ⟨accepted, stack, -⟩ := apply_of_fits (c := { c with stack := below }) fits
        rw [← Prod.eta (apply _ _ _), accepted] at clean ⊢
        dsimp only at clean ⊢
        rw [(ih sound' clean).1, stack, same, literals_cons_of_plain plain]

/-- What the literals are once the frames above them have gone on by themselves. -/
theorem literals_ask {c : Classifier} {t : Token} (reachable : Reachable c)
    (clean : (c.ask t).state.errors = #[]) :
    literals (c.ask t).state.stack = literals (c.inform (some t)).state.stack
      ∧ ∀ x below, (c.inform (some t)).state.stack = .xmlLiteral x :: below →
        (c.ask t).state.stack = .xmlLiteral x :: below := by
  obtain ⟨same, rests⟩ := literals_settle _ (reachable.inform (some t)).sound_and_calm.1 clean
  exact ⟨same, fun x below top => (rests x below top).trans top⟩

/-- What a token that begins no literal does to those on the stack. -/
theorem taken_inform {outer : List MarkupFrame} {c : Classifier} {t : Token}
    (reachable : Reachable c) (outside : isOutside t.kind = true) (h : Loose outer c.stack)
    (clean : (c.ask t).state.errors = #[]) :
    Taken outer t.kind (c.inform (some t)).state.stack :=
  taken_offerToken outside _ (reachable.sound_and_calm.1.of_same rfl rfl) h
    ((Grows.inform _ none).eq_empty clean)

/-- **Literals wait during ordinary tokens**, if no error was recorded. -/
theorem suspends_ask {outer : List MarkupFrame} {c : Classifier} {t : Token}
    (reachable : Reachable c) (plain : t.kind.isXml = false) (h : Loose outer c.stack)
    (clean : (c.ask t).state.errors = #[]) : Suspends outer (c.ask t).state.stack := by
  have walked := taken_inform reachable (by simp [isOutside, plain]) h clean
  have same := (literals_ask reachable clean).1
  generalize (c.inform (some t)).state.stack = stack at walked same
  cases walked with
  | waiting h => exact h.of_literals same
  | resumed mark =>
    rw [mark] at plain
    cases plain

/-! ## The mark that ends an embedded expression -/

/-- The frame takes the next token, or the rest of the line, whatever the tokens are. -/
def heedless : Frame → Bool
  | .restOfLine | .skipParens _ => true
  | .statements { step := .skip, .. } => true
  | .declarations { step := .afterEnd, .. } => true
  | .member { step := .name, .. } => true
  | _ => false

theorem heedless_restartLine {f : Frame} (h : heedless f = false) :
    heedless f.restartLine = false := by
  cases f <;> first | rfl | exact h

/-- The mark is passed on, nothing is announced, and no frame is opened that would take it. -/
structure PassesMark (o : Outcome) : Prop where
  passed : o.consumed = false
  silent : o.signal = none
  frame : heedless o.frame = false
  opened : o.opened.all (!heedless ·) = true

/-- Frames other than those of literals pass the mark on, or find it misplaced. -/
theorem passesMark_move {f : Frame} (heeds : heedless f = false) (bracketed : f.bracketed = true)
    (plain : f.isXmlLiteral = false) (fits : (f.move .xmlExpressionEnd).misplaced = false) :
    PassesMark (f.move .xmlExpressionEnd) := by
  cases f with
  | xmlLiteral x => cases plain
  | restOfLine | skipParens => cases heeds
  | bottom | optionalExpression => exact ⟨rfl, rfl, rfl, rfl⟩
  | attributeList step | imports step | typeName step | parameters step | declarators step
  | enumBody step | statement step | ifBlock step | selectBlock step | doBlock step | forBlock step
  | tryBlock step | expressionList step | newObject step | xmlNamespace step =>
    cases step
    all_goals first
      | exact ⟨rfl, rfl, rfl, rfl⟩
      | cases fits
  | headedBlock b =>
    obtain ⟨kind, step⟩ := b
    cases step <;> exact ⟨rfl, rfl, rfl, rfl⟩
  | expression e =>
    obtain ⟨step, started, continued⟩ := e
    cases step <;> exact ⟨rfl, rfl, rfl, rfl⟩
  | query q =>
    obtain ⟨step, clause⟩ := q
    cases step <;> exact ⟨rfl, rfl, rfl, rfl⟩
  | group g =>
    obtain ⟨close, step⟩ := g
    have closes : close = .closeParen ∨ close = .closeBrace := by
      simpa [Frame.bracketed] using bracketed
    rcases closes with rfl | rfl <;> cases step <;> exact ⟨rfl, rfl, rfl, rfl⟩
  | lambda l =>
    obtain ⟨word, step⟩ := l
    cases step with
    | parameters => exact ⟨rfl, rfl, rfl, rfl⟩
    | afterParameters =>
      have move : (Frame.lambda ⟨word, .afterParameters⟩).move .xmlExpressionEnd
          = if word = .Function then .replace (.lambda ⟨word, .afterParameters⟩) .newExpression
            else .replace (.lambda ⟨word, .afterParameters⟩) (.statement .lambdaBody) := rfl
      rw [move]
      split <;> exact ⟨rfl, rfl, rfl, rfl⟩
  | member m =>
    obtain ⟨kind, body, step⟩ := m
    cases step with
    | name => cases heeds
    | afterName => cases fits
    | openParen | clause => exact ⟨rfl, rfl, rfl, rfl⟩
  | accessors a =>
    obtain ⟨owner, step, seen⟩ := a
    cases step with
    | afterEnd => cases fits
    | start =>
      cases seen with
      | false => exact ⟨rfl, rfl, rfl, rfl⟩
      | true => cases fits
  | declarations d =>
    obtain ⟨scope, step, bodiless, custom⟩ := d
    cases step with
    | afterEnd => cases heeds
    | start =>
      cases scope with
      | unit => exact ⟨rfl, rfl, rfl, rfl⟩
      | _ => cases fits
  | statements s =>
    obtain ⟨closing, stops, singleLine, step⟩ := s
    cases step with
    | start | afterEnd => exact ⟨rfl, rfl, rfl, rfl⟩
    | afterStatement => cases fits
    | skip => cases heeds

/-- A literal takes the mark if it waits for it, and ends before the mark if it is complete. -/
theorem move_mark {x : XmlLiteral}
    (fits : ((Frame.xmlLiteral x).move .xmlExpressionEnd).misplaced = false) :
    (Frame.xmlLiteral x).move .xmlExpressionEnd = .pop (.xmlLiteral x)
      ∨ ∃ x' : XmlLiteral, x'.inExpression = false
        ∧ (Frame.xmlLiteral x).move .xmlExpressionEnd = .consume (.xmlLiteral x') := by
  change (x.offer .xmlExpressionEnd).misplaced = false at fits
  change x.offer .xmlExpressionEnd = _ ∨ ∃ x' : XmlLiteral, _ ∧ x.offer .xmlExpressionEnd = _
  unfold XmlLiteral.offer at fits ⊢
  cases complete : x.isComplete with
  | true => exact .inl rfl
  | false =>
    rw [complete] at fits
    cases waits : x.inExpression with
    | true =>
      exact .inr ⟨{ x with started := true, inExpression := false }, rfl,
        by simp [XmlLiteral.after?]⟩
    | false => simp [XmlLiteral.after?, waits, Outcome.misplacing] at fits

/-- What every move keeps while the mark is passed on. -/
structure Heeds (c : Classifier) : Prop where
  noEnd : c.pendingEnd = none
  frames : ∀ f ∈ c.stack, heedless f = false
  brackets : Bracketed c

/-- One move without an error: the mark is passed on, or a literal took it. -/
theorem Heeds.moveOnce {c : Classifier} {t : Token} (h : Heeds c) (sound : Sound c)
    (mark : t.kind = .xmlExpressionEnd) (clean : (c.moveOnce t).1.errors = #[]) :
    ((c.moveOnce t).2 = true → Heeds (c.moveOnce t).1)
      ∧ ((c.moveOnce t).2 = false →
        ∃ x below, (c.moveOnce t).1.stack = .xmlLiteral x :: below ∧ x.inExpression = false) := by
  obtain ⟨f, below, hs⟩ := sound.exists_top
  have brackets := h.brackets.moveOnce t
  obtain ⟨c', g, imposed, hr, moved⟩ := moveOnce_of_stack t hs
  have top : heedless f = false := h.frames f (by simp [hs])
  have topBracket : f.bracketed = true := h.brackets f (by simp [hs])
  have stack := (recover_orderly { c with stack := below } f t.kind).1
  have imposes := imposes_recover { c with stack := below } f t.kind
  have noEnd := pendingEnd_recover (c := { c with stack := below }) h.noEnd f t.kind
  rw [hr] at stack imposes noEnd
  dsimp only at stack imposes noEnd
  rw [moved] at clean brackets ⊢
  dsimp only at clean brackets ⊢
  obtain ⟨fits, stackOn, accepted⟩ := clean_perform clean
  rw [accepted, Bool.and_true]
  have keeps {o : Outcome} (brackets : Bracketed (c'.perform t o).1) (passes : PassesMark o) :
      ((!o.consumed) = true → Heeds (c'.perform t o).1)
        ∧ ((!o.consumed) = false → ∃ x lower, (c'.perform t o).1.stack = .xmlLiteral x :: lower
          ∧ x.inExpression = false) := by
    refine ⟨fun _ => ⟨?_, fun g mem => ?_, brackets⟩, fun used => ?_⟩
    · rw [(SamePending.perform c' t o).pendingEnd, passes.silent]
      exact noEnd
    · rcases mem_stack_perform mem with rfl | opened | lower
      · exact passes.frame
      · simpa using List.all_eq_true.1 passes.opened g opened
      · rw [stack] at lower
        exact h.frames g (by simp [hs, lower])
    · rw [passes.passed] at used
      cases used
  -- what the state imposes uses up no mark, as no `End` is pending
  cases imposes with
  | ends => exact keeps brackets ⟨rfl, rfl, top, rfl⟩
  | nextVariables => exact keeps brackets ⟨rfl, rfl, rfl, rfl⟩
  | stops _ due =>
    rw [mark, h.noEnd] at due
    rcases due with eof | pending
    · cases eof
    · cases pending
  | closes due =>
    rw [h.noEnd] at due
    cases due
  | freshLine list =>
    have plain : f.restartLine.isXmlLiteral = false := by
      cases f <;> first | rfl | cases list
    rw [Option.getD_none, mark] at fits brackets ⊢
    exact keeps brackets (passesMark_move (heedless_restartLine top)
      ((bracketed_restartLine f).trans topBracket) plain fits)
  | free =>
    rw [Option.getD_none, mark] at fits brackets stackOn ⊢
    cases literal : f.isXmlLiteral with
    | false => exact keeps brackets (passesMark_move top topBracket literal fits)
    | true =>
      cases f with
      | xmlLiteral x =>
        rcases move_mark fits with ends | ⟨x', resumed, takes⟩
        · rw [ends] at brackets ⊢
          exact keeps brackets ⟨rfl, rfl, rfl, rfl⟩
        · rw [takes] at stackOn ⊢
          exact ⟨nofun, fun _ => ⟨x', below, stackOn.trans (by rw [stack]; rfl), resumed⟩⟩
      | _ => cases literal

/-- The whole walk of the mark, if no error was recorded on the way: it ends at a literal. -/
theorem Heeds.offerToken {t : Token} (mark : t.kind = .xmlExpressionEnd) (n : Nat) {c : Classifier}
    (h : Heeds c) (sound : Sound c) (clean : (offerToken n c t).state.errors = #[]) :
    ∃ x below, (offerToken n c t).state.stack = .xmlLiteral x :: below
      ∧ x.inExpression = false := by
  induction n generalizing c with
  | zero => exact absurd clean (errors_record_ne _ _)
  | succ n ih =>
    rw [offerToken_succ_moveOnce] at clean ⊢
    cases passed : (c.moveOnce t).2 with
    | true =>
      rw [passed, if_pos rfl] at clean
      have clean' := (Grows.offerToken n (c.moveOnce t).1 t).eq_empty clean
      exact ih ((h.moveOnce sound mark clean').1 passed) (sound.moveOnce t) clean
    | false =>
      rw [passed, if_neg Bool.false_ne_true] at clean
      exact (h.moveOnce sound mark clean).2 passed

/-- **The innermost literal that waits takes the mark**, if no error was recorded and no frame takes
    tokens whatever they are. -/
theorem resumes_ask {outer : List MarkupFrame} {c : Classifier} {t : Token}
    (reachable : Reachable c) (mark : t.kind = .xmlExpressionEnd)
    (heeds : ∀ f ∈ c.stack, heedless f = false) (h : Loose outer c.stack)
    (clean : (c.ask t).state.errors = #[]) :
    ∃ f kept below, (f :: kept).Sublist outer
      ∧ (c.ask t).state.stack = .xmlLiteral (mirror f) :: below
      ∧ literals below = kept.map suspended := by
  have heeds' : Heeds { c with lastLocation := t.start } :=
    ⟨reachable.sound_and_calm.2.pendingEnd, heeds, reachable.bracketed⟩
  obtain ⟨x, lower, top, resumed⟩ := heeds'.offerToken mark Limits.maxEpsilonSteps
    (reachable.sound_and_calm.1.of_same rfl rfl) ((Grows.inform _ none).eq_empty clean)
  have walked := taken_inform reachable (by rw [mark]; rfl) h clean
  have rests := (literals_ask reachable clean).2
  change (c.inform (some t)).state.stack = _ at top
  rw [top] at walked rests
  cases walked with
  | resumed _ among rest => exact ⟨_, _, _, among, rests _ _ rfl, rest⟩
  | waiting h =>
    -- the literal on top would still be among those that wait
    obtain ⟨kept, -, eq⟩ := h
    cases kept with
    | nil => cases eq
    | cons g kept =>
      obtain ⟨rfl, -⟩ := List.cons.inj eq
      cases resumed

/-! ## Tokens that the frame on top uses up -/

/-- Nothing is pending while the frame on top is none that a statement could stand on. -/
theorem quiet_of_top {c : Classifier} (h : Reachable c) {f : Frame} {below : List Frame}
    (hs : c.stack = f :: below) (guest : (f.rests && f.hosts) = false) : Quiet c := by
  obtain ⟨-, calm⟩ := h.sound_and_calm
  refine ⟨calm.pendingEnd, ?_, calm.endStatement⟩
  cases pending : c.pendingNext with
  | false => rfl
  | true =>
    obtain ⟨g, lower, hg, rests, hosts⟩ := calm.host pending
    rw [hs] at hg
    cases hg
    rw [rests, hosts] at guest
    cases guest

/-- The first move of a walk in which no error is recorded. -/
theorem move_of_clean (fuel : Nat) {c : Classifier} {t : Token} {f : Frame} {below : List Frame}
    (quiet : Quiet c) (hs : c.stack = f :: below) (ht : t.kind ≠ .eof)
    (clean : (offerToken (fuel + 1) c t).state.errors = #[]) :
    (f.move t.kind).misplaced = false
      ∧ ∃ c' : Classifier, c'.stack = (f.move t.kind).stackOn below
        ∧ ((f.move t.kind).signal = none → Quiet c')
        ∧ offerToken (fuel + 1) c t
          = if (f.move t.kind).consumed then { state := c' } else offerToken fuel c' t := by
  have step := offerToken_succ_moveOnce fuel c t
  have first : (c.moveOnce t).1.errors = #[] := by
    rw [step] at clean
    split at clean
    · exact (Grows.offerToken fuel _ t).eq_empty clean
    · exact clean
  rw [moveOnce_of_quiet quiet hs ht] at step first
  obtain ⟨fits, stack, accepted⟩ := clean_perform first
  refine ⟨fits, _, stack, fun silent => ?_, ?_⟩
  · have pending := SamePending.perform { c with stack := below } t (f.move t.kind)
    rw [silent] at pending
    exact pending.quiet (quiet_below quiet below)
  · rw [step, accepted]
    cases (f.move t.kind).consumed <;> rfl

/-- The walk of a token starts with the frame on top. -/
theorem move_ask_of_clean {c : Classifier} {t : Token} {f : Frame} {below : List Frame}
    (quiet : Quiet c) (hs : c.stack = f :: below) (ht : t.kind ≠ .eof)
    (clean : (c.ask t).state.errors = #[]) :
    (f.move t.kind).misplaced = false
      ∧ ((f.move t.kind).consumed = true →
        (c.inform (some t)).state.stack = (f.move t.kind).stackOn below) := by
  have quiet' : Quiet { c with lastLocation := t.start } := ⟨quiet.1, quiet.2, quiet.3⟩
  obtain ⟨fits, c', stack, -, walk⟩ :=
    move_of_clean 4095 quiet' hs ht ((Grows.inform _ none).eq_empty clean)
  refine ⟨fits, fun used => ?_⟩
  rw [used, if_pos rfl] at walk
  rw [← stack]
  exact congrArg (·.state.stack) walk

/-- A token that the frame on top uses up. -/
theorem stack_ask_of_consumed {c : Classifier} {t : Token} {f : Frame} {below : List Frame}
    {o : Outcome} (reachable : Reachable c) (quiet : Quiet c) (hs : c.stack = f :: below)
    (ht : t.kind ≠ .eof) (move : f.move t.kind = o) (used : o.consumed = true)
    (clean : (c.ask t).state.errors = #[]) :
    literals (c.ask t).state.stack = literals (o.stackOn below)
      ∧ ∀ x lower, o.stackOn below = .xmlLiteral x :: lower →
        (c.ask t).state.stack = .xmlLiteral x :: lower := by
  subst move
  have stack := (move_ask_of_clean quiet hs ht clean).2 used
  obtain ⟨same, rests⟩ := literals_ask reachable clean
  rw [stack] at same rests
  exact ⟨same, rests⟩

/-! ## Tokens that begin a literal -/

/-- The classifier makes the moves of a walk, unless it records an error. -/
theorem stack_of_walk? {t : Token} (ht : t.kind ≠ .eof) {n : Nat} {c : Classifier}
    {stack : List Frame} (quiet : Quiet c) (h : walk? none t.kind n c.stack = some stack)
    {fuel : Nat} (hn : n ≤ fuel) (clean : (offerToken fuel c t).state.errors = #[]) :
    (offerToken fuel c t).state.stack = stack := by
  induction n generalizing c fuel with
  | zero => cases h
  | succ n ih =>
    obtain ⟨fuel, rfl⟩ : ∃ k, fuel = k + 1 := ⟨fuel - 1, by omega⟩
    cases hs : c.stack with
    | nil =>
      rw [hs] at h
      cases h
    | cons f below =>
      -- the walk knows no bound on the stack, but a refused frame would be an error
      obtain ⟨-, c', stack', quiet', walk⟩ := move_of_clean fuel quiet hs ht clean
      rw [hs, walk?] at h
      split at h
      · next ok =>
        have silent : (f.move t.kind).signal = none := by
          simpa [Outcome.isClean] using (Bool.and_eq_true_iff.1 (Bool.and_eq_true_iff.1 ok).1).2
        rw [walk] at clean ⊢
        cases used : (f.move t.kind).consumed with
        | true =>
          rw [used, if_pos rfl] at h
          exact stack'.trans (Option.some.inj h)
        | false =>
          rw [used, if_neg Bool.false_ne_true] at h clean
          exact ih (quiet' silent) (by rw [stack']; exact h) (Nat.le_of_succ_le_succ hn) clean
      · cases h

/-- The token is found misplaced within so many moves, before which nothing happened. -/
def stumbles (kind : TokenKind) : Nat → List Frame → Bool
  | n + 1, f :: below =>
    (f.move kind).misplaced
      || ((f.move kind).isClean && !(f.move kind).consumed
        && stumbles kind n ((f.move kind).stackOn below))
  | _, _ => false

theorem errors_of_stumbles {t : Token} (ht : t.kind ≠ .eof) {n : Nat} {c : Classifier}
    (quiet : Quiet c) (h : stumbles t.kind n c.stack = true) {fuel : Nat} (hn : n ≤ fuel) :
    (offerToken fuel c t).state.errors ≠ #[] := by
  intro clean
  induction n generalizing c fuel with
  | zero => cases h
  | succ n ih =>
    obtain ⟨fuel, rfl⟩ : ∃ k, fuel = k + 1 := ⟨fuel - 1, by omega⟩
    cases hs : c.stack with
    | nil =>
      rw [hs] at h
      cases h
    | cons f below =>
      obtain ⟨fits, c', stack', quiet', walk⟩ := move_of_clean fuel quiet hs ht clean
      rw [hs, stumbles, fits, Bool.false_or, Bool.and_eq_true, Bool.and_eq_true] at h
      obtain ⟨⟨ok, passed⟩, h⟩ := h
      have silent : (f.move t.kind).signal = none := by
        simpa [Outcome.isClean] using (Bool.and_eq_true_iff.1 ok).2
      rw [walk, if_neg (by simpa using passed)] at clean
      exact ih (quiet' silent) (by rw [stack']; exact h) (Nat.le_of_succ_le_succ hn) clean

/-- A token with which a piece of markup can begin. -/
inductive OpensMarkup : TokenKind → Prop where
  | openTag : OpensMarkup .xmlOpenTag
  | openEndTag : OpensMarkup .xmlOpenEndTag
  | instruction : OpensMarkup .xmlInstructionStart
  | comment : OpensMarkup .xmlComment
  | characterData : OpensMarkup .xmlCData
  | expression : OpensMarkup .xmlExpressionStart

theorem opensMarkup_of_starts {kind : TokenKind} (h : startsXmlLiteral kind = true) :
    OpensMarkup kind := by
  cases kind with
  | xmlOpenTag => exact .openTag
  | xmlInstructionStart => exact .instruction
  | xmlComment => exact .comment
  | xmlCData => exact .characterData
  | _ => cases h

/-- What a token that can begin a literal comes to: it is misplaced, or it has begun a literal on
    top of the stack, with the given literals around it. -/
def Begins (single : Bool) (kind : TokenKind) (n : Nat) (stack : List Frame)
    (around : List XmlLiteral) : Prop :=
  stumbles kind n stack = true
    ∨ ∃ x rest, (mirror (.new single)).after? kind = some x
      ∧ walk? none kind n stack = some (.xmlLiteral x :: rest) ∧ literals rest = around

theorem begins_operand {kind : TokenKind} (opens : OpensMarkup kind) (n : Nat)
    (started continued : Bool) (below : List Frame) :
    Begins false kind (n + 2) (.expression ⟨.operand, started, continued⟩ :: below)
      (literals below) := by
  cases opens with
  | openTag | instruction | comment | characterData => exact .inr ⟨_, _, rfl, rfl, rfl⟩
  | openEndTag | expression => exact .inl rfl

/-- A frame that passes the token on. -/
theorem Begins.of_passed {single : Bool} {f : Frame} {kind : TokenKind} {o : Outcome} {n : Nat}
    {below : List Frame} {around : List XmlLiteral} (move : f.move kind = o)
    (clean : o.isClean = true) (passed : o.consumed = false)
    (h : Begins single kind n (o.stackOn below) around) :
    Begins single kind (n + 1) (f :: below) around := by
  have room : o.fits none below = true := by
    unfold Outcome.fits
    split <;> rfl
  rcases h with stumbles_ | ⟨x, rest, first, walk, same⟩
  · refine .inl ?_
    rw [stumbles, move, clean, passed, stumbles_]
    exact Bool.or_true _
  · refine .inr ⟨x, rest, first, ?_, same⟩
    rw [walk?, move, clean, room, passed]
    exact walk

/-- A frame that waits for an operand, or for a single tag, takes a token that can begin a literal
    for one that does, or finds it misplaced. -/
theorem begins_of_hints {f : Frame} {kind : TokenKind} (bracketed : f.bracketed = true)
    (mayStart : (f.hints.xmlMayStart || f.hints.singleTagNext) = true) (opens : OpensMarkup kind)
    (below : List Frame) : Begins f.hints.singleTagNext kind 4 (f :: below) (literals below) := by
  cases f with
  | expression e =>
    obtain ⟨step, started, continued⟩ := e
    cases step with
    | operand => exact begins_operand opens 2 started continued below
    | memberName =>
      -- only an opening tag can begin a single tag
      cases opens with
      | openTag => exact .inr ⟨_, _, rfl, rfl, rfl⟩
      | _ => exact .inl rfl
    | suffix => cases mayStart
  | group g =>
    obtain ⟨close, step⟩ := g
    cases step with
    | item =>
      have closes : close = .closeParen ∨ close = .closeBrace := by
        simpa [Frame.bracketed] using bracketed
      have move : (Frame.group ⟨close, .item⟩).move kind
          = .push (.group ⟨close, .afterItem⟩) .continuedExpression := by
        rcases closes with rfl | rfl <;> cases opens <;> rfl
      exact .of_passed move rfl rfl (begins_operand opens 1 false true _)
    | afterItem => cases mayStart
  | optionalExpression =>
    have move : Frame.optionalExpression.move kind
        = .replace .optionalExpression .newExpression := by cases opens <;> rfl
    exact .of_passed move rfl rfl (begins_operand opens 1 false false below)
  | statement step =>
    cases step with
    | lambdaBody =>
      have move : (Frame.statement .lambdaBody).move kind
          = .replace (.statement .lambdaBody) .newExpression := by cases opens <;> rfl
      exact .of_passed move rfl rfl (begins_operand opens 1 false false below)
    | _ => cases mayStart
  | lambda l =>
    obtain ⟨word, step⟩ := l
    cases step with
    | afterParameters =>
      have move : (Frame.lambda ⟨word, .afterParameters⟩).move kind
          = if word = .Function then .replace (.lambda ⟨word, .afterParameters⟩) .newExpression
            else .replace (.lambda ⟨word, .afterParameters⟩) (.statement .lambdaBody) := by
        cases opens <;> rfl
      have body : (Frame.statement .lambdaBody).move kind
          = .replace (.statement .lambdaBody) .newExpression := by cases opens <;> rfl
      by_cases function : word = .Function
      · rw [if_pos function] at move
        exact .of_passed move rfl rfl (begins_operand opens 1 false false below)
      · rw [if_neg function] at move
        exact .of_passed move rfl rfl
          (.of_passed body rfl rfl (begins_operand opens 0 false false below))
    | _ => cases mayStart
  | selectBlock step =>
    cases step with
    | caseItems =>
      have move : (Frame.selectBlock .caseItems).move kind
          = .push (.selectBlock .afterCaseItem) .newExpression := by cases opens <;> rfl
      exact .of_passed move rfl rfl (begins_operand opens 1 false false _)
    | _ => cases mayStart
  | imports step =>
    cases step with
    | start =>
      cases opens with
      | openTag => exact .inr ⟨_, _, rfl, rfl, rfl⟩
      | _ => exact .inl rfl
    | _ => cases mayStart
  | xmlNamespace step => cases step <;> cases mayStart
  | _ => cases mayStart

/-- **A token that begins a literal where the hints let one start**, if no error was recorded. -/
theorem begins_ask {c : Classifier} {t : Token} {f : Frame} {below : List Frame}
    (reachable : Reachable c) (hs : c.stack = f :: below)
    (mayStart : (f.hints.xmlMayStart || f.hints.singleTagNext) = true)
    (opens : OpensMarkup t.kind) (clean : (c.ask t).state.errors = #[]) :
    ∃ x rest, (mirror (.new f.hints.singleTagNext)).after? t.kind = some x
      ∧ (c.ask t).state.stack = .xmlLiteral x :: rest ∧ literals rest = literals below := by
  have guest : (f.rests && f.hosts) = false := by
    cases f with
    | expression e =>
      obtain ⟨step, started, continued⟩ := e
      cases step with
      | suffix => cases mayStart
      | operand | memberName => rfl
    | declarations | statements => cases mayStart
    | _ => exact Bool.and_false _
  have quiet := quiet_of_top reachable hs guest
  have quiet' : Quiet { c with lastLocation := t.start } := ⟨quiet.1, quiet.2, quiet.3⟩
  have inner : t.kind ≠ .eof := by
    intro eof
    rw [eof] at opens
    cases opens
  have clean' := (Grows.inform _ none).eq_empty clean
  have begins := begins_of_hints (reachable.bracketed f (by simp [hs])) mayStart opens below
  rw [← hs] at begins
  rcases begins with stumbles_ | ⟨x, rest, first, walk, same⟩
  · exact absurd clean' (errors_of_stumbles inner quiet' stumbles_ (by decide))
  · have stack := stack_of_walk? inner quiet' walk (by decide) clean'
    exact ⟨x, rest, first, (literals_ask reachable clean).2 _ _ stack, same⟩

end BasicLexis.Markup
