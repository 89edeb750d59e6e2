import BasicLexis.Proofs.Classifier.Moves

set_option autoImplicit false

/-! # What the productions open

Two things about the frames that a production opens are needed to follow a stack without knowing how
it came about. Only brackets close a group, so no operand does. And an XML literal is opened for a
token that begins one, so no other token adds a literal to those that are open. `opens_move` says so
of single moves, and `Reachable.bracketed` what follows for the groups on a stack. -/

namespace BasicLexis.Classifier

namespace Frame

/-- A group is closed by a bracket. -/
def bracketed : Frame → Bool
  | group g => g.close == .closeParen || g.close == .closeBrace
  | _ => true

/-- The frame follows an XML literal. -/
def isXmlLiteral : Frame → Bool
  | xmlLiteral _ => true
  | _ => false

end Frame

/-- The frames that an outcome opens. -/
def Outcome.opened (o : Outcome) : List Frame :=
  match o.action with
  | .stay | .pop => []
  | .push child => [child]
  | .pushBoth first second => [first, second]
  | .replace next => [next]

/-- The frame may be opened for a token of this kind. -/
def Frame.mayOpen (kind : TokenKind) (f : Frame) : Bool :=
  f.bracketed && (!f.isXmlLiteral || startsXmlLiteral kind)

/-- An outcome that opens only what may be opened, and keeps the bracket of a group. -/
structure Opens (kind : TokenKind) (f : Frame) (o : Outcome) : Prop where
  frame : o.frame.bracketed = f.bracketed
  opened : o.opened.all (Frame.mayOpen kind) = true

/-! ## Statements and expressions -/

theorem opens_statementAfter? {word : Keyword} {next : Frame}
    (h : statementAfter? word = some next) (kind : TokenKind) : next.mayOpen kind = true := by
  unfold statementAfter? at h
  split at h
  all_goals first
    | (cases h; rfl)
    | cases h

theorem opens_offerStatement (step : StatementStep) (kind : TokenKind) :
    Opens kind (.statement step) (offerStatement step kind) := by
  unfold offerStatement
  dsimp only
  repeat' split
  all_goals first
    | exact ⟨rfl, rfl⟩
    | skip
  next found =>
    exact ⟨rfl, by simp [Outcome.opened, Outcome.consumeReplace, opens_statementAfter? found]⟩

/-- The part that a token opens in the place of an operand. -/
theorem opens_operandStep? {kind : TokenKind} {step : ExpressionStep} {consumed : Bool}
    {child : Frame} (h : operandStep? kind = some (step, consumed, some child)) :
    child.mayOpen kind = true := by
  unfold operandStep? at h
  repeat' split at h
  all_goals first
    | (cases h; rfl)
    | (cases h; done)
    | skip
  next starts =>
  cases h
  simp [Frame.mayOpen, Frame.bracketed, starts]

theorem Expression.opens_offer (e : Expression) (kind : TokenKind) :
    Opens kind (.expression e) (e.offer kind) := by
  unfold offer
  split
  · unfold offerOperand
    dsimp only
    split
    · split <;> exact ⟨rfl, rfl⟩
    · split
      · next step consumed child found =>
        cases child with
        | none => exact ⟨rfl, rfl⟩
        | some child => exact ⟨rfl, by simp [Outcome.opened, opens_operandStep? found]⟩
      · exact ⟨rfl, rfl⟩
  · unfold offerSuffix
    repeat' split
    all_goals exact ⟨rfl, rfl⟩
  · unfold offerMemberName
    dsimp only
    split
    · next tag =>
      subst tag
      exact ⟨rfl, rfl⟩
    · split <;> exact ⟨rfl, rfl⟩

/-! ## All frames -/

theorem opens_epsilon? {f : Frame} {o : Outcome} (h : f.epsilon? = some o) (kind : TokenKind) :
    Opens kind f o := by
  unfold Frame.epsilon? at h
  split at h
  all_goals first
    | (cases h; exact ⟨rfl, rfl⟩)
    | cases h

theorem opens_offer (f : Frame) (kind : TokenKind) : Opens kind f (f.offer kind) := by
  cases f with
  | statement step => exact opens_offerStatement step kind
  | expression e => exact e.opens_offer kind
  | _ =>
    dsimp only [Frame.offer, DeclarationList.offer, DeclarationList.afterEnd,
      DeclarationList.offerKeyword, DeclarationList.stray, DeclarationList.openMember,
      DeclarationList.openBlock, offerAttributeList, offerImports, offerRestOfLine,
      offerSkipParens, offerTypeName, MemberHeader.offer, MemberHeader.afterName, offerParameters,
      AccessorList.offer, AccessorList.afterEnd, AccessorList.stray, offerEnumBody,
      offerDeclarators, StatementList.offer, StatementList.afterEnd,
      StatementList.betweenStatements, offerIf, offerSelect, HeadedBlock.offer, offerDo, offerFor,
      offerTry, offerOptionalExpression, offerExpressionList, Group.offer, offerNew, Lambda.offer,
      Query.offer, Query.offerClause, Query.offerClauseKeyword, offerXmlNamespace,
      XmlLiteral.offer]
    repeat' split
    all_goals exact ⟨rfl, rfl⟩

theorem opens_move (f : Frame) (kind : TokenKind) : Opens kind f (f.move kind) := by
  unfold Frame.move
  cases moves : f.epsilon? with
  | none => exact opens_offer f kind
  | some o => exact opens_epsilon? moves kind

/-! ## Stacks -/

/-- The frames after an outcome are those below, the frame itself and those that it opens. -/
theorem mem_stack_apply {c : Classifier} {o : Outcome} {g : Frame}
    (h : g ∈ (c.apply o.frame o.action).1.stack) : g = o.frame ∨ g ∈ o.opened ∨ g ∈ c.stack := by
  have pushed {c : Classifier} {f : Frame} (h : g ∈ (c.push f).1.stack) : g = f ∨ g ∈ c.stack := by
    unfold push at h
    split at h
    · rw [recordLimit, stack_record] at h
      exact .inr h
    · exact List.mem_cons.1 h
  unfold apply at h
  cases action : o.action with
  | stay =>
    rw [action] at h
    rcases List.mem_cons.1 h with rfl | below
    · exact .inl rfl
    · exact .inr (.inr below)
  | pop =>
    rw [action] at h
    rw [stack_discard] at h
    exact .inr (.inr h)
  | push child =>
    rw [action] at h
    rcases pushed h with rfl | lower
    · exact .inr (.inl (by simp [Outcome.opened, action]))
    · rcases List.mem_cons.1 lower with rfl | below
      · exact .inl rfl
      · exact .inr (.inr below)
  | replace next =>
    rw [action] at h
    rcases pushed h with rfl | below
    · exact .inr (.inl (by simp [Outcome.opened, action]))
    · rw [stack_discard] at below
      exact .inr (.inr below)
  | pushBoth first second =>
    have lowest (h : g ∈ ((c.putBack o.frame).push first).1.stack) :
        g = o.frame ∨ g ∈ o.opened ∨ g ∈ c.stack := by
      rcases pushed h with rfl | lower
      · exact .inr (.inl (by simp [Outcome.opened, action]))
      · rcases List.mem_cons.1 lower with rfl | below
        · exact .inl rfl
        · exact .inr (.inr below)
    rw [action] at h
    dsimp only at h
    split at h
    · next c'' accepted =>
      rw [accepted] at lowest
      rcases pushed h with rfl | lower
      · exact .inr (.inl (by simp [Outcome.opened, action]))
      · exact lowest lower
    · exact lowest h

theorem mem_stack_perform {c : Classifier} {t : Token} {o : Outcome} {g : Frame}
    (h : g ∈ (c.perform t o).1.stack) : g = o.frame ∨ g ∈ o.opened ∨ g ∈ c.stack := by
  obtain ⟨c', performed, stack, -⟩ := perform_eq_apply c t o
  rw [performed] at h
  rw [← stack]
  exact mem_stack_apply h

/-- Every group on the stack is closed by a bracket. -/
def Bracketed (c : Classifier) : Prop := ∀ f ∈ c.stack, f.bracketed = true

theorem bracketed_restartLine (f : Frame) : f.restartLine.bracketed = f.bracketed := by
  cases f <;> rfl

namespace Bracketed

theorem of_mem {c : Classifier} {kind : TokenKind} {f g : Frame} {o : Outcome} (h : Bracketed c)
    (top : f.bracketed = true) (opens : Opens kind f o)
    (mem : g = o.frame ∨ g ∈ o.opened ∨ g ∈ c.stack) : g.bracketed = true := by
  rcases mem with rfl | opened | below
  · exact opens.frame.trans top
  · have fresh := List.all_eq_true.1 opens.opened g opened
    exact (Bool.and_eq_true_iff.1 fresh).1
  · exact h g below

theorem perform {c : Classifier} {t : Token} {kind : TokenKind} {f : Frame} {o : Outcome}
    (h : Bracketed c) (top : f.bracketed = true) (opens : Opens kind f o) :
    Bracketed (c.perform t o).1 :=
  fun _ mem => h.of_mem top opens (mem_stack_perform mem)

theorem moveOnce {c : Classifier} (h : Bracketed c) (t : Token) :
    Bracketed (c.moveOnce t).1 := by
  cases hs : c.stack with
  | nil =>
    rw [Classifier.moveOnce, hs]
    intro g mem
    rw [putBack, hs, List.mem_singleton] at mem
    subst mem
    rfl
  | cons f below =>
    obtain ⟨c', g, imposed, hr, moved⟩ := moveOnce_of_stack t hs
    have top : f.bracketed = true := h f (by simp [hs])
    have stack := (recover_orderly { c with stack := below } f t.kind).1
    have imposes := imposes_recover { c with stack := below } f t.kind
    rw [hr] at stack imposes
    have rest : Bracketed c' := by
      intro g mem
      rw [stack] at mem
      exact h g (by simp [hs, mem])
    rw [moved]
    dsimp only at imposes
    cases imposes with
    | ends | stops | closes => exact rest.perform top (⟨rfl, rfl⟩ : Opens t.kind f _)
    | nextVariables loop =>
      exact rest.perform top (⟨by rw [loop]; rfl, rfl⟩ : Opens t.kind f _)
    | free => exact rest.perform top (opens_move f t.kind)
    | freshLine =>
      exact rest.perform ((bracketed_restartLine f).trans top) (opens_move f.restartLine t.kind)

theorem offerToken {c : Classifier} (h : Bracketed c) (n : Nat) (t : Token) :
    Bracketed (offerToken n c t).state := by
  induction n generalizing c with
  | zero =>
    intro g mem
    exact h g (by rwa [Classifier.offerToken, recordLimit, stack_record] at mem)
  | succ n ih =>
    rw [offerToken_succ_moveOnce]
    split
    · exact ih (h.moveOnce t)
    · exact h.moveOnce t

theorem settle {c : Classifier} (h : Bracketed c) (n : Nat) : Bracketed (settle n c).state := by
  induction n generalizing c with
  | zero =>
    intro g mem
    exact h g (by rwa [Classifier.settle, recordLimit, stack_record] at mem)
  | succ n ih =>
    rw [Classifier.settle]
    split
    · next hs =>
      refine ih fun g mem => ?_
      rw [putBack, hs, List.mem_singleton] at mem
      subst mem
      rfl
    · next f below hs =>
      split
      · exact h
      · next o moves =>
        have top : f.bracketed = true := h f (by simp [hs])
        have rest : Bracketed { c with stack := below } := fun g mem => h g (by simp [hs, mem])
        have moved : Bracketed (apply { c with stack := below } o.frame o.action).1 :=
          fun _ mem => rest.of_mem top (opens_epsilon? moves .eof) (mem_stack_apply mem)
        split
        · next accepted =>
          rw [accepted] at moved
          exact ih moved
        · next refused =>
          rw [refused] at moved
          exact moved

end Bracketed

/-- On every stack that a new classifier can come to, only brackets close groups. -/
theorem Reachable.bracketed {c : Classifier} (h : Reachable c) : Bracketed c := by
  induction h with
  | new =>
    intro g mem
    rw [List.mem_singleton] at mem
    subst mem
    rfl
  | @inform c call _ ih =>
    cases call with
    | none => exact ih.settle _
    | some t => exact Bracketed.offerToken (c := { c with lastLocation := t.start }) ih _ t

end BasicLexis.Classifier
