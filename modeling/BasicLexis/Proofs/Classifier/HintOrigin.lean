import BasicLexis.Proofs.Classifier.Settling
import Mathlib.Data.List.Induction

set_option autoImplicit false

/-! # Where the hints on names and tags come from

That the next name is an XML name is told by the frame of a `GetXmlNamespace` expression, and that a
literal is a single tag by an import or a member access. All these frames are finished, or in another
state, with the next token; none of them ever lies below another frame. So such a frame on top of the
stack tells which tokens were told last.

`explained_move` says so of single moves: a move after which the token is passed on leaves *plain*
frames only, those that tell nothing of this kind, and the frame that uses up the token fits the
token. `recalls_inform` and `Recalls.settle` carry it over to calls, and `hints_traced` states what
follows for the hints, whatever a new classifier is told. -/

namespace BasicLexis

/-- At most one of the hints is given. -/
def Hints.Exclusive (h : Hints) : Prop :=
  ¬(h.xmlMayStart = true ∧ h.xmlNameNext = true)
    ∧ ¬(h.xmlMayStart = true ∧ h.singleTagNext = true)
    ∧ ¬(h.xmlNameNext = true ∧ h.singleTagNext = true)

namespace Classifier

/-- A single tag may stand in the place of a name after these tokens. -/
def leadsToTag : TokenKind → Bool
  | .keyword .Imports | .comma | .dot | .assign | .exclamation | .dotAt | .tripleDot => true
  | _ => false

namespace Frame

/-- The frame tells nothing about the tokens that were told last. -/
def isPlain : Frame → Bool
  | xmlNamespace _ | imports .start | expression { step := .memberName, .. } => false
  | _ => true

/-- The second frame, if it is not plain, may be on top after the first one used up a token of this
    kind, possibly finding it misplaced. -/
def fitsAfter (f : Frame) (kind : TokenKind) (misplaced : Bool) : Frame → Bool
  | xmlNamespace .open_ => kind == .keyword .GetXmlNamespace
  | xmlNamespace .name => f == .xmlNamespace .open_ && kind == .openParen
  | xmlNamespace .close => true
  | _ => misplaced || leadsToTag kind

end Frame

/-- All frames that the outcome leaves are plain, but for the one that is on top after a token was
    used up, and that one fits the token. -/
def Outcome.explained (f : Frame) (kind : TokenKind) (o : Outcome) : Bool :=
  let onTop (g : Frame) := g.isPlain || o.consumed && f.fitsAfter kind o.misplaced g
  match o.action with
  | .stay => onTop o.frame
  | .push child => o.frame.isPlain && onTop child
  | .pushBoth first second => o.frame.isPlain && first.isPlain && second.isPlain
  | .pop => true
  | .replace next => next.isPlain

/-! ## Single moves -/

theorem leadsToTag_of_isAccess {kind : TokenKind} (h : isAccess kind = true) :
    leadsToTag kind = true := by
  unfold isAccess at h
  split at h
  all_goals first
    | rfl
    | cases h

theorem plain_statementAfter? {word : Keyword} {next : Frame}
    (h : statementAfter? word = some next) : next.isPlain = true := by
  unfold statementAfter? at h
  split at h
  all_goals first
    | (cases h; rfl)
    | cases h

theorem explained_offerStatement (step : StatementStep) (kind : TokenKind) :
    (offerStatement step kind).explained (.statement step) kind = true := by
  unfold offerStatement
  dsimp only
  repeat' split
  all_goals first
    | rfl
    | skip
  next found => exact plain_statementAfter? found

/-- The part that a token opens in the place of an operand. -/
theorem explained_operandStep? {kind : TokenKind} {step : ExpressionStep} {consumed : Bool}
    {child : Option Frame} (h : operandStep? kind = some (step, consumed, child))
    (e : Expression) (starts : Bool) :
    Outcome.explained (.expression e) kind
      { frame := .expression { e with step, started := true }
        action := child.elim .stay .push
        consumed, startsExpression := starts } = true := by
  unfold operandStep? at h
  repeat' split at h
  all_goals first
    | (cases h; rfl)
    | (cases h; done)
    | skip
  next access =>
  cases h
  simp [Outcome.explained, Frame.fitsAfter, leadsToTag_of_isAccess access]

theorem Expression.explained_offer (e : Expression) (kind : TokenKind) :
    (e.offer kind).explained (.expression e) kind = true := by
  obtain ⟨step, started, continued⟩ := e
  unfold offer
  cases step with
  | operand =>
    unfold offerOperand
    dsimp only
    split
    · split <;> rfl
    · split
      · next step consumed child found => exact explained_operandStep? found _ _
      · rfl
  | suffix =>
    unfold offerSuffix
    dsimp only
    split
    · next access =>
      simp [Outcome.explained, Outcome.consume, Frame.fitsAfter, leadsToTag_of_isAccess access]
    · repeat' split
      all_goals rfl
  | memberName =>
    unfold offerMemberName
    dsimp only
    repeat' split
    all_goals rfl

theorem explained_epsilon? {f : Frame} {o : Outcome} (h : f.epsilon? = some o) (kind : TokenKind) :
    o.explained f kind = true := by
  unfold Frame.epsilon? at h
  split at h
  case h_6 kind =>
    cases h
    split <;> rfl
  all_goals first
    | (cases h; rfl)
    | cases h

theorem explained_offer (f : Frame) (kind : TokenKind) :
    (f.offer kind).explained f kind = true := by
  cases f with
  | statement step => exact explained_offerStatement step kind
  | expression e => exact e.explained_offer kind
  | _ =>
    dsimp only [Frame.offer, DeclarationList.offer, DeclarationList.afterEnd,
      DeclarationList.offerKeyword, DeclarationList.stray, DeclarationList.openMember,
      DeclarationList.openBlock, offerAttributeList, offerImports, offerRestOfLine,
      offerSkipParens, offerTypeName, MemberHeader.offer, MemberHeader.afterName, offerParameters,
      AccessorList.offer, AccessorList.afterEnd, AccessorList.stray, offerEnumBody,
      offerDeclarators, StatementList.offer, StatementList.afterEnd,
      StatementList.betweenStatements, offerIf, offerSelect, HeadedBlock.offer, offerDo, offerFor,
      offerTry, offerOptionalExpression, offerExpressionList, Group.offer, offerNew, Lambda.offer,
      Query.offer, Query.offerClause, Query.offerClauseKeyword, offerXmlNamespace,
      XmlLiteral.offer]
    repeat' split
    all_goals rfl

theorem explained_move (f : Frame) (kind : TokenKind) : (f.move kind).explained f kind = true := by
  unfold Frame.move
  cases moves : f.epsilon? with
  | none => exact explained_offer f kind
  | some o => exact explained_epsilon? moves kind

/-- What the state imposes leaves plain frames, or what the frame itself leaves. -/
theorem explained_of_imposes {c : Classifier} {kind : TokenKind} {f g : Frame}
    {imposed : Option Outcome} (h : Imposes c kind f g imposed) :
    (imposed.getD (g.move kind)).explained g kind = true
      ∧ (g = .xmlNamespace .open_ → f = .xmlNamespace .open_) := by
  cases h with
  | ends => exact ⟨rfl, id⟩
  | closes => exact ⟨rfl, id⟩
  | nextVariables => exact ⟨rfl, id⟩
  | stops bottom =>
    subst bottom
    exact ⟨rfl, id⟩
  | free => exact ⟨explained_move f kind, id⟩
  | freshLine list =>
    refine ⟨explained_move _ kind, fun same => ?_⟩
    cases f with
    | xmlNamespace step => cases list
    | _ => cases same

/-! ## Stacks -/

/-- All frames on the stack are plain. -/
def Plain (c : Classifier) : Prop := ∀ g ∈ c.stack, g.isPlain = true

theorem stack_push_cases (c : Classifier) (f : Frame) :
    (c.push f).1.stack = f :: c.stack ∨ (c.push f).1.stack = c.stack := by
  by_cases full : Limits.maxFrameDepth ≤ c.stack.length
  · exact .inr (push_of_full f full).2
  · exact .inl (push_of_room f (Nat.lt_of_not_le full)).2.1

/-- A plain frame is opened on plain frames. -/
theorem Plain.push {c : Classifier} (h : Plain c) {f : Frame} (plain : f.isPlain = true) :
    Plain (c.push f).1 := by
  intro g mem
  rcases stack_push_cases c f with stack | stack
  · rw [stack, List.mem_cons] at mem
    rcases mem with rfl | below
    · exact plain
    · exact h g below
  · rw [stack] at mem
    exact h g mem

theorem Plain.putBack {c : Classifier} (h : Plain c) {f : Frame} (plain : f.isPlain = true) :
    Plain (c.putBack f) := by
  intro g mem
  rcases List.mem_cons.1 mem with rfl | below
  · exact plain
  · exact h g below

theorem Plain.discard {c : Classifier} (h : Plain c) (f : Frame) : Plain (c.discard f) := by
  intro g mem
  rw [stack_discard] at mem
  exact h g mem

/-- The frame on top satisfies `p`, if it is not plain, and those below are plain. -/
def PlainBelow (p : Frame → Prop) (stack : List Frame) : Prop :=
  (∀ g ∈ stack.head?, g.isPlain = false → p g) ∧ ∀ g ∈ stack.tail, g.isPlain = true

theorem Plain.below {c : Classifier} (h : Plain c) (p : Frame → Prop) : PlainBelow p c.stack := by
  refine ⟨fun g top marked => ?_, fun g mem => h g (List.mem_of_mem_tail mem)⟩
  rw [h g (List.mem_of_mem_head? top)] at marked
  cases marked

/-- If nothing can stand out, all frames are plain. -/
theorem PlainBelow.plain {p : Frame → Prop} {stack : List Frame} (h : PlainBelow p stack)
    (none : ∀ g, ¬p g) : ∀ g ∈ stack, g.isPlain = true := by
  intro g mem
  cases stack with
  | nil => cases mem
  | cons top lower =>
    rcases List.mem_cons.1 mem with rfl | inside
    · cases plain : g.isPlain with
      | true => rfl
      | false => exact absurd (h.1 g rfl plain) (none g)
    · exact h.2 g inside

/-- After an explained outcome, only a frame that fits the token stands out. -/
theorem plainBelow_apply {c : Classifier} {f : Frame} {kind : TokenKind} {o : Outcome}
    (below : Plain c) (h : o.explained f kind = true) :
    PlainBelow (fun g => o.consumed = true ∧ f.fitsAfter kind o.misplaced g = true)
      (c.apply o.frame o.action).1.stack := by
  have onTop {g : Frame} {stack : List Frame} (plain : ∀ g ∈ stack, g.isPlain = true)
      (fits : (g.isPlain || o.consumed && f.fitsAfter kind o.misplaced g) = true) :
      PlainBelow (fun g => o.consumed = true ∧ f.fitsAfter kind o.misplaced g = true)
        (g :: stack) := by
    refine ⟨fun g' top marked => ?_, plain⟩
    cases top
    simpa [marked] using fits
  unfold Outcome.explained at h
  unfold Classifier.apply
  cases action : o.action with
  | stay =>
    simp only [action] at h
    exact onTop below h
  | pop => exact (below.discard o.frame).below _
  | replace next =>
    simp only [action] at h
    exact ((below.discard o.frame).push h).below _
  | pushBoth first second =>
    simp only [action, Bool.and_eq_true] at h
    have lower := (below.putBack h.1.1).push h.1.2
    dsimp only
    split
    · next c' accepted =>
      rw [accepted] at lower
      exact (lower.push h.2).below _
    · exact lower.below _
  | push child =>
    simp only [action, Bool.and_eq_true] at h
    have lower : Plain (c.putBack o.frame) := below.putBack h.1
    dsimp only
    rcases stack_push_cases (c.putBack o.frame) child with stack | stack
    · rw [stack]
      exact onTop lower h.2
    · rw [stack]
      exact lower.below _

theorem plainBelow_perform {c : Classifier} {f : Frame} {t : Token} {o : Outcome}
    (below : Plain c) (h : o.explained f t.kind = true) :
    PlainBelow (fun g => o.consumed = true ∧ f.fitsAfter t.kind o.misplaced g = true)
      (c.perform t o).1.stack := by
  obtain ⟨c', performed, stack, -⟩ := perform_eq_apply c t o
  rw [performed]
  refine plainBelow_apply (fun g mem => ?_) h
  rw [stack] at mem
  exact below g mem

/-! ## Calls -/

/-- What the frame on top tells about the kinds of the tokens that were told so far. -/
structure Tells (kinds : List TokenKind) (clean : Prop) (g : Frame) : Prop where
  word : g = .xmlNamespace .open_ → [.keyword .GetXmlNamespace] <:+ kinds
  bracket : g = .xmlNamespace .name → [.keyword .GetXmlNamespace, .openParen] <:+ kinds
  tag : g.hints.singleTagNext = true → clean → ∃ kind, leadsToTag kind = true ∧ [kind] <:+ kinds

/-- The stack recalls the tokens that were told last, as far as no error was recorded. -/
def Recalls (kinds : List TokenKind) (c : Classifier) : Prop :=
  PlainBelow (Tells kinds (c.errors = #[])) c.stack

theorem recalls_moveOnce {kinds : List TokenKind} {c : Classifier} (h : Recalls kinds c)
    (t : Token) :
    ((c.moveOnce t).2 = true → Plain (c.moveOnce t).1)
      ∧ ((c.moveOnce t).2 = false → Recalls (kinds ++ [t.kind]) (c.moveOnce t).1) := by
  cases hs : c.stack with
  | nil =>
    have moved : c.moveOnce t = (c.putBack .bottom, true) := by rw [moveOnce, hs]
    rw [moved]
    refine ⟨fun _ g mem => ?_, fun used => ?_⟩
    · rw [putBack, hs, List.mem_singleton] at mem
      subst mem
      rfl
    · cases used
  | cons f below =>
    obtain ⟨c', g, imposed, hr, moved⟩ := moveOnce_of_stack t hs
    have stack := (recover_orderly { c with stack := below } f t.kind).1
    have imposes := imposes_recover { c with stack := below } f t.kind
    rw [hr] at stack imposes
    obtain ⟨explained, same⟩ := explained_of_imposes imposes
    have plain : Plain c' := by
      intro g mem
      rw [stack] at mem
      exact h.2 g (by rw [hs]; exact mem)
    have left := plainBelow_perform (t := t) plain explained
    rw [moved]
    dsimp only
    generalize imposed.getD (g.move t.kind) = o at left ⊢
    refine ⟨fun passed => ?_, fun _ => ⟨fun g' top marked => ?_, left.2⟩⟩
    · have notUsed : o.consumed = false := by simpa using (Bool.and_eq_true_iff.1 passed).1
      exact left.plain (by simp [notUsed])
    · obtain ⟨-, fits⟩ := left.1 g' top marked
      refine ⟨?_, ?_, ?_⟩
      · rintro rfl
        have word : t.kind = .keyword .GetXmlNamespace := by simpa [Frame.fitsAfter] using fits
        rw [word]
        exact List.suffix_append _ _
      · rintro rfl
        have opened : g = .xmlNamespace .open_ ∧ t.kind = .openParen := by
          simpa [Frame.fitsAfter] using fits
        obtain ⟨front, rfl⟩ := (h.1 f (by rw [hs]; rfl) (by rw [same opened.1]; rfl)).word
          (same opened.1)
        rw [opened.2]
        exact ⟨front, by simp⟩
      · intro tag clean
        have sure : o.misplaced = false := (clean_perform clean).1
        refine ⟨t.kind, ?_, List.suffix_append _ _⟩
        cases g' with
        | xmlNamespace step => cases step <;> cases tag
        | _ => simpa [Frame.fitsAfter, sure] using fits

/-- A call that may make one move recalls its token, if further moves on plain frames do. -/
theorem recalls_offerToken_succ {kinds : List TokenKind} {c : Classifier} {t : Token} {n : Nat}
    (h : Recalls kinds c)
    (later : ∀ c', Plain c' → Recalls (kinds ++ [t.kind]) (offerToken n c' t).state) :
    Recalls (kinds ++ [t.kind]) (offerToken (n + 1) c t).state := by
  obtain ⟨passed, ended⟩ := recalls_moveOnce h t
  rw [offerToken_succ_moveOnce]
  split
  · next goesOn => exact later _ (passed goesOn)
  · next stops => exact ended (Bool.eq_false_iff.2 stops)

theorem recalls_offerToken_of_plain (kinds : List TokenKind) (t : Token) (n : Nat) :
    ∀ c, Plain c → Recalls (kinds ++ [t.kind]) (offerToken n c t).state := by
  induction n with
  | zero =>
    intro c h
    have same : Plain (c.recordLimit t.kind) := by
      intro g mem
      rw [recordLimit, stack_record] at mem
      exact h g mem
    exact same.below _
  | succ n ih =>
    intro c h
    exact recalls_offerToken_succ (h.below _) ih

theorem recalls_inform {kinds : List TokenKind} {c : Classifier} (h : Recalls kinds c)
    (t : Token) : Recalls (kinds ++ [t.kind]) (c.inform (some t)).state := by
  have told : Recalls kinds { c with lastLocation := t.start } := h
  exact recalls_offerToken_succ told
    (recalls_offerToken_of_plain kinds t (Limits.maxEpsilonSteps - 1))

/-! ## Asking -/

/-- A frame that goes on by itself is plain. -/
theorem isPlain_of_epsilon? {f : Frame} {o : Outcome} (h : f.epsilon? = some o) :
    f.isPlain = true := by
  unfold Frame.epsilon? at h
  split at h
  all_goals first
    | rfl
    | cases h

/-- Plain frames go on by themselves to plain frames. -/
theorem Plain.settle {c : Classifier} (h : Plain c) (n : Nat) : Plain (settle n c).state := by
  induction n generalizing c with
  | zero =>
    intro g mem
    rw [Classifier.settle, recordLimit, stack_record] at mem
    exact h g mem
  | succ n ih =>
    rw [Classifier.settle]
    split
    · exact ih (h.putBack rfl)
    · next f below hs =>
      split
      · exact h
      · next o moves =>
        have lower : Plain { c with stack := below } :=
          fun g mem => h g (by rw [hs]; exact List.mem_cons_of_mem f mem)
        have notUsed := (orderly_epsilon? moves).2.1
        have moved : Plain (apply { c with stack := below } o.frame o.action).1 :=
          (plainBelow_apply lower (explained_epsilon? moves .eof)).plain (by simp [notUsed])
        split
        · next accepted =>
          rw [accepted] at moved
          exact ih moved
        · next refused =>
          rw [refused] at moved
          exact moved

/-- Asking changes nothing about what the stack recalls: a frame that is not plain waits. -/
theorem Recalls.settle {kinds : List TokenKind} {c : Classifier} (h : Recalls kinds c) (n : Nat) :
    Recalls kinds (settle (n + 1) c).state := by
  cases hs : c.stack with
  | nil =>
    have plain : Plain c := by
      intro g mem
      rw [hs] at mem
      cases mem
    exact (plain.settle _).below _
  | cons f below =>
    cases moves : f.epsilon? with
    | none =>
      rw [settle_of_waits n hs moves]
      exact h
    | some o =>
      have plain : Plain c := by
        intro g mem
        rw [hs, List.mem_cons] at mem
        rcases mem with rfl | lower
        · exact isPlain_of_epsilon? moves
        · exact h.2 g (by rw [hs]; exact lower)
      exact (plain.settle _).below _

/-! ## Runs -/

theorem recalls_feed (tokens : List Token) :
    Recalls (tokens.map Token.kind) (({} : Classifier).feed tokens).state := by
  induction tokens using List.reverseRecOn with
  | nil =>
    have plain : Plain {} := by
      intro g mem
      rw [List.mem_singleton] at mem
      subst mem
      rfl
    exact plain.below _
  | append_singleton front t ih =>
    rw [feed_append_singleton, List.map_append]
    exact (recalls_inform ih t).settle _

theorem exclusive_hints (f : Frame) : f.hints.Exclusive := by
  unfold Frame.hints
  split
  all_goals simp [Hints.Exclusive]

/-- A token is answered without hints. -/
theorem hints_offerToken (n : Nat) (c : Classifier) (t : Token) : (offerToken n c t).hints = {} := by
  induction n generalizing c with
  | zero => rfl
  | succ n ih =>
    rw [offerToken_succ_moveOnce]
    split
    · exact ih _
    · rfl

/-- The hints after a call are those of a frame, or none are given. -/
theorem exclusive_inform (c : Classifier) (call : Option Token) :
    (c.inform call).hints.Exclusive := by
  cases call with
  | some t =>
    have noHints : (c.inform (some t)).hints = {} := hints_offerToken _ _ t
    rw [noHints]
    simp [Hints.Exclusive]
  | none =>
    by_cases given : (c.inform none).hints = {}
    · rw [given]
      simp [Hints.Exclusive]
    · obtain ⟨f, below, -, hints⟩ := top_of_hints given
      rw [inform, ← hints]
      exact exclusive_hints f

/-- Hints that are given while a new classifier is fed are those of the frame on top, which tells
    about the tokens. -/
theorem tells_of_hints {tokens : List Token} (given : (({} : Classifier).feed tokens).hints ≠ {}) :
    ∃ f, f.hints = (({} : Classifier).feed tokens).hints
      ∧ (f.isPlain = false → Tells (tokens.map Token.kind)
          ((({} : Classifier).feed tokens).state.errors = #[]) f) := by
  have recalls := recalls_feed tokens
  cases tokens using List.reverseRecOn with
  | nil => exact absurd rfl given
  | append_singleton front t =>
    rw [feed_append_singleton] at given recalls ⊢
    obtain ⟨f, below, top, hints⟩ := top_of_hints given
    refine ⟨f, hints, recalls.1 f ?_⟩
    show f ∈ (settle Limits.maxEpsilonSteps _).state.stack.head?
    rw [top]
    rfl

/-- Only the frame of a namespace that waits for its name announces an XML name. -/
theorem eq_of_xmlNameNext {f : Frame} (h : f.hints.xmlNameNext = true) :
    f = .xmlNamespace .name := by
  unfold Frame.hints at h
  split at h
  all_goals first
    | rfl
    | cases h

theorem isPlain_of_singleTagNext {f : Frame} (h : f.hints.singleTagNext = true) :
    f.isPlain = false := by
  unfold Frame.hints at h
  split at h
  all_goals first
    | rfl
    | cases h

/-- **Where the hints on names and tags come from.** Whatever a new classifier is told, it tells that
    the next name is an XML name only after the word `GetXmlNamespace` and an opening parenthesis; and
    as long as no error was recorded, it tells that a literal is a single tag only after the word
    `Imports`, a comma, an equals sign or a token before a member name. At most one of the hints is
    ever given. -/
theorem hints_traced (tokens : List Token) :
    let kinds := tokens.map Token.kind
    let reply := ({} : Classifier).feed tokens
    (reply.hints.xmlNameNext = true → [.keyword .GetXmlNamespace, .openParen] <:+ kinds)
      ∧ (reply.state.errors = #[] → reply.hints.singleTagNext = true →
          ∃ kind, leadsToTag kind = true ∧ [kind] <:+ kinds)
      ∧ ∀ (c : Classifier) (call : Option Token), (c.inform call).hints.Exclusive := by
  dsimp only
  refine ⟨fun named => ?_, fun clean tagged => ?_, exclusive_inform⟩
  · have given : (({} : Classifier).feed tokens).hints ≠ {} := by
      intro none
      rw [none] at named
      cases named
    obtain ⟨f, hints, tells⟩ := tells_of_hints given
    rw [← hints] at named
    have isName := eq_of_xmlNameNext named
    exact (tells (by rw [isName]; rfl)).bracket isName
  · have given : (({} : Classifier).feed tokens).hints ≠ {} := by
      intro none
      rw [none] at tagged
      cases tagged
    obtain ⟨f, hints, tells⟩ := tells_of_hints given
    rw [← hints] at tagged
    exact (tells (isPlain_of_singleTagNext tagged)).tag tagged clean

/-- An XML name is announced inside `GetXmlNamespace(`, and a single tag after the comma of an
    import. -/
theorem hints_traced_namespace :
    let named := spell [.keyword .Dim, .identifier, .assign, .keyword .GetXmlNamespace, .openParen]
    let imported := spell [.keyword .Imports, .identifier, .comma]
    let reply := ({} : Classifier).feed imported
    (({} : Classifier).feed named).hints.xmlNameNext = true
      ∧ [.keyword .GetXmlNamespace, .openParen] <:+ named.map Token.kind
      ∧ reply.state.errors = #[] ∧ reply.hints.singleTagNext = true
      ∧ (∃ kind, leadsToTag kind = true ∧ [kind] <:+ imported.map Token.kind)
      ∧ (reply.state.inform none).hints.Exclusive := by
  intro named imported reply
  have name : (({} : Classifier).feed named).hints.xmlNameNext = true := by decide +kernel
  have clean : reply.state.errors = #[] := by decide +kernel
  have tag : reply.hints.singleTagNext = true := by decide +kernel
  obtain ⟨afterBracket, -, -⟩ := hints_traced named
  obtain ⟨-, afterLeader, exclusive⟩ := hints_traced imported
  exact ⟨name, afterBracket name, clean, tag, afterLeader clean tag, exclusive reply.state none⟩

end Classifier

end BasicLexis
