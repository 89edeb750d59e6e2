import BasicLexis.Proofs.Classifier.Moves

set_option autoImplicit false

/-! # What a token costs

A frame that does not use up a token makes a few moves with it, and then either leaves the token to
the frame below or has come to a state in which it uses it up. `weight` bounds the number of these
moves, parts of the production that are opened and given up again included, and `passesOn` says
whether the token can get past the frame at all. The cost of a stack adds up the weights from the
top down to the first frame that the token cannot get past.

Every move that passes a token on lowers the cost (`lowers_move`). There is one exception: the list
of declarations of a source takes a token that starts nothing for the start of a statement, of which
nothing comes, and stands there as before. -/

namespace BasicLexis.Classifier

/-- No declaration, no statement and no operand starts with a token of this kind. -/
def isLost (kind : TokenKind) : Bool :=
  !(DeclarationList.offer { scope := .unit } kind).consumed
    && !(offerStatement .start kind).consumed && (operandStep? kind).isNone

namespace Frame

/-- A token of this kind may get past the frame. -/
def passesOn (kind : TokenKind) : Frame → Bool
  | bottom | declarations _ | attributeList _ | skipParens _ | enumBody _ => false
  | declarators .start => !kind.isName
  | statements list => list.stopsAt kind || (kind == .eol && list.singleLine)
  | statement .afterReDim => true
  | statement step => !(offerStatement step kind).consumed && (operandStep? kind).isNone
  | ifBlock .body => kind != .keyword .ElseIf && kind != .keyword .Else
  | ifBlock .singleLineBody => kind != .keyword .Else
  | ifBlock .done => true
  | ifBlock _ => false
  | selectBlock .body => kind != .keyword .Case
  | selectBlock _ => false
  | headedBlock ⟨word, .body⟩ => word != .While || kind != .keyword .Wend
  | headedBlock _ => false
  | doBlock .body => kind != .keyword .Loop
  | doBlock .tail | doBlock .done => true
  | doBlock _ => false
  | forBlock .body => kind != .keyword .Next
  | forBlock .nextVariables => true
  | forBlock _ => false
  | tryBlock .body => kind != .keyword .Catch && kind != .keyword .Finally
  | tryBlock _ => false
  | expression { step := .operand, .. } => (operandStep? kind).isNone
  | xmlLiteral x => x.started || !startsXmlLiteral kind
  | _ => true

/-- How many moves the frame can make with a token before it leaves it to the frame below or uses it
    up. -/
def weight (kind : TokenKind) : Frame → Nat
  | bottom => 6
  | declarations list => if list.step = .start then 5 else 7
  | imports _ => 3
  | member { step := .name, .. } | member { step := .clause, .. } => 3
  | member { step := .openParen, .. } => 4
  | member { step := .afterName, .. } => 2
  | accessors list => if list.step = .start then 1 else 2
  | enumBody .afterEnd => 2
  | statements list =>
    match list.step with
    | .afterStatement => 1
    | .afterEnd | .skip => 2
    | .start => if list.stopsAt kind || kind == .eol || kind == .colon then 1 else 6
  | statement .afterReDim => 6
  | statement _ => 4
  | ifBlock .condition => 13
  | ifBlock .then_ => 9
  | ifBlock .afterThen | ifBlock .afterElse => 8
  | selectBlock .caseItems => 13
  | selectBlock .caseRelation => 10
  | selectBlock .afterCaseItem => 9
  | selectBlock .caseBody => 8
  | selectBlock .afterSelect => 6
  | selectBlock .subject => 5
  | selectBlock .afterEnd => 2
  | headedBlock { step := .head, .. } => 13
  | headedBlock { step := .resourceTail, .. } => 9
  | headedBlock { step := .bodyStart, .. } => 8
  | doBlock .head => 9
  | doBlock .bodyStart => 8
  | forBlock .head => 12
  | forBlock .control => 8
  | tryBlock .catchHead => 9
  | tryBlock .bodyStart => 8
  | optionalExpression => 4
  | expressionList .item => 5
  | expression { step := .operand, .. } | expression { step := .memberName, .. } => 3
  | group { step := .item, .. } => 5
  | lambda { step := .parameters, .. } => 6
  | lambda { step := .afterParameters, .. } => 5
  | query { step := .groupHead, .. } | query { step := .skipOrTake, .. } => 5
  | query { step := .afterRangeVariable, .. } | query { step := .orderBy, .. } => 2
  | query { step := .maybeContinued, .. } => 2
  | _ => 1

theorem weight_pos (kind : TokenKind) (f : Frame) : 0 < f.weight kind := by
  unfold weight
  repeat' split
  all_goals exact Nat.succ_pos _

theorem weight_le (kind : TokenKind) (f : Frame) : f.weight kind ≤ 13 := by
  unfold weight
  repeat' split
  all_goals decide

/-- A frame that a token may get past makes few moves with it. -/
theorem weight_le_of_passesOn {kind : TokenKind} {f : Frame} (h : f.passesOn kind = true) :
    f.weight kind ≤ 6 := by
  unfold weight
  split
  all_goals first
    | decide
    | (repeat' split) <;> decide
    | cases h

end Frame

/-- The weights of the frames from the top of the stack down to one that the token cannot get
    past. -/
def cost (kind : TokenKind) : List Frame → Nat
  | [] => 0
  | f :: below => f.weight kind + if f.passesOn kind then cost kind below else 0

theorem cost_le (kind : TokenKind) (stack : List Frame) :
    cost kind stack ≤ 6 * stack.length + 13 := by
  induction stack with
  | nil => exact Nat.zero_le _
  | cons f below ih =>
    rw [cost, List.length_cons]
    split
    · next passes =>
      have := Frame.weight_le_of_passesOn passes
      omega
    · have := f.weight_le kind
      omega

/-! ## Outcomes that lower the cost -/

/-- If the outcome passes the token on and announces nothing, the stack costs less than before. -/
def Lowers (kind : TokenKind) (f : Frame) (o : Outcome) : Prop :=
  o.consumed = false → o.signal = none →
    ∀ below, cost kind (o.stackOn below) < cost kind (f :: below)

section Lowers

variable {kind : TokenKind} {f : Frame} {o : Outcome}

theorem lowers_of_consumed (h : o.consumed = true) : Lowers kind f o := by
  intro passed
  rw [h] at passed
  cases passed

theorem lowers_of_signal {s : Signal} (h : o.signal = some s) : Lowers kind f o := by
  intro _ silent
  rw [h] at silent
  cases silent

theorem lowers_of_pop (h : o.action = .pop) (passes : f.passesOn kind = true) :
    Lowers kind f o := by
  intro _ _ below
  have := f.weight_pos kind
  simp only [Outcome.stackOn, h, cost, passes, if_true]
  omega

/-- The frame on top is another one. -/
theorem cost_lt_of_top {g : Frame} (less : g.weight kind < f.weight kind)
    (passes : g.passesOn kind = true → f.passesOn kind = true) (below : List Frame) :
    cost kind (g :: below) < cost kind (f :: below) := by
  rw [cost, cost]
  cases hg : g.passesOn kind with
  | false => simp only [Bool.false_eq_true, if_false]; omega
  | true => simp only [passes hg, if_true]; omega

theorem lowers_of_stay (h : o.action = .stay) (less : o.frame.weight kind < f.weight kind)
    (passes : o.frame.passesOn kind = true → f.passesOn kind = true) : Lowers kind f o := by
  intro _ _ below
  simp only [Outcome.stackOn, h]
  exact cost_lt_of_top less passes below

theorem lowers_of_replace {next : Frame} (h : o.action = .replace next)
    (less : next.weight kind < f.weight kind)
    (passes : next.passesOn kind = true → f.passesOn kind = true) : Lowers kind f o := by
  intro _ _ below
  simp only [Outcome.stackOn, h]
  exact cost_lt_of_top less passes below

/-- The token gets past neither of the two frames, or past the frame as well. -/
theorem lowers_of_push {child : Frame} (h : o.action = .push child)
    (less : child.weight kind + o.frame.weight kind < f.weight kind)
    (passes : child.passesOn kind = true → o.frame.passesOn kind = true →
      f.passesOn kind = true) : Lowers kind f o := by
  intro _ _ below
  simp only [Outcome.stackOn, h, cost]
  cases hc : child.passesOn kind with
  | false => simp only [Bool.false_eq_true, if_false]; omega
  | true =>
    cases hg : o.frame.passesOn kind with
    | false => simp only [Bool.false_eq_true, if_false, if_true]; omega
    | true => simp only [passes hc hg, if_true]; omega

/-- The part that is opened uses up the token. -/
theorem lowers_of_open {child : Frame} (h : o.action = .push child)
    (less : child.weight kind < f.weight kind) (stops : child.passesOn kind = false) :
    Lowers kind f o := by
  intro _ _ below
  simp only [Outcome.stackOn, h, cost, stops, Bool.false_eq_true, if_false]
  omega

end Lowers

/-! ## Every production lowers the cost -/

/-- In the list of declarations of a source, a token that is not used up is taken for the start of a
    statement. -/
theorem DeclarationList.offer_unit (bodiless custom : Bool) (kind : TokenKind) :
    (offer ⟨.unit, .start, bodiless, custom⟩ kind).consumed = true
      ∨ offer ⟨.unit, .start, bodiless, custom⟩ kind
        = .push (.declarations ⟨.unit, .start, bodiless, custom⟩) (.statement .start) := by
  unfold offer offerKeyword
  dsimp only
  repeat' split
  all_goals first
    | exact .inl rfl
    | exact .inr rfl

/-- What was read before on the line does not decide whether a token is used up. -/
theorem DeclarationList.consumed_offer_unit (bodiless custom : Bool) (kind : TokenKind) :
    (offer ⟨.unit, .start, bodiless, custom⟩ kind).consumed
      = (offer { scope := .unit } kind).consumed := by
  unfold offer offerKeyword
  dsimp only
  split
  all_goals first
    | rfl
    | (split <;> first | rfl | (split <;> rfl))

theorem DeclarationList.lowers_offer (d : DeclarationList) (kind : TokenKind)
    (found : d.scope = .unit → d.step = .start → isLost kind = false) :
    Lowers kind (.declarations d) (d.offer kind) := by
  obtain ⟨scope, step, bodiless, custom⟩ := d
  cases step with
  | afterEnd =>
    unfold offer afterEnd
    dsimp only
    repeat' split
    all_goals first
      | exact lowers_of_consumed rfl
      | exact lowers_of_signal rfl
      | exact lowers_of_push rfl (of_decide_eq_true rfl) (fun _ h => nomatch h)
  | start =>
    cases scope with
    | unit =>
      rcases offer_unit bodiless custom kind with used | opens
      · exact lowers_of_consumed used
      · have passed : (offer { scope := .unit } kind).consumed = false := by
          rw [← consumed_offer_unit bodiless custom, opens]
          rfl
        have starts : (Frame.statement .start).passesOn kind = false := by
          simpa [isLost, passed, Frame.passesOn] using found rfl rfl
        rw [opens]
        exact lowers_of_open rfl (of_decide_eq_true rfl) starts
    | space | type =>
      unfold offer offerKeyword stray
      dsimp only
      repeat' split
      all_goals first
        | exact lowers_of_consumed rfl
        | (next name =>
            exact lowers_of_open rfl (of_decide_eq_true rfl) (by simp [Frame.passesOn, name]))

theorem lowers_offerAttributeList (step : NameStep) (kind : TokenKind) :
    Lowers kind (.attributeList step) (offerAttributeList step kind) := by
  unfold offerAttributeList
  dsimp only
  repeat' split
  all_goals exact lowers_of_consumed rfl

theorem lowers_offerImports (step : NameStep) (kind : TokenKind) :
    Lowers kind (.imports step) (offerImports step kind) := by
  unfold offerImports
  dsimp only
  repeat' split
  all_goals first
    | exact lowers_of_consumed rfl
    | exact lowers_of_pop rfl rfl
    | exact lowers_of_open rfl (of_decide_eq_true rfl) rfl

theorem lowers_offerRestOfLine (kind : TokenKind) :
    Lowers kind .restOfLine (offerRestOfLine kind) := by
  unfold offerRestOfLine
  split
  · exact lowers_of_pop rfl rfl
  · exact lowers_of_consumed rfl

theorem lowers_offerSkipParens (depth : Nat) (kind : TokenKind) :
    Lowers kind (.skipParens depth) (offerSkipParens depth kind) := by
  unfold offerSkipParens
  repeat' split
  all_goals exact lowers_of_consumed rfl

theorem lowers_offerTypeName (step : NameStep) (kind : TokenKind) :
    Lowers kind (.typeName step) (offerTypeName step kind) := by
  unfold offerTypeName
  dsimp only
  repeat' split
  all_goals first
    | exact lowers_of_consumed rfl
    | exact lowers_of_pop rfl rfl

theorem MemberHeader.lowers_offer (m : MemberHeader) (kind : TokenKind) :
    Lowers kind (.member m) (m.offer kind) := by
  obtain ⟨word, body, step⟩ := m
  unfold offer afterName
  cases step
  all_goals
    dsimp only
    repeat' split
  all_goals first
    | exact lowers_of_consumed rfl
    | exact lowers_of_pop rfl rfl
    | exact lowers_of_stay rfl (of_decide_eq_true rfl) (fun _ => rfl)
    | exact lowers_of_push rfl (of_decide_eq_true rfl) (fun _ _ => rfl)
    | exact lowers_of_replace rfl (of_decide_eq_true rfl) (fun _ => rfl)

theorem lowers_offerParameters (step : NameStep) (kind : TokenKind) :
    Lowers kind (.parameters step) (offerParameters step kind) := by
  unfold offerParameters
  dsimp only
  repeat' split
  all_goals first
    | exact lowers_of_consumed rfl
    | exact lowers_of_pop rfl rfl

theorem AccessorList.lowers_offer (a : AccessorList) (kind : TokenKind) :
    Lowers kind (.accessors a) (a.offer kind) := by
  obtain ⟨owner, step, seen⟩ := a
  unfold offer afterEnd stray
  cases step
  all_goals
    dsimp only
    repeat' split
  all_goals first
    | exact lowers_of_consumed rfl
    | exact lowers_of_signal rfl
    | exact lowers_of_pop rfl rfl
    | exact lowers_of_stay rfl (of_decide_eq_true rfl) (fun _ => rfl)

theorem lowers_offerEnumBody (step : EnumStep) (kind : TokenKind) :
    Lowers kind (.enumBody step) (offerEnumBody step kind) := by
  unfold offerEnumBody
  dsimp only
  repeat' split
  all_goals first
    | exact lowers_of_consumed rfl
    | exact lowers_of_signal rfl
    | exact lowers_of_stay rfl (of_decide_eq_true rfl) (fun h => nomatch h)

theorem lowers_offerDeclarators (step : NameStep) (kind : TokenKind) :
    Lowers kind (.declarators step) (offerDeclarators step kind) := by
  unfold offerDeclarators
  dsimp only
  repeat' split
  all_goals first
    | exact lowers_of_consumed rfl
    | exact lowers_of_pop rfl rfl
    | (next noName => exact lowers_of_pop rfl (by simp [Frame.passesOn, noName]))

theorem StatementList.lowers_betweenStatements (s : StatementList) (kind : TokenKind)
    (h : s.step = .start ∨ s.step = .afterStatement) :
    Lowers kind (.statements s) (s.betweenStatements kind) := by
  unfold betweenStatements
  dsimp only
  split
  · next ends => exact lowers_of_pop rfl (by simp [Frame.passesOn, ends.1, ends.2])
  split
  · exact lowers_of_consumed rfl
  next inner =>
  split
  · next stops => exact lowers_of_pop rfl (by rw [Frame.passesOn, stops]; rfl)
  next goesOn =>
  split
  · exact lowers_of_consumed rfl
  split
  · exact lowers_of_consumed rfl
  next busy =>
  split
  · exact lowers_of_consumed rfl
  -- a statement that comes to nothing leaves the list after a statement, where it stops as before
  have start : s.step = .start := h.resolve_right busy
  refine lowers_of_push rfl ?_ (fun _ passes => passes)
  simp only [not_or] at inner
  simp [Frame.weight, Outcome.push, start, goesOn, inner.1, inner.2]

theorem StatementList.lowers_offer (s : StatementList) (kind : TokenKind) :
    Lowers kind (.statements s) (s.offer kind) := by
  unfold offer
  split
  · next step =>
    unfold afterEnd
    dsimp only
    repeat' split
    all_goals first
      | exact lowers_of_consumed rfl
      | exact lowers_of_signal rfl
      | exact lowers_of_stay rfl (by simp [Frame.weight, Outcome.retry, step])
          (fun passes => passes)
  · next step =>
    split
    · exact lowers_of_stay rfl (by simp [Frame.weight, Outcome.retry, step]) (fun passes => passes)
    · exact lowers_of_consumed rfl
  · next step => exact s.lowers_betweenStatements kind (.inl step)
  · next step => exact s.lowers_betweenStatements kind (.inr step)

/-- A statement that does not use up its first token is an expression. -/
theorem offerStatement_first (step : StatementStep) (kind : TokenKind)
    (first : step ≠ .afterReDim) :
    (offerStatement step kind).consumed = true
      ∨ offerStatement step kind = .replace (.statement step) .newExpression := by
  unfold offerStatement
  dsimp only
  repeat' split
  all_goals first
    | exact .inl rfl
    | exact .inr rfl
    | exact absurd rfl first

theorem lowers_offerStatement (step : StatementStep) (kind : TokenKind) :
    Lowers kind (.statement step) (offerStatement step kind) := by
  by_cases first : step = .afterReDim
  · subst first
    unfold offerStatement
    dsimp only
    repeat' split
    all_goals first
      | exact lowers_of_consumed rfl
      | exact lowers_of_replace rfl (of_decide_eq_true rfl) (fun _ => rfl)
  · rcases offerStatement_first step kind first with used | opens
    · exact lowers_of_consumed used
    · have used : (offerStatement step kind).consumed = false := by
        rw [opens]
        rfl
      rw [opens]
      cases step with
      | afterReDim => exact absurd rfl first
      | start | lambdaBody =>
        refine lowers_of_replace rfl (of_decide_eq_true rfl) ?_
        intro passes
        rw [Frame.passesOn, used]
        · exact passes
        · exact nofun

/-! ## Blocks -/

/-- A token gets past a list of statements only if the list stops at it or ends with its line. -/
theorem passesOn_statements {list : StatementList} {kind : TokenKind} :
    (Frame.statements list).passesOn kind = true
      ↔ (∃ word ∈ list.stops, kind = .keyword word) ∨ kind = .eol ∧ list.singleLine = true := by
  have stops : list.stopsAt kind = true ↔ ∃ word ∈ list.stops, kind = .keyword word := by
    unfold StatementList.stopsAt
    cases kind with
    | keyword word => simp [TokenKind.keyword?]
    | _ => simp [TokenKind.keyword?]
  simp [Frame.passesOn, stops]

theorem weight_statements_le (list : StatementList) (kind : TokenKind) :
    (Frame.statements list).weight kind ≤ 6 := by
  unfold Frame.weight
  dsimp only
  repeat' split
  all_goals decide

/-- The body of a block is a list of statements that stops at words which the block uses up. -/
theorem lowers_of_body {kind : TokenKind} {f : Frame} {o : Outcome} {list : StatementList}
    (h : o.action = .push (.statements list)) (body : o.frame.weight kind = 1)
    (heavy : 8 ≤ f.weight kind) (line : kind = .eol → list.singleLine = false)
    (stops : ∀ word ∈ list.stops, o.frame.passesOn (.keyword word) = false) :
    Lowers kind f o := by
  refine lowers_of_push h ?_ ?_
  · have := weight_statements_le list kind
    omega
  · intro passes passes'
    rcases passesOn_statements.1 passes with ⟨word, mem, rfl⟩ | ⟨eol, single⟩
    · rw [stops word mem] at passes'
      cases passes'
    · rw [line eol] at single
      cases single

theorem lowers_offerIf {step : IfStep} (kind : TokenKind)
    (waits : (Frame.ifBlock step).epsilon? = none) :
    Lowers kind (.ifBlock step) (offerIf step kind) := by
  unfold offerIf
  dsimp only
  split
  all_goals first
    | exact lowers_of_consumed rfl
    | exact lowers_of_stay rfl (of_decide_eq_true rfl) (fun h => by cases h)
    | exact lowers_of_open rfl (of_decide_eq_true rfl) rfl
    | (cases waits; done)
    | skip
  · next inLine =>
    exact lowers_of_body rfl rfl (of_decide_eq_true rfl) (fun eol => absurd eol inLine) (by decide)
  · next noElseIf noElse =>
    exact lowers_of_pop rfl (by simpa [Frame.passesOn] using ⟨noElseIf, noElse⟩)
  · exact lowers_of_body rfl rfl (of_decide_eq_true rfl) (fun _ => rfl) (by decide)
  · next noElse => exact lowers_of_pop rfl (by simpa [Frame.passesOn] using noElse)

theorem lowers_offerSelect {step : SelectStep} (kind : TokenKind)
    (waits : (Frame.selectBlock step).epsilon? = none) :
    Lowers kind (.selectBlock step) (offerSelect step kind) := by
  unfold offerSelect
  dsimp only
  repeat' split
  all_goals first
    | exact lowers_of_consumed rfl
    | exact lowers_of_signal rfl
    | exact lowers_of_stay rfl (of_decide_eq_true rfl) (fun h => by cases h)
    | exact lowers_of_push rfl (of_decide_eq_true rfl) (fun _ h => by cases h)
    | (cases waits; done)
    | skip
  next noCase => exact lowers_of_pop rfl (by simpa [Frame.passesOn] using noCase)

theorem HeadedBlock.lowers_offer {b : HeadedBlock} (kind : TokenKind)
    (waits : (Frame.headedBlock b).epsilon? = none) :
    Lowers kind (.headedBlock b) (b.offer kind) := by
  obtain ⟨word, step⟩ := b
  unfold offer
  dsimp only
  repeat' split
  all_goals first
    | exact lowers_of_consumed rfl
    | exact lowers_of_stay rfl (of_decide_eq_true rfl) (fun h => by cases h)
    | skip
  · next other => exact lowers_of_pop rfl (by simp [Frame.passesOn, other])
  · next noTail _ _ _ noWend =>
    cases step with
    | resourceTail => exact absurd rfl noTail
    | head | bodyStart => cases waits
    | body => exact lowers_of_pop rfl (by simpa [Frame.passesOn] using Or.inr (noWend rfl))

theorem lowers_offerDo {step : DoStep} (kind : TokenKind)
    (waits : (Frame.doBlock step).epsilon? = none) :
    Lowers kind (.doBlock step) (offerDo step kind) := by
  unfold offerDo
  dsimp only
  repeat' split
  all_goals first
    | exact lowers_of_consumed rfl
    | exact lowers_of_stay rfl (of_decide_eq_true rfl) (fun h => by cases h)
    | exact lowers_of_pop rfl rfl
    | skip
  next noHead noTail noLoop =>
  cases step with
  | head => exact absurd rfl noHead
  | tail => exact absurd rfl noTail
  | bodyStart | done => cases waits
  | body => exact lowers_of_pop rfl (by simpa [Frame.passesOn] using noLoop rfl)

theorem lowers_offerFor (step : ForStep) (kind : TokenKind) :
    Lowers kind (.forBlock step) (offerFor step kind) := by
  unfold offerFor
  dsimp only
  repeat' split
  all_goals first
    | exact lowers_of_consumed rfl
    | exact lowers_of_open rfl (of_decide_eq_true rfl) rfl
    | exact lowers_of_push rfl (of_decide_eq_true rfl) (fun _ h => by cases h)
    | exact lowers_of_pop rfl rfl
    | skip
  next noNext => exact lowers_of_pop rfl (by simpa [Frame.passesOn] using noNext)

theorem lowers_offerTry {step : TryStep} (kind : TokenKind)
    (waits : (Frame.tryBlock step).epsilon? = none) :
    Lowers kind (.tryBlock step) (offerTry step kind) := by
  unfold offerTry
  dsimp only
  repeat' split
  all_goals first
    | exact lowers_of_consumed rfl
    | exact lowers_of_stay rfl (of_decide_eq_true rfl) (fun h => by cases h)
    | skip
  next noHead noCatch noFinally _ _ _ _ =>
  cases step with
  | catchHead => exact absurd rfl noHead
  | bodyStart => cases waits
  | body =>
    exact lowers_of_pop rfl (by simpa [Frame.passesOn] using ⟨noCatch rfl, noFinally rfl⟩)

/-! ## Expressions -/

theorem lowers_offerOptionalExpression (kind : TokenKind) :
    Lowers kind .optionalExpression (offerOptionalExpression kind) := by
  unfold offerOptionalExpression
  split
  · exact lowers_of_pop rfl rfl
  · exact lowers_of_replace rfl (of_decide_eq_true rfl) (fun _ => rfl)

theorem lowers_offerExpressionList (step : ListStep) (kind : TokenKind) :
    Lowers kind (.expressionList step) (offerExpressionList step kind) := by
  unfold offerExpressionList
  split
  · exact lowers_of_consumed rfl
  · exact lowers_of_pop rfl rfl

/-- A token that is not used up where an operand is expected opens an XML literal. -/
theorem operandStep?_of_passed {kind : TokenKind} {step : ExpressionStep} {child : Option Frame}
    (h : operandStep? kind = some (step, false, child)) :
    step = .suffix ∧ child = some (.xmlLiteral (.new false)) ∧ startsXmlLiteral kind = true := by
  unfold operandStep? at h
  repeat' split at h
  all_goals first
    | (cases h; exact ⟨rfl, rfl, by assumption⟩)
    | cases h

theorem Expression.lowers_offer (e : Expression) (kind : TokenKind) :
    Lowers kind (.expression e) (e.offer kind) := by
  obtain ⟨step, started, continued⟩ := e
  unfold offer
  cases step with
  | suffix =>
    unfold offerSuffix
    dsimp only
    repeat' split
    all_goals first
      | exact lowers_of_consumed rfl
      | exact lowers_of_pop rfl rfl
  | memberName =>
    unfold offerMemberName
    dsimp only
    split
    · next opens =>
      subst opens
      exact lowers_of_open rfl (of_decide_eq_true rfl) rfl
    · split
      · exact lowers_of_consumed rfl
      · exact lowers_of_pop rfl rfl
  | operand =>
    unfold offerOperand
    dsimp only
    split
    · next eol =>
      subst eol
      split
      · exact lowers_of_consumed rfl
      · exact lowers_of_pop rfl rfl
    · split
      · next step consumed child found =>
        cases consumed with
        | true => exact lowers_of_consumed rfl
        | false =>
          obtain ⟨rfl, rfl, opens⟩ := operandStep?_of_passed found
          exact lowers_of_open rfl (of_decide_eq_true rfl)
            (by simp [Frame.passesOn, XmlLiteral.new, opens])
      · next found => exact lowers_of_pop rfl (by simp [Frame.passesOn, found])

theorem Group.lowers_offer (g : Group) (kind : TokenKind) :
    Lowers kind (.group g) (g.offer kind) := by
  obtain ⟨close, step⟩ := g
  unfold offer
  dsimp only
  repeat' split
  all_goals first
    | exact lowers_of_consumed rfl
    | exact lowers_of_pop rfl rfl
    | exact lowers_of_push rfl (of_decide_eq_true rfl) (fun _ _ => rfl)

theorem lowers_offerNew (step : NewStep) (kind : TokenKind) :
    Lowers kind (.newObject step) (offerNew step kind) := by
  unfold offerNew
  dsimp only
  repeat' split
  all_goals first
    | exact lowers_of_consumed rfl
    | exact lowers_of_pop rfl rfl

theorem Lambda.lowers_offer (l : Lambda) (kind : TokenKind) :
    Lowers kind (.lambda l) (l.offer kind) := by
  obtain ⟨word, step⟩ := l
  unfold offer
  dsimp only
  repeat' split
  all_goals first
    | exact lowers_of_consumed rfl
    | exact lowers_of_stay rfl (of_decide_eq_true rfl) (fun _ => rfl)
    | exact lowers_of_replace rfl (of_decide_eq_true rfl) (fun _ => rfl)

theorem Query.lowers_offer (q : Query) (kind : TokenKind) :
    Lowers kind (.query q) (q.offer kind) := by
  obtain ⟨step, clause⟩ := q
  unfold offer offerClause offerClauseKeyword
  cases step
  all_goals
    dsimp only
    repeat' split
  all_goals first
    | exact lowers_of_consumed rfl
    | exact lowers_of_signal rfl
    | exact lowers_of_pop rfl rfl
    | exact lowers_of_stay rfl (of_decide_eq_true rfl) (fun _ => rfl)
    | exact lowers_of_push rfl (of_decide_eq_true rfl) (fun _ _ => rfl)

theorem lowers_offerXmlNamespace (step : XmlNamespaceStep) (kind : TokenKind) :
    Lowers kind (.xmlNamespace step) (offerXmlNamespace step kind) := by
  unfold offerXmlNamespace
  dsimp only
  repeat' split
  all_goals first
    | exact lowers_of_consumed rfl
    | exact lowers_of_pop rfl rfl

/-- A literal that has not begun takes the token that opens it. -/
theorem after?_of_startsXmlLiteral {kind : TokenKind} (h : startsXmlLiteral kind = true)
    (x : XmlLiteral) : ∃ x', x.after? kind = some x' := by
  unfold startsXmlLiteral at h
  split at h
  all_goals first
    | exact ⟨_, rfl⟩
    | cases h

theorem XmlLiteral.lowers_offer (x : XmlLiteral) (kind : TokenKind) :
    Lowers kind (.xmlLiteral x) (x.offer kind) := by
  unfold offer
  split
  · next complete =>
    have started : x.started = true := by
      simp only [isComplete, Bool.and_eq_true] at complete
      exact complete.1.1.1.1.1.1
    split
    · exact lowers_of_consumed rfl
    · exact lowers_of_pop rfl (by simp [Frame.passesOn, started])
  · dsimp only
    split
    · exact lowers_of_consumed rfl
    · split
      · exact lowers_of_consumed rfl
      · next foreign =>
        refine lowers_of_pop rfl ?_
        cases starts : startsXmlLiteral kind with
        | false => simp [Frame.passesOn, starts]
        | true =>
          obtain ⟨x', taken⟩ := after?_of_startsXmlLiteral starts { x with started := true }
          rw [taken] at foreign
          cases foreign

/-! ## All frames -/

/-- What a frame does by itself lowers the cost, whatever token follows. -/
theorem lowers_epsilon? {f : Frame} {o : Outcome} (h : f.epsilon? = some o) (kind : TokenKind) :
    Lowers kind f o := by
  unfold Frame.epsilon? at h
  split at h
  all_goals cases h
  all_goals first
    | exact lowers_of_pop rfl rfl
    | exact lowers_of_open rfl (of_decide_eq_true rfl) rfl
    | exact lowers_of_body rfl rfl (of_decide_eq_true rfl) (fun _ => rfl) (by decide)
    | exact lowers_of_push rfl (of_decide_eq_true rfl) (fun _ _ => rfl)
    | exact lowers_of_push rfl (of_decide_eq_true rfl) (fun _ h => by cases h)
    | skip
  · split
    · exact lowers_of_push rfl (of_decide_eq_true rfl) (fun _ h => by cases h)
    · exact lowers_of_push rfl (of_decide_eq_true rfl) (fun _ h => by cases h)
  · split
    · next loop =>
      subst loop
      exact lowers_of_body rfl rfl (of_decide_eq_true rfl) (fun _ => rfl) (by decide)
    · exact lowers_of_body rfl rfl (of_decide_eq_true rfl) (fun _ => rfl)
        (fun _ mem => by cases mem)

/-- Each move lowers the cost if it passes the token on in silence. The exception is a token that
    starts nothing, in the list of declarations of a source. -/
theorem lowers_move (f : Frame) (kind : TokenKind)
    (found : ∀ d, f = .declarations d → d.scope = .unit → d.step = .start → isLost kind = false) :
    Lowers kind f (f.epsilon?.getD (f.offer kind)) := by
  cases waits : f.epsilon? with
  | some o => exact lowers_epsilon? waits kind
  | none =>
    rw [Option.getD_none]
    cases f with
    | bottom => cases waits
    | declarations d => exact d.lowers_offer kind (found d rfl)
    | attributeList step => exact lowers_offerAttributeList step kind
    | imports step => exact lowers_offerImports step kind
    | restOfLine => exact lowers_offerRestOfLine kind
    | skipParens depth => exact lowers_offerSkipParens depth kind
    | typeName step => exact lowers_offerTypeName step kind
    | member header => exact header.lowers_offer kind
    | parameters step => exact lowers_offerParameters step kind
    | accessors list => exact list.lowers_offer kind
    | enumBody step => exact lowers_offerEnumBody step kind
    | declarators step => exact lowers_offerDeclarators step kind
    | statements list => exact list.lowers_offer kind
    | statement step => exact lowers_offerStatement step kind
    | ifBlock step => exact lowers_offerIf kind waits
    | selectBlock step => exact lowers_offerSelect kind waits
    | headedBlock block => exact HeadedBlock.lowers_offer kind waits
    | doBlock step => exact lowers_offerDo kind waits
    | forBlock step => exact lowers_offerFor step kind
    | tryBlock step => exact lowers_offerTry kind waits
    | optionalExpression => exact lowers_offerOptionalExpression kind
    | expressionList step => exact lowers_offerExpressionList step kind
    | expression e => exact e.lowers_offer kind
    | group g => exact g.lowers_offer kind
    | newObject step => exact lowers_offerNew step kind
    | lambda l => exact l.lowers_offer kind
    | query q => exact q.lowers_offer kind
    | xmlNamespace step => exact lowers_offerXmlNamespace step kind
    | xmlLiteral x => exact x.lowers_offer kind

end BasicLexis.Classifier
