import BasicLexis.Proofs.Classifier.Feed

set_option autoImplicit false

/-! # The discipline of the productions

Every production leaves the stack in good order, whatever the tokens are. A frame that stands below
another is between two of its parts, a production that takes the place of a statement stands on a
frame that reads statements or on an expression, and the words at which a list of statements stops
are none that a statement starts with. The bottom frame is never ended. A frame announces something
only while it ends, and only if it has just read an `End`, a line end in a query, or the variables
after `Next`. There is one lemma for each production; `orderly_move` puts them together. -/

namespace BasicLexis.Classifier

namespace Frame

/-- The bottom of the stack. -/
def isBottom : Frame → Bool
  | bottom => true
  | _ => false

/-- The frame is between two of its parts, so another may stand on it. -/
def rests : Frame → Bool
  | declarations list => list.step == .start
  | accessors list => list.step == .start
  | enumBody step => step != .afterEnd
  | statements list => list.step == .afterStatement
  | selectBlock step => step != .afterEnd
  | expression e => e.step == .suffix
  | query q => q.step != .maybeContinued
  | _ => true

/-- With the next token, the frame may announce that something further down is over. -/
def mayAnnounce : Frame → Bool
  | declarations list => list.step == .afterEnd
  | accessors list => list.step == .afterEnd
  | enumBody step => step == .afterEnd
  | statements list => list.step == .afterEnd
  | selectBlock step => step == .afterEnd
  | query q => q.step == .maybeContinued
  | _ => false

/-- A statement, or a production that may take the place of one and close the loop around it. -/
def needsHost : Frame → Bool
  | statement _ | forBlock _ | lambda _ => true
  | _ => false

/-- The frames that statements stand on. -/
def hosts : Frame → Bool
  | declarations _ | statements _ | expression _ => true
  | _ => false

/-- No statement starts with a word at which a list of statements stops. -/
def stopsWell : Frame → Bool
  | statements list => list.stops.all isForeignToStatements
  | _ => true

/-- The frame may stand on the other. -/
def standsOn (child host : Frame) : Bool :=
  !child.isBottom && child.stopsWell && host.rests && (!child.needsHost || host.hosts)

theorem mayAnnounce_of_rests {f : Frame} (h : f.rests = true) : f.mayAnnounce = false := by
  cases f with
  | declarations list =>
    obtain ⟨scope, step, bodiless, custom⟩ := list
    cases step <;> first | rfl | cases h
  | accessors list =>
    obtain ⟨owner, step, seen⟩ := list
    cases step <;> first | rfl | cases h
  | statements list =>
    obtain ⟨closing, stops, singleLine, step⟩ := list
    cases step <;> first | rfl | cases h
  | query q =>
    obtain ⟨step, clause⟩ := q
    cases step <;> first | rfl | cases h
  | enumBody step => cases step <;> first | rfl | cases h
  | selectBlock step => cases step <;> first | rfl | cases h
  | _ => rfl

end Frame

/-- The second frame is a later state of the first. -/
structure Alike (f g : Frame) : Prop where
  bottom : g.isBottom = f.isBottom
  context : g.context? = f.context?
  needsHost : g.needsHost = f.needsHost
  stopsWell : g.stopsWell = f.stopsWell

/-- The outcome opens only frames that may stand where they are put, none of which announces
    anything before it used up a token, and never ends the bottom frame. What it announces, it
    announces while it ends a frame that may do so. -/
def Outcome.inOrder (f : Frame) (o : Outcome) : Bool :=
  (match o.action with
    | .stay => o.consumed || !o.frame.mayAnnounce
    | .push child => child.standsOn o.frame && !child.mayAnnounce
    | .pushBoth first second =>
      first.standsOn o.frame && second.standsOn first && !second.mayAnnounce
    | .pop => !f.isBottom
    | .replace next =>
      !f.isBottom && !next.isBottom && next.stopsWell && !next.mayAnnounce
        && (!next.needsHost || f.needsHost))
  && (match o.signal, o.action with
    | none, _ => true
    | some .closesOuterLoop, .pop => o.consumed && f.needsHost
    | some _, .pop => !o.consumed && f.mayAnnounce
    | some _, _ => false)

/-- An outcome that keeps the discipline. -/
structure Orderly (f : Frame) (o : Outcome) : Prop where
  alike : Alike f o.frame
  inOrder : o.inOrder f = true

/-! ## Every production keeps the discipline -/

theorem alike_declarations {d d' : DeclarationList} (h : d'.scope = d.scope) :
    Alike (.declarations d) (.declarations d') := by
  obtain ⟨scope, step, bodiless, custom⟩ := d
  obtain ⟨scope', step', bodiless', custom'⟩ := d'
  dsimp only at h
  subst h
  cases scope' <;> exact ⟨rfl, rfl, rfl, rfl⟩

namespace DeclarationList

theorem orderly_stray (scope : Scope) (bodiless custom : Bool) (kind : TokenKind) :
    Orderly (.declarations ⟨scope, .start, bodiless, custom⟩)
      (stray ⟨scope, .start, bodiless, custom⟩ kind) := by
  unfold stray
  repeat' split
  all_goals exact ⟨alike_declarations rfl, rfl⟩

theorem orderly_afterEnd (scope : Scope) (bodiless custom : Bool) (kind : TokenKind) :
    Orderly (.declarations ⟨scope, .afterEnd, bodiless, custom⟩)
      (afterEnd ⟨scope, .afterEnd, bodiless, custom⟩ kind) := by
  unfold afterEnd
  dsimp only
  repeat' split
  all_goals exact ⟨alike_declarations rfl, rfl⟩

theorem orderly_offerKeyword (scope : Scope) (bodiless custom : Bool) (word : Keyword) :
    Orderly (.declarations ⟨scope, .start, bodiless, custom⟩)
      (offerKeyword ⟨scope, .start, bodiless, custom⟩ word) := by
  have stray := orderly_stray scope bodiless custom (.keyword word)
  unfold offerKeyword
  dsimp only
  split
  all_goals try exact ⟨alike_declarations rfl, rfl⟩
  split
  · exact ⟨alike_declarations rfl, rfl⟩
  · exact stray

theorem orderly_offer (d : DeclarationList) (kind : TokenKind) :
    Orderly (.declarations d) (d.offer kind) := by
  obtain ⟨scope, step, bodiless, custom⟩ := d
  cases step with
  | afterEnd => exact orderly_afterEnd scope bodiless custom kind
  | start =>
    unfold offer
    dsimp only
    split
    · exact ⟨alike_declarations rfl, rfl⟩
    · exact ⟨alike_declarations rfl, rfl⟩
    · exact ⟨alike_declarations rfl, rfl⟩
    · exact orderly_offerKeyword scope bodiless custom _
    · exact orderly_stray scope bodiless custom _

end DeclarationList

theorem orderly_offerAttributeList (step : NameStep) (kind : TokenKind) :
    Orderly (.attributeList step) (offerAttributeList step kind) := by
  unfold offerAttributeList
  dsimp only
  repeat' split
  all_goals exact ⟨⟨rfl, rfl, rfl, rfl⟩, rfl⟩

theorem orderly_offerImports (step : NameStep) (kind : TokenKind) :
    Orderly (.imports step) (offerImports step kind) := by
  unfold offerImports
  dsimp only
  repeat' split
  all_goals exact ⟨⟨rfl, rfl, rfl, rfl⟩, rfl⟩

theorem orderly_offerRestOfLine (kind : TokenKind) :
    Orderly .restOfLine (offerRestOfLine kind) := by
  unfold offerRestOfLine
  split <;> exact ⟨⟨rfl, rfl, rfl, rfl⟩, rfl⟩

theorem orderly_offerSkipParens (depth : Nat) (kind : TokenKind) :
    Orderly (.skipParens depth) (offerSkipParens depth kind) := by
  unfold offerSkipParens
  repeat' split
  all_goals exact ⟨⟨rfl, rfl, rfl, rfl⟩, rfl⟩

theorem orderly_offerTypeName (step : NameStep) (kind : TokenKind) :
    Orderly (.typeName step) (offerTypeName step kind) := by
  unfold offerTypeName
  dsimp only
  repeat' split
  all_goals exact ⟨⟨rfl, rfl, rfl, rfl⟩, rfl⟩

theorem MemberHeader.orderly_offer (m : MemberHeader) (kind : TokenKind) :
    Orderly (.member m) (m.offer kind) := by
  unfold offer afterName
  dsimp only
  repeat' split
  all_goals exact ⟨⟨rfl, rfl, rfl, rfl⟩, rfl⟩

theorem orderly_offerParameters (step : NameStep) (kind : TokenKind) :
    Orderly (.parameters step) (offerParameters step kind) := by
  unfold offerParameters
  dsimp only
  repeat' split
  all_goals exact ⟨⟨rfl, rfl, rfl, rfl⟩, rfl⟩

theorem AccessorList.orderly_offer (a : AccessorList) (kind : TokenKind) :
    Orderly (.accessors a) (a.offer kind) := by
  obtain ⟨owner, step, seen⟩ := a
  unfold offer afterEnd stray
  cases step
  all_goals
    dsimp only
    repeat' split
    all_goals exact ⟨⟨rfl, rfl, rfl, rfl⟩, rfl⟩

theorem orderly_offerEnumBody (step : EnumStep) (kind : TokenKind) :
    Orderly (.enumBody step) (offerEnumBody step kind) := by
  unfold offerEnumBody
  dsimp only
  repeat' split
  all_goals exact ⟨⟨rfl, rfl, rfl, rfl⟩, rfl⟩

theorem orderly_offerDeclarators (step : NameStep) (kind : TokenKind) :
    Orderly (.declarators step) (offerDeclarators step kind) := by
  unfold offerDeclarators
  dsimp only
  repeat' split
  all_goals exact ⟨⟨rfl, rfl, rfl, rfl⟩, rfl⟩

theorem StatementList.orderly_offer (s : StatementList) (kind : TokenKind) :
    Orderly (.statements s) (s.offer kind) := by
  obtain ⟨closing, stops, singleLine, step⟩ := s
  unfold offer afterEnd betweenStatements
  cases step
  all_goals
    dsimp only
    repeat' split
    all_goals exact ⟨⟨rfl, rfl, rfl, rfl⟩, rfl⟩

/-- The production that a keyword chooses may take the place of a statement. -/
theorem orderly_statementAfter? {word : Keyword} {next : Frame}
    (h : statementAfter? word = some next) (step : StatementStep) :
    Orderly (.statement step) (.consumeReplace (.statement step) next) := by
  unfold statementAfter? at h
  split at h
  all_goals first
    | (cases h; exact ⟨⟨rfl, rfl, rfl, rfl⟩, rfl⟩)
    | cases h

theorem orderly_offerStatement (step : StatementStep) (kind : TokenKind) :
    Orderly (.statement step) (offerStatement step kind) := by
  unfold offerStatement
  dsimp only
  split
  · exact ⟨⟨rfl, rfl, rfl, rfl⟩, rfl⟩
  · exact ⟨⟨rfl, rfl, rfl, rfl⟩, rfl⟩
  · exact ⟨⟨rfl, rfl, rfl, rfl⟩, rfl⟩
  · split
    · next found => exact orderly_statementAfter? found step
    · split <;> exact ⟨⟨rfl, rfl, rfl, rfl⟩, rfl⟩
  · exact ⟨⟨rfl, rfl, rfl, rfl⟩, rfl⟩

theorem orderly_offerIf (step : IfStep) (kind : TokenKind) :
    Orderly (.ifBlock step) (offerIf step kind) := by
  unfold offerIf
  dsimp only
  split
  all_goals exact ⟨⟨rfl, rfl, rfl, rfl⟩, rfl⟩

theorem orderly_offerSelect (step : SelectStep) (kind : TokenKind) :
    Orderly (.selectBlock step) (offerSelect step kind) := by
  unfold offerSelect
  dsimp only
  repeat' split
  all_goals exact ⟨⟨rfl, rfl, rfl, rfl⟩, rfl⟩

theorem HeadedBlock.orderly_offer (b : HeadedBlock) (kind : TokenKind) :
    Orderly (.headedBlock b) (b.offer kind) := by
  unfold offer
  dsimp only
  repeat' split
  all_goals exact ⟨⟨rfl, rfl, rfl, rfl⟩, rfl⟩

theorem orderly_offerDo (step : DoStep) (kind : TokenKind) :
    Orderly (.doBlock step) (offerDo step kind) := by
  unfold offerDo
  dsimp only
  repeat' split
  all_goals exact ⟨⟨rfl, rfl, rfl, rfl⟩, rfl⟩

theorem orderly_offerFor (step : ForStep) (kind : TokenKind) :
    Orderly (.forBlock step) (offerFor step kind) := by
  unfold offerFor
  dsimp only
  repeat' split
  all_goals exact ⟨⟨rfl, rfl, rfl, rfl⟩, rfl⟩

theorem orderly_offerTry (step : TryStep) (kind : TokenKind) :
    Orderly (.tryBlock step) (offerTry step kind) := by
  unfold offerTry
  dsimp only
  repeat' split
  all_goals exact ⟨⟨rfl, rfl, rfl, rfl⟩, rfl⟩

theorem orderly_offerOptionalExpression (kind : TokenKind) :
    Orderly .optionalExpression (offerOptionalExpression kind) := by
  unfold offerOptionalExpression
  split <;> exact ⟨⟨rfl, rfl, rfl, rfl⟩, rfl⟩

theorem orderly_offerExpressionList (step : ListStep) (kind : TokenKind) :
    Orderly (.expressionList step) (offerExpressionList step kind) := by
  unfold offerExpressionList
  split <;> exact ⟨⟨rfl, rfl, rfl, rfl⟩, rfl⟩

/-- An expression that opens a part with a token is after an operand. -/
theorem operandStep?_opens {kind : TokenKind} {step : ExpressionStep} {consumed : Bool}
    {child : Frame} (h : operandStep? kind = some (step, consumed, some child)) :
    step = .suffix ∧ child.standsOn (.expression ⟨.suffix, true, true⟩) = true
      ∧ child.mayAnnounce = false := by
  unfold operandStep? at h
  repeat' split at h
  all_goals first
    | (cases h; exact ⟨rfl, rfl, rfl⟩)
    | cases h

/-- A token that starts no part is used up where an operand is expected. -/
theorem operandStep?_consumes {kind : TokenKind} {step : ExpressionStep} {consumed : Bool}
    (h : operandStep? kind = some (step, consumed, none)) : consumed = true := by
  unfold operandStep? at h
  repeat' split at h
  all_goals first
    | (cases h; rfl)
    | cases h

theorem Expression.orderly_offer (e : Expression) (kind : TokenKind) :
    Orderly (.expression e) (e.offer kind) := by
  obtain ⟨step, started, continued⟩ := e
  unfold offer
  cases step with
  | suffix =>
    unfold offerSuffix
    dsimp only
    repeat' split
    all_goals exact ⟨⟨rfl, rfl, rfl, rfl⟩, rfl⟩
  | memberName =>
    unfold offerMemberName
    dsimp only
    repeat' split
    all_goals exact ⟨⟨rfl, rfl, rfl, rfl⟩, rfl⟩
  | operand =>
    unfold offerOperand
    dsimp only
    split
    · split <;> exact ⟨⟨rfl, rfl, rfl, rfl⟩, rfl⟩
    · split
      · next step consumed child found =>
        cases child with
        | none =>
          cases operandStep?_consumes found
          exact ⟨⟨rfl, rfl, rfl, rfl⟩, rfl⟩
        | some child =>
          -- whether the expression goes on in the next line is of no concern to its parts
          obtain ⟨rfl, stands, silent⟩ := operandStep?_opens found
          refine ⟨⟨rfl, rfl, rfl, rfl⟩, ?_⟩
          have stands' : child.standsOn (.expression ⟨.suffix, true, continued⟩) = true := stands
          simp [Outcome.inOrder, stands', silent]
      · exact ⟨⟨rfl, rfl, rfl, rfl⟩, rfl⟩

theorem Group.orderly_offer (g : Group) (kind : TokenKind) :
    Orderly (.group g) (g.offer kind) := by
  unfold offer
  dsimp only
  repeat' split
  all_goals exact ⟨⟨rfl, rfl, rfl, rfl⟩, rfl⟩

theorem orderly_offerNew (step : NewStep) (kind : TokenKind) :
    Orderly (.newObject step) (offerNew step kind) := by
  unfold offerNew
  dsimp only
  repeat' split
  all_goals exact ⟨⟨rfl, rfl, rfl, rfl⟩, rfl⟩

theorem Lambda.orderly_offer (l : Lambda) (kind : TokenKind) :
    Orderly (.lambda l) (l.offer kind) := by
  unfold offer
  dsimp only
  repeat' split
  all_goals exact ⟨⟨rfl, rfl, rfl, rfl⟩, rfl⟩

theorem Query.orderly_offer (q : Query) (kind : TokenKind) :
    Orderly (.query q) (q.offer kind) := by
  obtain ⟨step, clause⟩ := q
  unfold offer offerClause offerClauseKeyword
  cases step
  all_goals
    dsimp only
    repeat' split
    all_goals exact ⟨⟨rfl, rfl, rfl, rfl⟩, rfl⟩

theorem orderly_offerXmlNamespace (step : XmlNamespaceStep) (kind : TokenKind) :
    Orderly (.xmlNamespace step) (offerXmlNamespace step kind) := by
  unfold offerXmlNamespace
  dsimp only
  repeat' split
  all_goals exact ⟨⟨rfl, rfl, rfl, rfl⟩, rfl⟩

theorem XmlLiteral.orderly_offer (x : XmlLiteral) (kind : TokenKind) :
    Orderly (.xmlLiteral x) (x.offer kind) := by
  unfold offer
  dsimp only
  repeat' split
  all_goals exact ⟨⟨rfl, rfl, rfl, rfl⟩, rfl⟩

/-- What a frame does by itself keeps the discipline, and uses up no token. -/
theorem orderly_epsilon? {f : Frame} {o : Outcome} (h : f.epsilon? = some o) :
    Orderly f o ∧ o.consumed = false ∧ o.isClean = true := by
  unfold Frame.epsilon? at h
  split at h
  -- what a block with a head and a body does next depends on the keyword that opened it
  case h_6 kind =>
    cases h
    split <;> exact ⟨⟨⟨rfl, rfl, rfl, rfl⟩, rfl⟩, rfl, rfl⟩
  case h_7 kind =>
    cases h
    split <;> exact ⟨⟨⟨rfl, rfl, rfl, rfl⟩, rfl⟩, rfl, rfl⟩
  all_goals first
    | (cases h; exact ⟨⟨⟨rfl, rfl, rfl, rfl⟩, rfl⟩, rfl, rfl⟩)
    | cases h

/-- What a frame makes of a token keeps the discipline. -/
theorem orderly_offer (f : Frame) (kind : TokenKind) : Orderly f (f.offer kind) := by
  cases f with
  | bottom => exact ⟨⟨rfl, rfl, rfl, rfl⟩, rfl⟩
  | declarations list => exact list.orderly_offer kind
  | attributeList step => exact orderly_offerAttributeList step kind
  | imports step => exact orderly_offerImports step kind
  | restOfLine => exact orderly_offerRestOfLine kind
  | skipParens depth => exact orderly_offerSkipParens depth kind
  | typeName step => exact orderly_offerTypeName step kind
  | member header => exact header.orderly_offer kind
  | parameters step => exact orderly_offerParameters step kind
  | accessors list => exact list.orderly_offer kind
  | enumBody step => exact orderly_offerEnumBody step kind
  | declarators step => exact orderly_offerDeclarators step kind
  | statements list => exact list.orderly_offer kind
  | statement step => exact orderly_offerStatement step kind
  | ifBlock step => exact orderly_offerIf step kind
  | selectBlock step => exact orderly_offerSelect step kind
  | headedBlock block => exact block.orderly_offer kind
  | doBlock step => exact orderly_offerDo step kind
  | forBlock step => exact orderly_offerFor step kind
  | tryBlock step => exact orderly_offerTry step kind
  | optionalExpression => exact orderly_offerOptionalExpression kind
  | expressionList step => exact orderly_offerExpressionList step kind
  | expression e => exact e.orderly_offer kind
  | group g => exact g.orderly_offer kind
  | newObject step => exact orderly_offerNew step kind
  | lambda l => exact l.orderly_offer kind
  | query q => exact q.orderly_offer kind
  | xmlNamespace step => exact orderly_offerXmlNamespace step kind
  | xmlLiteral x => exact x.orderly_offer kind

theorem orderly_move (f : Frame) (kind : TokenKind) : Orderly f (f.move kind) := by
  unfold Frame.move
  cases h : f.epsilon? with
  | none => exact orderly_offer f kind
  | some o => exact (orderly_epsilon? h).1

end BasicLexis.Classifier
