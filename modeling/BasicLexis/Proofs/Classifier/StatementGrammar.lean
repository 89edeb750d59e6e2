import BasicLexis.Proofs.Classifier.ExpressionGrammar

set_option autoImplicit false

/-! # The grammar of structured statements

Statements stand on lines of their own and contain others: conditionals, loops, selections, blocks
with a head expression and exception handling. Each block has its own way to end. The words `End If`
or `End While` are read by the list of statements inside the block; `Loop`, `Next`, `Case`, `Catch`
and their like only stop that list and are read by the block below it. Either way the frame of the
block stays on the stack until the line ends.

`Statements.passes` follows the grammar on bare stacks, one token after the other. A list of
statements is left exactly as it was found, whatever is below it. -/

namespace BasicLexis.Grammar

open Classifier

/-! ## Syntax -/

/-- The name of a type: a name, a qualified name, a name with type arguments, or one that allows for
    the absence of a value. -/
inductive TypeName where
  | name (kind : TokenKind) (h : kind.isMemberName = true) (notNew : kind ≠ .keyword .New)
  | qualified (owner : TypeName) (kind : TokenKind) (h : kind.isMemberName = true)
      (notNew : kind ≠ .keyword .New)
  | generic (owner : TypeName) (first : TypeName) (others : List TypeName)
  | nullable (type : TypeName)

mutual

/-- The kinds of the tokens of a type name. -/
def TypeName.kinds : TypeName → List TokenKind
  | .name kind _ _ => [kind]
  | .qualified owner kind _ _ => owner.kinds ++ [.dot, kind]
  | .generic owner first others =>
    owner.kinds
      ++ .openParen :: .keyword .Of :: (first.kinds ++ (otherTypes others ++ [.closeParen]))
  | .nullable type => type.kinds ++ [.question]

/-- The kinds of the tokens of type names with a comma before each. -/
def otherTypes : List TypeName → List TokenKind
  | [] => []
  | t :: ts => .comma :: (t.kinds ++ otherTypes ts)

end

/-- The blocks that start with a keyword and an expression and end with `End` and the keyword. -/
inductive HeadedKind where
  | While | With | SyncLock
  deriving DecidableEq, Repr

def HeadedKind.keyword : HeadedKind → Keyword
  | While => .While
  | With => .With
  | SyncLock => .SyncLock

/-- The words before the condition of a `Do` loop. -/
inductive LoopWord where
  | While | Until
  deriving DecidableEq, Repr

def LoopWord.keyword : LoopWord → Keyword
  | While => .While
  | Until => .Until

/-- The condition of a `Do` loop. -/
structure LoopTest where
  /-- Whether the loop goes on or stops when the condition holds. -/
  word : LoopWord
  condition : Expr

/-- The kinds of the tokens of a loop condition that may be absent. -/
def loopTest : Option LoopTest → List TokenKind
  | none => []
  | some test => .keyword test.word.keyword :: test.condition.kinds

/-- The kinds of the tokens of a step width that may be absent. -/
def stepWidth : Option Expr → List TokenKind
  | none => []
  | some e => .keyword .Step :: e.kinds

/-- The kinds of the tokens of `Next`, which may name the loop variable. -/
def nextWord (named : Bool) : List TokenKind :=
  .keyword .Next :: if named then [.identifier] else []

mutual

/-- A statement. -/
inductive Statement where
  | assignment (value : Expr)
  | result (value : Expr)
  | conditional (condition : Expr) (body : Statements) (branches : Branches)
  | headed (kind : HeadedKind) (head : Expr) (body : Statements)
  | loop (before : Option LoopTest) (body : Statements) (after : Option LoopTest)
  | count (first last : Expr) (step : Option Expr) (body : Statements) (named : Bool)
  | each (source : Expr) (body : Statements) (named : Bool)
  | selection (subject : Expr) (cases : Cases)
  | attempt (body : Statements) (handlers : Handlers)

/-- Statements, each on lines of its own. -/
inductive Statements where
  | nil
  | cons (statement : Statement) (others : Statements)

/-- What follows the first branch of a conditional. -/
inductive Branches where
  | done
  | otherwise (body : Statements)
  | elseIf (condition : Expr) (body : Statements) (branches : Branches)

/-- The clauses of a selection. -/
inductive Cases where
  | nil
  | cons (item : Expr) (items : List Expr) (body : Statements) (cases : Cases)

/-- What follows the body of a `Try` block. -/
inductive Handlers where
  | done
  | finally_ (body : Statements)
  | catch_ (type : TypeName) (body : Statements) (handlers : Handlers)

end

mutual

/-- The kinds of the tokens of a statement, up to the end of its last line. -/
def Statement.kinds : Statement → List TokenKind
  | .assignment value => .identifier :: .assign :: value.kinds
  | .result value => .keyword .Return :: value.kinds
  | .conditional condition body branches =>
    .keyword .If :: (condition.kinds ++ .keyword .Then :: .eol :: (body.kinds ++ branches.kinds))
  | .headed kind head body =>
    .keyword kind.keyword
      :: (head.kinds ++ .eol :: (body.kinds ++ [.keyword .End, .keyword kind.keyword]))
  | .loop before body after =>
    .keyword .Do :: (loopTest before ++ .eol :: (body.kinds ++ .keyword .Loop :: loopTest after))
  | .count first last step body named =>
    .keyword .For :: .identifier :: .assign :: (first.kinds ++ .keyword .To :: (last.kinds
      ++ (stepWidth step ++ .eol :: (body.kinds ++ nextWord named))))
  | .each source body named =>
    .keyword .For :: .keyword .Each :: .identifier :: .keyword .In :: (source.kinds
      ++ .eol :: (body.kinds ++ nextWord named))
  | .selection subject cases =>
    .keyword .Select :: .keyword .Case :: (subject.kinds ++ .eol :: cases.kinds)
  | .attempt body handlers => .keyword .Try :: .eol :: (body.kinds ++ handlers.kinds)

def Statements.kinds : Statements → List TokenKind
  | .nil => []
  | .cons statement others => statement.kinds ++ .eol :: others.kinds

/-- The kinds of the tokens from the second branch of a conditional to its end. -/
def Branches.kinds : Branches → List TokenKind
  | .done => [.keyword .End, .keyword .If]
  | .otherwise body => .keyword .Else :: .eol :: (body.kinds ++ [.keyword .End, .keyword .If])
  | .elseIf condition body branches =>
    .keyword .ElseIf
      :: (condition.kinds ++ .keyword .Then :: .eol :: (body.kinds ++ branches.kinds))

/-- The kinds of the tokens from the first clause of a selection to its end. -/
def Cases.kinds : Cases → List TokenKind
  | .nil => [.keyword .End, .keyword .Select]
  | .cons item items body cases =>
    .keyword .Case :: (item.kinds ++ ((furtherMarks items).map Mark.kind
      ++ .eol :: (body.kinds ++ cases.kinds)))

/-- The kinds of the tokens from the first handler of a `Try` block to its end. -/
def Handlers.kinds : Handlers → List TokenKind
  | .done => [.keyword .End, .keyword .Try]
  | .finally_ body => .keyword .Finally :: .eol :: (body.kinds ++ [.keyword .End, .keyword .Try])
  | .catch_ type body handlers =>
    .keyword .Catch :: .identifier :: .keyword .As :: (type.kinds
      ++ .eol :: (body.kinds ++ handlers.kinds))

end

/-! ## What the frames make of the tokens -/

/-- A list of statements at the start of a line. -/
def lineStart (closing : Option Keyword) (stops : List Keyword) : Frame :=
  .statements ⟨closing, stops, false, .start⟩

/-- A list of statements after the first token of a statement. -/
def midLine (closing : Option Keyword) (stops : List Keyword) : Frame :=
  .statements ⟨closing, stops, false, .afterStatement⟩

/-- The tokens that the statements of the grammar start with. -/
def opensStatement : TokenKind → Bool
  | .identifier => true
  | .keyword word => !isForeignToStatements word && word != .End
  | _ => false

/-- A list of statements leaves the first token of a statement to a frame of its own. -/
theorem pass?_lineStart {kind : TokenKind} {closing : Option Keyword} {stops : List Keyword}
    (h : opensStatement kind = true) (foreign : stops.all isForeignToStatements = true)
    (below : List Frame) :
    pass? kind (lineStart closing stops :: below)
      = (walk? none kind 7 (.statement .start :: midLine closing stops :: below)).bind
        (rest? none 8) := by
  have stays : StatementList.stopsAt ⟨closing, stops, false, .start⟩ kind = false := by
    cases kind with
    | keyword word =>
      simp only [StatementList.stopsAt, TokenKind.keyword?, Option.any_some]
      rw [Bool.eq_false_iff]
      intro stopped
      have := List.all_eq_true.1 foreign word (List.contains_iff_mem.1 stopped)
      simp [opensStatement, this] at h
    | _ => rfl
  have pushed : (lineStart closing stops).move kind
      = .push (midLine closing stops) (.statement .start) := by
    cases kind with
    | identifier => rfl
    | keyword word =>
      have notEndIf : word ≠ .EndIf := by
        rintro rfl
        cases h
      have notEnd : word ≠ .End := by
        rintro rfl
        cases h
      show StatementList.betweenStatements ⟨closing, stops, false, .start⟩ (.keyword word) = _
      simp [StatementList.betweenStatements, stays, notEndIf, notEnd, midLine]
    | _ => cases h
  have notEof : kind ≠ .eof := by
    rintro rfl
    cases h
  rw [pass?, if_neg notEof, walk?, pushed]
  rfl

/-- An expression, and what the tokens after it come to. -/
theorem Expr.passes (e : Expr) {stack below : List Frame} {continued : Bool}
    (h : Expects stack continued below) (rest : List TokenKind) :
    passAll? (e.kinds ++ rest) stack
      = passAll? rest (.expression ⟨.suffix, true, continued⟩ :: below) := by
  rw [passAll?_append, Expr.kinds, (e.follows h).passAll?]
  rfl

theorem expects_result (below : List Frame) :
    Expects (.optionalExpression :: below) false below := by
  refine ⟨rfl, fun kind h => ?_⟩
  unfold startsOperand TokenKind.isLiteral at h
  repeat' split at h
  all_goals first | rfl | cases h

theorem expects_case (below : List Frame) :
    Expects (.selectBlock .caseItems :: below) false (.selectBlock .afterCaseItem :: below) := by
  refine ⟨rfl, fun kind h => ?_⟩
  unfold startsOperand TokenKind.isLiteral at h
  repeat' split at h
  all_goals first | rfl | cases h

/-! ## Type names -/

theorem pass?_typeName {kind : TokenKind} (h : kind.isMemberName = true)
    (notNew : kind ≠ .keyword .New) (below : List Frame) :
    pass? kind (.typeName .start :: below) = some (.typeName .afterName :: below) := by
  have notEof : kind ≠ .eof := by
    rintro rfl
    cases h
  have named : (Frame.typeName .start).move kind = .consume (.typeName .afterName) := by
    show offerTypeName .start kind = _
    unfold offerTypeName
    split <;> simp_all [TokenKind.isMemberName]
  rw [pass?, if_neg notEof, walk?, named]
  rfl

theorem pass?_skipParens {kind : TokenKind} (h : kind.isMemberName = true) (depth : Nat)
    (below : List Frame) :
    pass? kind (.skipParens depth :: below) = some (.skipParens depth :: below) := by
  cases kind with
  | identifier => rfl
  | keyword word => rfl
  | _ => cases h

mutual

/-- Within parentheses that are passed over, a type name leaves no trace. -/
theorem TypeName.skipped (t : TypeName) (depth : Nat) (below : List Frame)
    (rest : List TokenKind) :
    passAll? (t.kinds ++ rest) (.skipParens (depth + 1) :: below)
      = passAll? rest (.skipParens (depth + 1) :: below) := by
  cases t with
  | name kind h _ => exact passAll?_cons _ (pass?_skipParens h _ _) rfl
  | qualified owner kind h _ =>
    rw [TypeName.kinds, List.append_assoc, owner.skipped]
    exact passAll?_cons _ rfl (passAll?_cons _ (pass?_skipParens h _ _) rfl)
  | generic owner first others =>
    simp only [TypeName.kinds, List.append_assoc, List.cons_append]
    rw [owner.skipped]
    refine passAll?_cons _ rfl (passAll?_cons (.skipParens (depth + 2) :: below) rfl ?_)
    rw [first.skipped, otherTypes_skipped]
    exact passAll?_cons _ rfl rfl
  | nullable type =>
    rw [TypeName.kinds, List.append_assoc, type.skipped]
    exact passAll?_cons _ rfl rfl

theorem otherTypes_skipped (ts : List TypeName) (depth : Nat) (below : List Frame)
    (rest : List TokenKind) :
    passAll? (otherTypes ts ++ rest) (.skipParens (depth + 1) :: below)
      = passAll? rest (.skipParens (depth + 1) :: below) := by
  cases ts with
  | nil => rfl
  | cons t ts =>
    rw [otherTypes, List.cons_append, List.append_assoc]
    refine passAll?_cons (.skipParens (depth + 1) :: below) rfl ?_
    rw [t.skipped, otherTypes_skipped]

end

/-- A type name, and what the tokens after it come to. -/
theorem TypeName.passes (t : TypeName) (below : List Frame) (rest : List TokenKind) :
    passAll? (t.kinds ++ rest) (.typeName .start :: below)
      = passAll? rest (.typeName .afterName :: below) := by
  match t with
  | .name kind h notNew => exact passAll?_cons _ (pass?_typeName h notNew below) rfl
  | .qualified owner kind h notNew =>
    rw [TypeName.kinds, List.append_assoc, owner.passes]
    exact passAll?_cons _ rfl (passAll?_cons _ (pass?_typeName h notNew below) rfl)
  | .generic owner first others =>
    simp only [TypeName.kinds, List.append_assoc, List.cons_append]
    rw [owner.passes]
    refine passAll?_cons _ rfl
      (passAll?_cons (.skipParens 1 :: .typeName .afterName :: below) rfl ?_)
    rw [first.skipped, otherTypes_skipped]
    exact passAll?_cons _ rfl rfl
  | .nullable type =>
    rw [TypeName.kinds, List.append_assoc, type.passes]
    exact passAll?_cons _ rfl rfl

/-! ## Parts of statements -/

section Parts

variable {closing : Option Keyword} {stops : List Keyword}

/-- The condition of a loop head, up to the end of the line. -/
theorem loopTest_head (test : Option LoopTest) (below : List Frame) (rest : List TokenKind) :
    passAll? (loopTest test ++ .eol :: rest) (.doBlock .head :: below)
      = passAll? rest (lineStart none [.Loop] :: .doBlock .body :: below) := by
  match test with
  | none => exact passAll?_cons _ rfl rfl
  | some ⟨word, e⟩ =>
    have opened : pass? (.keyword word.keyword) (.doBlock .head :: below)
        = some (.expression {} :: .doBlock .bodyStart :: below) := by cases word <;> rfl
    refine passAll?_cons _ opened ?_
    refine (e.passes (expects_operand _ _ _) _).trans ?_
    exact passAll?_cons _ rfl rfl

/-- The condition after `Loop`, up to the end of the line. -/
theorem loopTest_tail (test : Option LoopTest) (below : List Frame) (rest : List TokenKind) :
    passAll? (loopTest test ++ .eol :: rest) (.doBlock .tail :: midLine closing stops :: below)
      = passAll? rest (lineStart closing stops :: below) := by
  match test with
  | none => exact passAll?_cons _ rfl rfl
  | some ⟨word, e⟩ =>
    have opened : pass? (.keyword word.keyword) (.doBlock .tail :: midLine closing stops :: below)
        = some (.expression {} :: .doBlock .done :: midLine closing stops :: below) := by
      cases word <;> rfl
    refine passAll?_cons _ opened ?_
    refine (e.passes (expects_operand _ _ _) _).trans ?_
    exact passAll?_cons _ rfl rfl

/-- The step width of a counting loop, up to the end of the line. -/
theorem stepWidth_passes (step : Option Expr) (below : List Frame) (rest : List TokenKind) :
    passAll? (stepWidth step ++ .eol :: rest)
        (.expression ⟨.suffix, true, false⟩ :: .forBlock .control :: below)
      = passAll? rest (lineStart none [.Next] :: .forBlock .body :: below) := by
  match step with
  | none => exact passAll?_cons _ rfl rfl
  | some e =>
    refine passAll?_cons (.expression {} :: .forBlock .control :: below) rfl ?_
    refine (e.passes (expects_operand _ _ _) _).trans ?_
    exact passAll?_cons _ rfl rfl

/-- The end of a `For` loop, and of its line. -/
theorem nextWord_passes (named : Bool) (below : List Frame) (rest : List TokenKind) :
    passAll? (nextWord named ++ .eol :: rest)
        (lineStart none [.Next] :: .forBlock .body :: midLine closing stops :: below)
      = passAll? rest (lineStart closing stops :: below) := by
  cases named
  · exact passAll?_cons _ rfl (passAll?_cons _ rfl rfl)
  · exact passAll?_cons _ rfl (passAll?_cons _ rfl (passAll?_cons _ rfl rfl))

/-- The items of a clause after the first one, up to the end of the line. -/
theorem furtherItems_passes (items : List Expr) (below : List Frame) (rest : List TokenKind) :
    passAll? ((furtherMarks items).map Mark.kind ++ .eol :: rest)
        (.expression ⟨.suffix, true, false⟩ :: .selectBlock .afterCaseItem :: below)
      = passAll? rest (lineStart (some .Select) [.Case] :: .selectBlock .body :: below) := by
  induction items with
  | nil => exact passAll?_cons _ rfl rfl
  | cons e es ih =>
    simp only [furtherMarks, List.map_cons, List.map_append, List.cons_append, List.append_assoc]
    refine passAll?_cons (.selectBlock .caseItems :: below) rfl ?_
    rw [← Expr.kinds, e.passes (expects_case _)]
    exact ih

end Parts

/-! ## The grammar is followed -/

/-- A selection waits for its next clause: before the first one the selection itself does so, after
    it the statements of the clause before. -/
def AwaitsCase (stack : List Frame) (closing : Option Keyword) (stops : List Keyword)
    (below : List Frame) : Prop :=
  stack = .selectBlock .clauses :: midLine closing stops :: below
    ∨ stack = lineStart (some .Select) [.Case] :: .selectBlock .body :: midLine closing stops
        :: below

mutual

/-- A statement with the end of its line leaves the list that it belongs to at the start of a line
    again. -/
theorem Statement.passes (s : Statement) {closing : Option Keyword} {stops : List Keyword}
    (foreign : stops.all isForeignToStatements = true) (below : List Frame)
    (rest : List TokenKind) :
    passAll? (s.kinds ++ .eol :: rest) (lineStart closing stops :: below)
      = passAll? rest (lineStart closing stops :: below) := by
  -- The first token always replaces the frame of the statement on top of the list.
  have first (kind : TokenKind) (h : opensStatement kind = true) :
      pass? kind (lineStart closing stops :: below)
        = (walk? none kind 7 (.statement .start :: midLine closing stops :: below)).bind
          (rest? none 8) := pass?_lineStart h foreign below
  cases s with
  | assignment value =>
    refine passAll?_cons (.expression ⟨.suffix, true, false⟩ :: midLine closing stops :: below)
      (first .identifier rfl) ?_
    refine passAll?_cons (.expression ⟨.operand, true, false⟩ :: midLine closing stops :: below)
      rfl ?_
    refine (value.passes (expects_operand _ _ _) _).trans ?_
    exact passAll?_cons _ rfl rfl
  | result value =>
    refine passAll?_cons (.optionalExpression :: midLine closing stops :: below)
      (first (.keyword .Return) rfl) ?_
    refine (value.passes (expects_result _) _).trans ?_
    exact passAll?_cons _ rfl rfl
  | conditional condition body branches =>
    simp only [Statement.kinds, List.cons_append, List.append_assoc]
    refine passAll?_cons (.expression {} :: .ifBlock .then_ :: midLine closing stops :: below)
      (first (.keyword .If) rfl) ?_
    refine (condition.passes (expects_operand _ _ _) _).trans ?_
    refine passAll?_cons _ rfl (passAll?_cons _ rfl ?_)
    refine (body.passes rfl _ _).trans ?_
    exact branches.passes below rest
  | headed kind head body =>
    simp only [Statement.kinds, List.cons_append, List.append_assoc]
    cases kind
    all_goals
      refine passAll?_cons (.expression {} :: .headedBlock ⟨_, .bodyStart⟩
        :: midLine closing stops :: below) (first _ rfl) ?_
      refine (head.passes (expects_operand _ _ _) _).trans ?_
      refine passAll?_cons _ rfl ?_
      refine (body.passes rfl _ _).trans ?_
      exact passAll?_cons _ rfl (passAll?_cons _ rfl (passAll?_cons _ rfl rfl))
  | loop before body after =>
    simp only [Statement.kinds, List.cons_append, List.append_assoc]
    refine passAll?_cons (.doBlock .head :: midLine closing stops :: below)
      (first (.keyword .Do) rfl) ?_
    refine (loopTest_head before _ _).trans ?_
    refine (body.passes rfl _ _).trans ?_
    refine passAll?_cons _ rfl ?_
    exact loopTest_tail after below rest
  | count start last step body named =>
    simp only [Statement.kinds, List.cons_append, List.append_assoc]
    refine passAll?_cons (.forBlock .head :: midLine closing stops :: below)
      (first (.keyword .For) rfl) ?_
    refine passAll?_cons _ rfl (passAll?_cons _ rfl ?_)
    refine (start.passes (expects_operand _ _ _) _).trans ?_
    refine passAll?_cons _ rfl ?_
    refine (last.passes (expects_operand _ _ _) _).trans ?_
    refine (stepWidth_passes step _ _).trans ?_
    refine (body.passes rfl _ _).trans ?_
    exact nextWord_passes named below rest
  | each source body named =>
    simp only [Statement.kinds, List.cons_append, List.append_assoc]
    refine passAll?_cons (.forBlock .head :: midLine closing stops :: below)
      (first (.keyword .For) rfl) ?_
    refine passAll?_cons _ rfl (passAll?_cons _ rfl (passAll?_cons _ rfl ?_))
    refine (source.passes (expects_operand _ _ _) _).trans ?_
    refine passAll?_cons _ rfl ?_
    refine (body.passes rfl _ _).trans ?_
    exact nextWord_passes named below rest
  | selection subject cases =>
    simp only [Statement.kinds, List.cons_append, List.append_assoc]
    refine passAll?_cons (.selectBlock .afterSelect :: midLine closing stops :: below)
      (first (.keyword .Select) rfl) (passAll?_cons _ rfl ?_)
    refine (subject.passes (expects_operand _ _ _) _).trans ?_
    refine passAll?_cons _ rfl ?_
    exact cases.passes (.inl rfl) rest
  | attempt body handlers =>
    simp only [Statement.kinds, List.cons_append, List.append_assoc]
    refine passAll?_cons (lineStart (some .Try) [.Catch, .Finally] :: .tryBlock .body
      :: midLine closing stops :: below) (first (.keyword .Try) rfl) (passAll?_cons _ rfl ?_)
    refine (body.passes rfl _ _).trans ?_
    exact handlers.passes below rest

/-- Statements leave the list that they belong to as it was. -/
theorem Statements.passes (l : Statements) {closing : Option Keyword} {stops : List Keyword}
    (foreign : stops.all isForeignToStatements = true) (below : List Frame)
    (rest : List TokenKind) :
    passAll? (l.kinds ++ rest) (lineStart closing stops :: below)
      = passAll? rest (lineStart closing stops :: below) := by
  cases l with
  | nil => rfl
  | cons s l =>
    rw [Statements.kinds, List.append_assoc, List.cons_append, s.passes foreign]
    exact l.passes foreign below rest

/-- The further branches of a conditional, with the end of the line after them. -/
theorem Branches.passes (b : Branches) {closing : Option Keyword} {stops : List Keyword}
    (below : List Frame) (rest : List TokenKind) :
    passAll? (b.kinds ++ .eol :: rest)
        (lineStart (some .If) [.ElseIf, .Else] :: .ifBlock .body :: midLine closing stops :: below)
      = passAll? rest (lineStart closing stops :: below) := by
  cases b with
  | done => exact passAll?_cons _ rfl (passAll?_cons _ rfl (passAll?_cons _ rfl rfl))
  | otherwise body =>
    simp only [Branches.kinds, List.cons_append, List.append_assoc]
    refine passAll?_cons _ rfl (passAll?_cons _ rfl ?_)
    refine (body.passes rfl _ _).trans ?_
    exact passAll?_cons _ rfl (passAll?_cons _ rfl (passAll?_cons _ rfl rfl))
  | elseIf condition body branches =>
    simp only [Branches.kinds, List.cons_append, List.append_assoc]
    refine passAll?_cons _ rfl ?_
    refine (condition.passes (expects_operand _ _ _) _).trans ?_
    refine passAll?_cons _ rfl (passAll?_cons _ rfl ?_)
    refine (body.passes rfl _ _).trans ?_
    exact branches.passes below rest

/-- The clauses of a selection, with the end of the line after them. -/
theorem Cases.passes (cs : Cases) {closing : Option Keyword} {stops : List Keyword}
    {below stack : List Frame} (h : AwaitsCase stack closing stops below) (rest : List TokenKind) :
    passAll? (cs.kinds ++ .eol :: rest) stack
      = passAll? rest (lineStart closing stops :: below) := by
  cases cs with
  | nil =>
    rcases h with rfl | rfl
    all_goals exact passAll?_cons _ rfl (passAll?_cons _ rfl (passAll?_cons _ rfl rfl))
  | cons item items body cs =>
    have opened : pass? (.keyword .Case) stack
        = some (.selectBlock .caseItems :: midLine closing stops :: below) := by
      rcases h with rfl | rfl <;> rfl
    simp only [Cases.kinds, List.cons_append, List.append_assoc]
    refine passAll?_cons _ opened ?_
    refine (item.passes (expects_case _) _).trans ?_
    refine (furtherItems_passes items _ _).trans ?_
    refine (body.passes rfl _ _).trans ?_
    exact cs.passes (.inr rfl) rest

/-- The handlers of a `Try` block, with the end of the line after them. -/
theorem Handlers.passes (hs : Handlers) {closing : Option Keyword} {stops : List Keyword}
    (below : List Frame) (rest : List TokenKind) :
    passAll? (hs.kinds ++ .eol :: rest)
        (lineStart (some .Try) [.Catch, .Finally] :: .tryBlock .body :: midLine closing stops
          :: below)
      = passAll? rest (lineStart closing stops :: below) := by
  cases hs with
  | done => exact passAll?_cons _ rfl (passAll?_cons _ rfl (passAll?_cons _ rfl rfl))
  | finally_ body =>
    simp only [Handlers.kinds, List.cons_append, List.append_assoc]
    refine passAll?_cons _ rfl (passAll?_cons _ rfl ?_)
    refine (body.passes rfl _ _).trans ?_
    exact passAll?_cons _ rfl (passAll?_cons _ rfl (passAll?_cons _ rfl rfl))
  | catch_ type body handlers =>
    simp only [Handlers.kinds, List.cons_append, List.append_assoc]
    refine passAll?_cons _ rfl (passAll?_cons _ rfl (passAll?_cons _ rfl ?_))
    refine (type.passes _ _).trans ?_
    refine passAll?_cons _ rfl ?_
    refine (body.passes rfl _ _).trans ?_
    exact handlers.passes below rest

end

/-- The stops of a list of statements on top of the stack start no statement. -/
theorem foreign_of_reachable {c : Classifier} (hc : Reachable c) {s : StatementList}
    {below : List Frame} (hs : c.stack = .statements s :: below) :
    s.stops.all isForeignToStatements = true := by
  have stacked := hc.sound_and_calm.1.stacked
  rw [hs] at stacked
  obtain ⟨host, lower, -, stands, -⟩ := stacked.below rfl
  simp only [Frame.standsOn, Bool.and_eq_true] at stands
  exact stands.1.1.2

/-- **Structured statements are followed.** From every reachable state that is at the start of a
    line in a list of statements, the tokens of any statements are taken without an error, as long
    as the stack is never full. They leave the frames exactly as they were, and the same regions
    open. -/
theorem statements_followed (l : Statements) {c : Classifier} (hc : Reachable c)
    {s : StatementList} {below : List Frame} (hs : c.stack = .statements s :: below)
    (start : s.step = .start) (lines : s.singleLine = false) {tokens : List Token}
    (spelled : tokens.map Token.kind = l.kinds) (shallow : StaysShallow c tokens) :
    (c.feed tokens).state.errors = c.errors
      ∧ (c.feed tokens).state.stack = c.stack
      ∧ (c.feed tokens).state.blocks.map Block.context = c.blocks.map Block.context := by
  have foreign := foreign_of_reachable hc hs
  obtain ⟨closing, stops, singleLine, step⟩ := s
  dsimp only at start lines foreign
  subst start lines
  have quiet := hc.quiet hs rfl
  have passed : passAll? (tokens.map Token.kind) c.stack = some c.stack := by
    rw [spelled, hs, ← List.append_nil l.kinds]
    exact l.passes foreign below []
  obtain ⟨stacked, same⟩ := feed_of_passAll? quiet passed shallow
  refine ⟨same.errors, stacked, ?_⟩
  -- In every reachable state the regions are those that the frames open.
  rw [(hc.feed tokens).sound_and_calm.1.regions, stacked, hc.sound_and_calm.1.regions]

/-- The statements of a method: a selection inside a `Try` block, with a loop in one of its clauses
    and a conditional of three branches in the handler. -/
theorem statements_followed_method :
    let head := spell [.keyword .Sub, .identifier, .openParen, .closeParen, .eol]
    let c := (({} : Classifier).feed head).state
    let name := Expr.primary .identifier
    let set := Statement.assignment name
    let count := Statement.count name name (some name) (.cons set .nil) true
    let choice := Statement.selection name (.cons name [name] (.cons count .nil) .nil)
    let branches := Branches.elseIf name .nil (.otherwise (.cons (.result name) .nil))
    let handler := Handlers.catch_ (.name .identifier rfl nofun)
      (.cons (.conditional name (.cons set .nil) branches) .nil) .done
    let l := Statements.cons (.attempt (.cons choice .nil) handler) .nil
    c.stack.head? = some (lineStart (some .Sub) [])
      ∧ (c.feed (spell l.kinds)).state.errors = c.errors
      ∧ (c.feed (spell l.kinds)).state.stack = c.stack
      ∧ (c.feed (spell l.kinds)).state.blocks.map Block.context = c.blocks.map Block.context := by
  intro head c name set count choice branches handler l
  have hc : Reachable c := Reachable.new.feed _
  have hs : c.stack = lineStart (some .Sub) [] :: c.stack.tail := by decide +kernel
  have spelled : (spell l.kinds).map Token.kind = l.kinds := by decide +kernel
  have shallow : StaysShallow c (spell l.kinds) := by decide +kernel
  exact ⟨by decide +kernel, statements_followed l hc hs rfl rfl spelled shallow⟩

end BasicLexis.Grammar
