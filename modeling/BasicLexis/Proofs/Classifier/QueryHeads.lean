import BasicLexis.Proofs.Classifier.Notes
import BasicLexis.Proofs.Classifier.Settling
import BasicLexis.Proofs.Classifier.StatementGrammar
import BasicLexis.Proofs.Classifier.StepLimit

set_option autoImplicit false

/-! # Queries in the heads of blocks

The head of a block ends with an expression and the end of its line. If the expression is a query,
the query reads the line end itself, because a clause may follow on the next line, and only the
token after it tells that the statement was over. Frames then end up to the nearest list of
statements. The frame of the block is not one, so it ends as well, although its body is still to
come: the token is taken as if the line with the head had not been there, and the block is never
opened.

The two runs that are compared differ in more than the stack shows, namely in the notes of where
expressions started; `unnoted` leaves these out. -/

namespace BasicLexis.Classifier

/-! ## The end of a statement -/

/-- Frames that read no statements and opened no region. -/
def Frame.isPartOfStatement (f : Frame) : Bool := !f.isStatementList && f.context?.isNone

/-- A frame without a region leaves nothing but the frames below it. -/
theorem discard_of_part {f : Frame} (h : f.isPartOfStatement = true) (c : Classifier) :
    c.discard f = c := by
  simp only [Frame.isPartOfStatement, Bool.and_eq_true, Option.isNone_iff_eq_none] at h
  unfold discard
  rw [h.2]
  rfl

theorem contexts_of_parts {parts : List Frame} (h : ∀ f ∈ parts, f.isPartOfStatement = true) :
    parts.filterMap Frame.context? = [] := by
  rw [List.filterMap_eq_nil_iff]
  intro f hf
  have part := h f hf
  simp only [Frame.isPartOfStatement, Bool.and_eq_true, Option.isNone_iff_eq_none] at part
  exact part.2

/-- At the end of a statement its parts end, each with a move, and the list of statements takes the
    token at the start of a line. -/
theorem offerToken_of_endStatement {t : Token} (ht : t.kind ≠ .eof) (fuel : Nat)
    {parts : List Frame} (h : ∀ f ∈ parts, f.isPartOfStatement = true) {s : StatementList}
    {below : List Frame} {c : Classifier} (hs : c.stack = parts ++ .statements s :: below)
    (noEnd : c.pendingEnd = none) (noNext : c.pendingNext = false)
    (pending : c.endStatement = true) :
    offerToken (fuel + 1 + parts.length) c t
      = offerToken (fuel + 1)
          { c with stack := .statements { s with step := .start } :: below, endStatement := false }
          t := by
  induction parts generalizing c with
  | nil =>
    have imposed := recover_of_endStatement (c := { c with stack := below }) (.statements s) ht
      noEnd noNext pending
    rw [if_pos (show (Frame.statements s).isStatementList = true from rfl)] at imposed
    have anew : Quiet { c with
        stack := .statements { s with step := .start } :: below
        endStatement := false } := ⟨noEnd, noNext, rfl⟩
    rw [List.length_nil, Nat.add_zero, offerToken_succ_moveOnce, offerToken_succ_moveOnce,
      moveOnce_of_free hs imposed, moveOnce_of_quiet anew rfl ht]
    rfl
  | cons f parts ih =>
    have part : f.isPartOfStatement = true := h f (List.mem_cons_self ..)
    have noList : f.isStatementList = false := by
      simp only [Frame.isPartOfStatement, Bool.and_eq_true, Bool.not_eq_true'] at part
      exact part.1
    have imposed := recover_of_endStatement
      (c := { c with stack := parts ++ .statements s :: below }) f ht noEnd noNext pending
    rw [noList, if_neg Bool.false_ne_true] at imposed
    rw [List.length_cons, ← Nat.add_assoc, offerToken_pop _ hs imposed, discard_of_part part]
    exact ih (fun g hg => h g (List.mem_cons_of_mem _ hg)) rfl noEnd noNext pending

/-- The tokens after a line end that show that a query, and with it the statement, was over. -/
def endsQuery (kind : TokenKind) : Bool :=
  kind != .eof && !kind.keyword?.any startsQueryClause && !closesAroundQuery kind

theorem ne_eof_of_endsQuery {kind : TokenKind} (h : endsQuery kind = true) : kind ≠ .eof := by
  simp only [endsQuery, Bool.and_eq_true, bne_iff_ne] at h
  exact h.1.1

/-- A query that reads such a token after a line end ends, and announces the end of the
    statement. -/
theorem move_of_endsQuery {kind : TokenKind} (h : endsQuery kind = true) (clause : Keyword) :
    (Frame.query ⟨.maybeContinued, clause⟩).move kind
      = (Outcome.pop (.query ⟨.maybeContinued, clause⟩)).announcing .endsStatement := by
  simp only [endsQuery, Bool.and_eq_true, Bool.not_eq_true'] at h
  obtain ⟨⟨-, noClause⟩, noClosing⟩ := h
  show Query.offer ⟨.maybeContinued, clause⟩ kind = _
  simp [Query.offer, noClause, noClosing]

/-- The query ends, then the parts of the statement, and then the list takes the token. -/
theorem inform_of_endsQuery {c : Classifier} (hc : Quiet c) {clause : Keyword} {parts : List Frame}
    (h : ∀ f ∈ parts, f.isPartOfStatement = true) (few : parts.length ≤ 2) {s : StatementList}
    {below : List Frame}
    (hs : c.stack = .query ⟨.maybeContinued, clause⟩ :: (parts ++ .statements s :: below))
    {t : Token} (ends : endsQuery t.kind = true) :
    c.inform (some t)
      = offerToken (Limits.maxEpsilonSteps - 2 - parts.length + 1)
          { c with
            stack := .statements { s with step := .start } :: below
            endStatement := false
            lastLocation := t.start } t := by
  have ht := ne_eof_of_endsQuery ends
  let ended : Classifier :=
    { c with
      stack := parts ++ .statements s :: below
      endStatement := true
      lastLocation := t.start }
  have announced : (c.locate t.start).moveOnce t = (ended, true) := by
    rw [moveOnce_of_quiet (c := c.locate t.start) ⟨hc.1, hc.2, hc.3⟩ hs ht,
      move_of_endsQuery ends]
    rfl
  have fuel : Limits.maxEpsilonSteps - 1
      = Limits.maxEpsilonSteps - 2 - parts.length + 1 + parts.length := by
    have steps : Limits.maxEpsilonSteps = 4096 := rfl
    omega
  calc c.inform (some t) = offerToken (Limits.maxEpsilonSteps - 1) ended t :=
        (inform_of_moveOnce announced).trans (if_pos rfl)
    _ = _ := by
        rw [fuel]
        exact offerToken_of_endStatement ht _ h rfl hc.pendingEnd hc.pendingNext rfl

/-- A token that cannot go astray is taken alike with any number of moves that is large enough. -/
theorem inform_of_found {c : Classifier} (hc : Reachable c) {t : Token}
    (found : isLost t.kind = false) {fuel : Nat}
    (enough : moveBound Limits.maxFrameDepth + 1 ≤ fuel) :
    c.inform (some t) = offerToken fuel (c.locate t.start) t := by
  obtain ⟨sound, calm⟩ := hc.sound_and_calm
  have inTime : EndsWithin t (moveBound Limits.maxFrameDepth + 1) (c.locate t.start) := by
    rcases decided (c := c.locate t.start) (sound.of_same rfl rfl) ⟨calm.1, calm.2, calm.3⟩ t
      with ends | ⟨_, -, strays⟩
    · exact ends
    · rw [strays.lost] at found
      cases found
  rw [offerToken_of_endsWithin inTime enough]
  exact offerToken_of_endsWithin inTime (by decide)

/-- A statement that is over after a query is taken off the stack with all its parts: the token is
    taken as it would be taken by a classifier that is at the start of the line with the same
    frames below. -/
theorem ask_of_endsQuery {c c' : Classifier} (hc : Reachable c) (hc' : Reachable c')
    {clause : Keyword} {parts : List Frame} (h : ∀ f ∈ parts, f.isPartOfStatement = true)
    (few : parts.length ≤ 2) {s : StatementList} {below : List Frame}
    (hs : c.stack = .query ⟨.maybeContinued, clause⟩ :: (parts ++ .statements s :: below))
    (hs' : c'.stack = .statements { s with step := .start } :: below)
    (errors : c.errors = c'.errors) {t : Token} (ends : endsQuery t.kind = true)
    (found : isLost t.kind = false) :
    (c.ask t).state.unnoted = (c'.ask t).state.unnoted ∧ (c.ask t).hints = (c'.ask t).hints := by
  have quiet := hc.quiet hs rfl
  have quiet' := hc'.quiet hs' rfl
  have contexts : c.blocks.map Block.context = c'.blocks.map Block.context := by
    rw [hc.sound_and_calm.1.regions, hc'.sound_and_calm.1.regions, hs, hs', List.filterMap_cons,
      List.filterMap_append, contexts_of_parts h]
    rfl
  -- once the parts have ended, the two states differ in their notes only
  have same : ({ c with
      stack := .statements { s with step := .start } :: below
      endStatement := false
      lastLocation := t.start } : Classifier).unnoted = (c'.locate t.start).unnoted := by
    refine unnoted_eq (c := c'.locate t.start) ?_ contexts
    simp only [locate]
    rw [errors, quiet.pendingEnd, quiet'.pendingEnd, quiet.pendingNext, quiet'.pendingNext,
      quiet'.endStatement, hs']
  have enough : moveBound Limits.maxFrameDepth + 1
      ≤ Limits.maxEpsilonSteps - 2 - parts.length + 1 := by
    have bound : moveBound Limits.maxFrameDepth = 3597 := rfl
    have steps : Limits.maxEpsilonSteps = 4096 := rfl
    omega
  have told := offerToken_of_unnoted_eq same (Limits.maxEpsilonSteps - 2 - parts.length + 1) t
  rw [← inform_of_endsQuery quiet h few hs ends, ← inform_of_found hc' found enough] at told
  exact inform_none_of_unnoted_eq told

end BasicLexis.Classifier

namespace BasicLexis.Grammar

open Classifier

/-! ## Syntax -/

/-- A query on one line, over a single name. -/
structure LineQuery where
  /-- The condition after `Where`. -/
  condition : Option Expr := none
  /-- The result after `Select`. -/
  result : Option Expr := none

/-- The kinds of the tokens of a clause that may be absent. -/
def clause (word : Keyword) : Option Expr → List TokenKind
  | none => []
  | some e => .keyword word :: e.kinds

/-- The kinds of the tokens of a query. -/
def LineQuery.kinds (q : LineQuery) : List TokenKind :=
  .keyword .From :: .identifier :: .keyword .In :: .identifier
    :: (clause .Where q.condition ++ clause .Select q.result)

/-- The clause whose items a comma would continue at the end of the query. -/
def LineQuery.lastClause (q : LineQuery) : Keyword := if q.result.isSome then .Select else .From

/-- The head of a block, up to the expression that it ends with. -/
inductive BlockHead where
  | each
  | count (first : TokenKind) (h : first.isLiteral = true)
  | headed (kind : HeadedKind)
  | loop (word : LoopWord)
  | selection

namespace BlockHead

/-- The kinds of the tokens before the expression. -/
def kinds : BlockHead → List TokenKind
  | each => [.keyword .For, .keyword .Each, .identifier, .keyword .In]
  | count first _ => [.keyword .For, .identifier, .assign, first, .keyword .To]
  | headed kind => [.keyword kind.keyword]
  | loop word => [.keyword .Do, .keyword word.keyword]
  | selection => [.keyword .Select, .keyword .Case]

/-- The kind of the first token of the body. -/
def first : BlockHead → TokenKind
  | selection => .keyword .Case
  | _ => .identifier

/-- The frame that waits for the end of the line. -/
def frame : BlockHead → Frame
  | each | count _ _ => .forBlock .control
  | headed kind => .headedBlock ⟨kind.keyword, .bodyStart⟩
  | loop _ => .doBlock .bodyStart
  | selection => .selectBlock .clauses

/-- The frames of the block after the first token of its body. -/
def begun : BlockHead → List Frame
  | each | count _ _ => [.expression ⟨.suffix, true, false⟩, midLine none [.Next], .forBlock .body]
  | headed kind =>
    [.expression ⟨.suffix, true, false⟩,
      midLine (some kind.keyword) (if kind = .While then [.Wend] else []),
      .headedBlock ⟨kind.keyword, .body⟩]
  | loop _ => [.expression ⟨.suffix, true, false⟩, midLine none [.Loop], .doBlock .body]
  | selection => [.selectBlock .caseItems]

end BlockHead

/-! ## What the frames make of the tokens -/

section Passes

variable {closing : Option Keyword} {stops : List Keyword}

/-- The head of a block waits for its expression. -/
theorem BlockHead.passes (h : BlockHead) (foreign : stops.all isForeignToStatements = true)
    (below : List Frame) (rest : List TokenKind) :
    passAll? (h.kinds ++ rest) (lineStart closing stops :: below)
      = passAll? rest (.expression {} :: h.frame :: midLine closing stops :: below) := by
  have first (kind : TokenKind) (h : opensStatement kind = true) :
      pass? kind (lineStart closing stops :: below)
        = (walk? none kind 7 (.statement .start :: midLine closing stops :: below)).bind
          (rest? none 8) := pass?_lineStart h foreign below
  cases h with
  | each =>
    refine passAll?_cons (.forBlock .head :: midLine closing stops :: below)
      (first (.keyword .For) rfl) ?_
    exact passAll?_cons _ rfl (passAll?_cons _ rfl (passAll?_cons _ rfl rfl))
  | count literal hl =>
    refine passAll?_cons (.forBlock .head :: midLine closing stops :: below)
      (first (.keyword .For) rfl) (passAll?_cons _ rfl (passAll?_cons _ rfl ?_))
    exact passAll?_cons _ (pass?_literal hl false _) (passAll?_cons _ rfl rfl)
  | headed kind => cases kind <;> exact passAll?_cons _ (first _ rfl) rfl
  | loop word =>
    refine passAll?_cons (.doBlock .head :: midLine closing stops :: below)
      (first (.keyword .Do) rfl) ?_
    cases word <;> exact passAll?_cons _ rfl rfl
  | selection =>
    refine passAll?_cons (.selectBlock .afterSelect :: midLine closing stops :: below)
      (first (.keyword .Select) rfl) (passAll?_cons _ rfl rfl)

/-- A clause leads from the place after an expression in a query to the place after its own. -/
theorem clause_passes (word : Keyword) (h : word = .Where ∨ word = .Select) (e : Option Expr)
    (last : Keyword) (below : List Frame) (rest : List TokenKind) :
    passAll? (clause word e ++ rest)
        (.expression ⟨.suffix, true, true⟩ :: .query ⟨.clauses, last⟩ :: below)
      = passAll? rest (.expression ⟨.suffix, true, true⟩
          :: .query ⟨.clauses, if e.isSome ∧ word = .Select then .Select else last⟩ :: below) := by
  cases e with
  | none => simp [clause]
  | some e =>
    rcases h with rfl | rfl
    · refine passAll?_cons (.expression ⟨.operand, false, true⟩ :: .query ⟨.clauses, last⟩ :: below)
        rfl ?_
      exact e.passes (expects_operand _ _ _) rest
    · refine passAll?_cons
        (.expression ⟨.operand, false, true⟩ :: .query ⟨.clauses, .Select⟩ :: below) rfl ?_
      exact e.passes (expects_operand _ _ _) rest

/-- A query reads the end of its line, and waits for another clause. -/
theorem LineQuery.passes (q : LineQuery) (below : List Frame) :
    passAll? (q.kinds ++ [.eol]) (.expression {} :: below)
      = some (.query ⟨.maybeContinued, q.lastClause⟩ :: .expression ⟨.suffix, true, false⟩
          :: below) := by
  obtain ⟨condition, result⟩ := q
  simp only [LineQuery.kinds, List.cons_append, List.append_assoc]
  refine passAll?_cons _ rfl (passAll?_cons _ rfl (passAll?_cons _ rfl (passAll?_cons
    (.expression ⟨.suffix, true, true⟩ :: .query ⟨.clauses, .From⟩
      :: .expression ⟨.suffix, true, false⟩ :: below) rfl ?_)))
  refine (clause_passes .Where (.inl rfl) condition .From _ _).trans ?_
  refine (clause_passes .Select (.inr rfl) result _ _ _).trans ?_
  cases condition <;> cases result <;> exact passAll?_cons _ rfl rfl

/-- After any other expression, the end of the line opens the block, and the next token starts its
    body. -/
theorem BlockHead.opens (h : BlockHead) (below : List Frame) :
    passAll? [.identifier, .eol, h.first]
        (.expression {} :: h.frame :: midLine closing stops :: below)
      = some (h.begun ++ midLine closing stops :: below) := by
  have body (closing : Option Keyword) (stops : List Keyword)
      (foreign : stops.all isForeignToStatements = true) (below : List Frame) :
      passAll? [.identifier] (lineStart closing stops :: below)
        = some (.expression ⟨.suffix, true, false⟩ :: midLine closing stops :: below) :=
    passAll?_cons _ (pass?_lineStart rfl foreign below) rfl
  cases h with
  | each | count literal hl =>
    exact passAll?_cons _ rfl (passAll?_cons _ rfl (body none [.Next] rfl _))
  | headed kind =>
    cases kind
    · exact passAll?_cons _ rfl (passAll?_cons _ rfl (body (some .While) [.Wend] rfl _))
    · exact passAll?_cons _ rfl (passAll?_cons _ rfl (body (some .With) [] rfl _))
    · exact passAll?_cons _ rfl (passAll?_cons _ rfl (body (some .SyncLock) [] rfl _))
  | loop word => exact passAll?_cons _ rfl (passAll?_cons _ rfl (body none [.Loop] rfl _))
  | selection => exact passAll?_cons _ rfl (passAll?_cons _ rfl (passAll?_cons _ rfl rfl))

end Passes

/-! ## The block is not opened -/

theorem BlockHead.part_frame (h : BlockHead) : h.frame.isPartOfStatement = true := by
  cases h <;> rfl

theorem BlockHead.endsQuery_first (h : BlockHead) :
    endsQuery h.first = true ∧ isLost h.first = false := by
  cases h <;> exact ⟨rfl, rfl⟩

/-- **A query in the head of a block leaves the block unopened.** From every reachable state that is
    at the start of a line in a list of statements, the head of a block that ends with a query, the
    end of its line and the first token of the body lead to the same stack, the same hints and the
    same errors as that token by itself. The same head with a name in place of the query leads, as
    long as the stack is never full, into the body of the block, without an error. -/
theorem query_head_unopened (h : BlockHead) (q : LineQuery) {c : Classifier} (hc : Reachable c)
    {s : StatementList} {below : List Frame} (hs : c.stack = .statements s :: below)
    (start : s.step = .start) (lines : s.singleLine = false) {queried named : List Token}
    {t : Token} (spelled : queried.map Token.kind = h.kinds ++ (q.kinds ++ [.eol]))
    (spelled' : named.map Token.kind = h.kinds ++ [.identifier, .eol]) (first : t.kind = h.first)
    (shallow : StaysShallow c queried) (shallow' : StaysShallow c (named ++ [t])) :
    (c.feed (queried ++ [t])).state.stack = (c.ask t).state.stack
      ∧ (c.feed (queried ++ [t])).hints = (c.ask t).hints
      ∧ (c.feed (queried ++ [t])).state.errors = (c.ask t).state.errors
      ∧ (c.feed (named ++ [t])).state.stack = h.begun ++ midLine s.closing s.stops :: below
      ∧ (c.feed (named ++ [t])).state.errors = c.errors := by
  have foreign := foreign_of_reachable hc hs
  obtain ⟨closing, stops, singleLine, step⟩ := s
  dsimp only at start lines foreign ⊢
  subst start lines
  have quiet := hc.quiet hs rfl
  -- the query waits for another clause
  have passed : passAll? (queried.map Token.kind) c.stack
      = some (.query ⟨.maybeContinued, q.lastClause⟩ :: .expression ⟨.suffix, true, false⟩
        :: h.frame :: midLine closing stops :: below) := by
    rw [spelled, hs]
    exact (h.passes foreign below _).trans (q.passes _)
  obtain ⟨stacked, same⟩ := feed_of_passAll? quiet passed shallow
  have parts : ∀ f ∈ [.expression ⟨.suffix, true, false⟩, h.frame],
      f.isPartOfStatement = true := by
    simp only [List.forall_mem_cons]
    exact ⟨rfl, h.part_frame, List.forall_mem_nil _⟩
  obtain ⟨ends, found⟩ := h.endsQuery_first
  rw [← first] at ends found
  obtain ⟨state, hints⟩ := ask_of_endsQuery (hc.feed queried) hc parts (Nat.le_refl _) stacked hs
    same.errors ends found
  rw [← feed_append_singleton] at state hints
  -- the name is followed by the body
  have passed' : passAll? ((named ++ [t]).map Token.kind) c.stack
      = some (h.begun ++ midLine closing stops :: below) := by
    rw [List.map_append, List.map_singleton, spelled', first, hs, List.append_assoc]
    exact (h.passes foreign below _).trans (h.opens below)
  obtain ⟨stacked', same'⟩ := feed_of_passAll? quiet passed' shallow'
  exact ⟨(congrArg Classifier.stack state :), hints, (congrArg Classifier.errors state :), stacked',
    same'.errors⟩

/-- After `While From x In y`, the next line is taken for one of the method, two frames less deep
    than after `While x`. -/
theorem query_head_unopened_while :
    let c := (({} : Classifier).feed (spell [.keyword .Sub, .identifier, .eol])).state
    let h := BlockHead.headed .While
    let q : LineQuery := {}
    let t := Token.symbol .identifier .start .start
    let queried := spell (h.kinds ++ (q.kinds ++ [.eol]))
    let named := spell (h.kinds ++ [.identifier, .eol])
    Reachable c ∧ c.stack = lineStart (some .Sub) [] :: c.stack.tail
      ∧ StaysShallow c queried ∧ StaysShallow c (named ++ [t])
      ∧ (c.feed (queried ++ [t])).state.stack = (c.ask t).state.stack
      ∧ (c.feed (queried ++ [t])).state.depth = 4 ∧ (c.feed (named ++ [t])).state.depth = 6 := by
  intro c h q t queried named
  have hc : Reachable c := Reachable.new.feed _
  have hs : c.stack = lineStart (some .Sub) [] :: c.stack.tail := by decide +kernel
  have shallow : StaysShallow c queried := by decide +kernel
  have shallow' : StaysShallow c (named ++ [t]) := by decide +kernel
  have unopened := query_head_unopened h q hc hs rfl rfl (by decide +kernel) (by decide +kernel)
    rfl shallow shallow'
  exact ⟨hc, hs, shallow, shallow', unopened.1, by decide +kernel, by decide +kernel⟩

end BasicLexis.Grammar
