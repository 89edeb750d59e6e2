import BasicLexis.Proofs.Classifier.Reachable

set_option autoImplicit false

/-! # The grammar of expressions

Expressions are built from names, literals, parentheses, calls, member accesses and collections in
braces by unary and binary operators. The tokens of an expression are marked where an operand starts
and where a primary expression ends: right before the former a less-than sign opens an XML literal,
and right after the latter it compares.

The classifier follows this grammar: wherever an operand is expected, the tokens of an expression
take the expression on top of the stack to the place after an operand and leave the frames below as
they are. -/

namespace BasicLexis.Grammar

open Classifier

/-! ## Syntax -/

/-- The operators before an operand. -/
inductive UnaryOperator where
  | minus | plus | not
  deriving DecidableEq, Repr

def UnaryOperator.kind : UnaryOperator → TokenKind
  | minus => .minus
  | plus => .plus
  | not => .keyword .Not

mutual

/-- An operand with what directly follows it. -/
inductive Primary where
  | identifier
  | literal (kind : TokenKind) (h : kind.isLiteral = true)
  | parens (e : Expr)
  | call (callee : Primary) (args : List Expr)
  | member (owner : Primary)
  | braces (items : List Expr)

/-- An expression. -/
inductive Expr where
  | primary (p : Primary)
  | unary (op : UnaryOperator) (operand : Expr)
  | binary (left : Expr) (op : TokenKind) (h : op.isBinaryOperator = true) (right : Expr)

end

/-- A token of an expression, by its kind, and what starts or ends with it. -/
structure Mark where
  kind : TokenKind
  /-- The token is the first one of an operand. -/
  opens : Bool := false
  /-- The token is the last one of a primary expression. -/
  closes : Bool := false
  deriving DecidableEq, Repr

mutual

/-- The tokens of a primary expression. -/
def Primary.marks : Primary → List Mark
  | .identifier => [{ kind := .identifier, opens := true, closes := true }]
  | .literal kind _ => [{ kind, opens := true, closes := true }]
  | .parens e =>
    { kind := .openParen, opens := true } :: (e.marks ++ [{ kind := .closeParen, closes := true }])
  | .call callee args =>
    callee.marks
      ++ { kind := .openParen } :: (itemMarks args ++ [{ kind := .closeParen, closes := true }])
  | .member owner => owner.marks ++ [{ kind := .dot }, { kind := .identifier, closes := true }]
  | .braces items =>
    { kind := .openBrace, opens := true }
      :: (itemMarks items ++ [{ kind := .closeBrace, closes := true }])

def Expr.marks : Expr → List Mark
  | .primary p => p.marks
  | .unary op operand => { kind := op.kind, opens := true } :: operand.marks
  | .binary left op _ right => left.marks ++ { kind := op } :: right.marks

/-- The tokens of expressions with commas between them. -/
def itemMarks : List Expr → List Mark
  | [] => []
  | e :: es => e.marks ++ furtherMarks es

/-- The tokens of expressions with a comma before each. -/
def furtherMarks : List Expr → List Mark
  | [] => []
  | e :: es => { kind := .comma } :: (e.marks ++ furtherMarks es)

end

def Expr.kinds (e : Expr) : List TokenKind := e.marks.map Mark.kind

/-! ## Following marked tokens -/

/-- The frame on top lets a less-than sign open an XML literal. -/
def xmlMayStart (stack : List Frame) : Bool := stack.head?.any (·.hints.xmlMayStart)

/-- The stack passes the tokens, an XML literal may start before each token that opens an operand,
    and none may start after a token that closes a primary expression. -/
inductive Follows : List Mark → List Frame → List Frame → Prop where
  | nil (stack : List Frame) : Follows [] stack stack
  | cons {m : Mark} {ms : List Mark} {stack next last : List Frame}
      (before : m.opens = true → xmlMayStart stack = true)
      (passed : pass? m.kind stack = some next)
      (after : m.closes = true → xmlMayStart next = false)
      (rest : Follows ms next last) : Follows (m :: ms) stack last

namespace Follows

theorem append {front back : List Mark} {stack middle last : List Frame}
    (h : Follows front stack middle) (h' : Follows back middle last) :
    Follows (front ++ back) stack last := by
  induction h with
  | nil => exact h'
  | cons before passed after _ ih => exact .cons before passed after (ih h')

/-- A token that opens and closes nothing only has to pass. -/
theorem plain {kind : TokenKind} {ms : List Mark} {stack next last : List Frame}
    (passed : pass? kind stack = some next) (rest : Follows ms next last) :
    Follows ({ kind } :: ms) stack last :=
  .cons (fun h => Bool.noConfusion h) passed (fun h => Bool.noConfusion h) rest

theorem passAll? {ms : List Mark} {stack last : List Frame} (h : Follows ms stack last) :
    Classifier.passAll? (ms.map Mark.kind) stack = some last := by
  induction h with
  | nil => rfl
  | cons _ passed _ _ ih =>
    rw [List.map_cons, Classifier.passAll?, passed]
    exact ih

/-- Where marked tokens are cut, the stack in between satisfies the marks around the cut. -/
theorem cut {front back : List Mark} {m : Mark} {stack last : List Frame}
    (h : Follows (front ++ m :: back) stack last) :
    ∃ middle next, Classifier.passAll? (front.map Mark.kind) stack = some middle
      ∧ Classifier.passAll? ((front ++ [m]).map Mark.kind) stack = some next
      ∧ (m.opens = true → xmlMayStart middle = true)
      ∧ (m.closes = true → xmlMayStart next = false) := by
  induction front generalizing stack with
  | nil =>
    cases h with
    | @cons _ _ _ next _ before passed after rest =>
      refine ⟨stack, next, rfl, ?_, before, after⟩
      simp [Classifier.passAll?, passed]
  | cons n front ih =>
    cases h with
    | cons _ passed _ rest =>
      obtain ⟨middle, next, hmiddle, hnext, marks⟩ := ih rest
      refine ⟨middle, next, ?_, ?_, marks⟩
      · rw [List.map_cons, Classifier.passAll?, passed]
        exact hmiddle
      · rw [List.cons_append, List.map_cons, Classifier.passAll?, passed]
        exact hnext

end Follows

/-! ## What the frames make of the tokens -/

/-- The tokens that an expression of the grammar starts with. -/
def startsOperand : TokenKind → Bool
  | .identifier | .openParen | .openBrace | .minus | .plus | .keyword .Not => true
  | kind => kind.isLiteral

theorem UnaryOperator.startsOperand_kind (op : UnaryOperator) : startsOperand op.kind = true := by
  cases op <;> rfl

theorem startsOperand_of_isLiteral {kind : TokenKind} (h : kind.isLiteral = true) :
    startsOperand kind = true := by
  unfold TokenKind.isLiteral at h
  split at h <;> first | rfl | cases h

/-- The stack is about to read an operand of an expression on top of `below`: it waits for one, or
    it opens an expression with the operand's first token. -/
structure Expects (stack : List Frame) (continued : Bool) (below : List Frame) : Prop where
  may : xmlMayStart stack = true
  pass : ∀ kind, startsOperand kind = true →
    pass? kind stack = pass? kind (.expression ⟨.operand, true, continued⟩ :: below)

theorem expects_operand (started continued : Bool) (below : List Frame) :
    Expects (.expression ⟨.operand, started, continued⟩ :: below) continued below := by
  refine ⟨rfl, fun kind h => ?_⟩
  unfold startsOperand TokenKind.isLiteral at h
  repeat' split at h
  all_goals first | rfl | cases h

theorem expects_item {close : TokenKind} (h : close = .closeParen ∨ close = .closeBrace)
    (below : List Frame) :
    Expects (.group ⟨close, .item⟩ :: below) true (.group ⟨close, .afterItem⟩ :: below) := by
  refine ⟨rfl, fun kind hk => ?_⟩
  unfold startsOperand TokenKind.isLiteral at hk
  rcases h with rfl | rfl
  all_goals
    repeat' split at hk
    all_goals first | rfl | cases hk

theorem pass?_literal {kind : TokenKind} (h : kind.isLiteral = true) (continued : Bool)
    (below : List Frame) :
    pass? kind (.expression ⟨.operand, true, continued⟩ :: below)
      = some (.expression ⟨.suffix, true, continued⟩ :: below) := by
  unfold TokenKind.isLiteral at h
  split at h <;> first | rfl | cases h

theorem pass?_unary (op : UnaryOperator) (continued : Bool) (below : List Frame) :
    pass? op.kind (.expression ⟨.operand, true, continued⟩ :: below)
      = some (.expression ⟨.operand, true, continued⟩ :: below) := by
  cases op <;> rfl

theorem pass?_binary {kind : TokenKind} (h : kind.isBinaryOperator = true) (continued : Bool)
    (below : List Frame) :
    pass? kind (.expression ⟨.suffix, true, continued⟩ :: below)
      = some (.expression ⟨.operand, true, continued⟩ :: below) := by
  unfold TokenKind.isBinaryOperator at h
  split at h <;> first | rfl | cases h

/-- The closing bracket ends a group, whether an item precedes it or not. -/
theorem pass?_close {close : TokenKind} (h : close = .closeParen ∨ close = .closeBrace)
    (started continued : Bool) (below : List Frame) :
    pass? close (.group ⟨close, .item⟩ :: .expression ⟨.suffix, started, continued⟩ :: below)
        = some (.expression ⟨.suffix, started, continued⟩ :: below)
      ∧ pass? close (.expression ⟨.suffix, true, true⟩ :: .group ⟨close, .afterItem⟩
            :: .expression ⟨.suffix, started, continued⟩ :: below)
        = some (.expression ⟨.suffix, started, continued⟩ :: below) := by
  rcases h with rfl | rfl <;> exact ⟨rfl, rfl⟩

theorem pass?_comma {close : TokenKind} (h : close = .closeParen ∨ close = .closeBrace)
    (below : List Frame) :
    pass? .comma (.expression ⟨.suffix, true, true⟩ :: .group ⟨close, .afterItem⟩ :: below)
      = some (.group ⟨close, .item⟩ :: below) := by
  rcases h with rfl | rfl <;> rfl

/-! ## The grammar is followed -/

mutual

/-- Where an operand is expected, a primary expression is followed to the place after it. -/
theorem Primary.follows (p : Primary) {stack below : List Frame} {continued : Bool}
    (h : Expects stack continued below) :
    Follows p.marks stack (.expression ⟨.suffix, true, continued⟩ :: below) := by
  cases p with
  | identifier =>
    exact .cons (fun _ => h.may) (h.pass .identifier rfl) (fun _ => rfl) (.nil _)
  | literal kind hkind =>
    have passed := (h.pass kind (startsOperand_of_isLiteral hkind)).trans
      (pass?_literal hkind continued below)
    exact .cons (fun _ => h.may) passed (fun _ => rfl) (.nil _)
  | parens e =>
    have close := (pass?_close (.inl rfl) true continued below).2
    refine .cons (fun _ => h.may) (h.pass .openParen rfl) (fun hc => Bool.noConfusion hc) ?_
    refine (e.follows (expects_item (.inl rfl) _)).append ?_
    exact .cons (fun ho => Bool.noConfusion ho) close (fun _ => rfl) (.nil _)
  | call callee args =>
    refine (callee.follows h).append (.plain rfl ?_)
    exact itemMarks_follow args (.inl rfl) true continued below
  | member owner =>
    refine (owner.follows h).append (.plain rfl ?_)
    exact .cons (fun ho => Bool.noConfusion ho) rfl (fun _ => rfl) (.nil _)
  | braces items =>
    refine .cons (fun _ => h.may) (h.pass .openBrace rfl) (fun hc => Bool.noConfusion hc) ?_
    exact itemMarks_follow items (.inr rfl) true continued below

/-- Where an operand is expected, an expression is followed to the place after an operand. -/
theorem Expr.follows (e : Expr) {stack below : List Frame} {continued : Bool}
    (h : Expects stack continued below) :
    Follows e.marks stack (.expression ⟨.suffix, true, continued⟩ :: below) := by
  cases e with
  | primary p => exact p.follows h
  | unary op operand =>
    have passed := (h.pass op.kind op.startsOperand_kind).trans (pass?_unary op continued below)
    refine .cons (fun _ => h.may) passed (fun hc => Bool.noConfusion hc) ?_
    exact operand.follows (expects_operand true continued below)
  | binary left op hop right =>
    refine (left.follows h).append (.plain (pass?_binary hop continued below) ?_)
    exact right.follows (expects_operand true continued below)

/-- A group is followed from its first item to its closing bracket. -/
theorem itemMarks_follow (es : List Expr) {close : TokenKind}
    (h : close = .closeParen ∨ close = .closeBrace) (started continued : Bool)
    (below : List Frame) :
    Follows (itemMarks es ++ [{ kind := close, closes := true }])
      (.group ⟨close, .item⟩ :: .expression ⟨.suffix, started, continued⟩ :: below)
      (.expression ⟨.suffix, started, continued⟩ :: below) := by
  cases es with
  | nil =>
    have closed := (pass?_close h started continued below).1
    exact .cons (fun ho => Bool.noConfusion ho) closed (fun _ => rfl) (.nil _)
  | cons e es =>
    rw [itemMarks, List.append_assoc]
    exact (e.follows (expects_item h _)).append (furtherMarks_follow es h started continued below)

/-- A group is followed from the place after an item to its closing bracket. -/
theorem furtherMarks_follow (es : List Expr) {close : TokenKind}
    (h : close = .closeParen ∨ close = .closeBrace) (started continued : Bool)
    (below : List Frame) :
    Follows (furtherMarks es ++ [{ kind := close, closes := true }])
      (.expression ⟨.suffix, true, true⟩ :: .group ⟨close, .afterItem⟩
        :: .expression ⟨.suffix, started, continued⟩ :: below)
      (.expression ⟨.suffix, started, continued⟩ :: below) := by
  cases es with
  | nil =>
    have closed := (pass?_close h started continued below).2
    exact .cons (fun ho => Bool.noConfusion ho) closed (fun _ => rfl) (.nil _)
  | cons e es =>
    rw [furtherMarks, List.cons_append, List.append_assoc]
    refine .plain (pass?_comma h _) ?_
    exact (e.follows (expects_item h _)).append (furtherMarks_follow es h started continued below)

end

theorem xmlMayStart_cons (f : Frame) (below : List Frame) :
    xmlMayStart (f :: below) = f.hints.xmlMayStart := rfl

/-- **Expressions are followed.** From every reachable state that waits for an operand, the tokens
    of an expression are taken without an error, as long as the stack is never full, and lead back
    to the same frames with the expression on top after its operand. On the way an XML literal may
    start right before every operand, and none may start right after a primary expression. -/
theorem expression_followed (e : Expr) {c : Classifier} (hc : Reachable c) {x : Expression}
    {below : List Frame} (hs : c.stack = .expression x :: below) (hx : x.step = .operand)
    {tokens : List Token} (spelled : tokens.map Token.kind = e.kinds)
    (shallow : StaysShallow c tokens) :
    (c.feed tokens).state.errors = c.errors
      ∧ (c.feed tokens).state.stack
        = .expression { x with step := .suffix, started := true } :: below
      ∧ ∀ (front : List Mark) (m : Mark) (back : List Mark), e.marks = front ++ m :: back →
        (m.opens = true → (c.feed (tokens.take front.length)).hints.xmlMayStart = true)
          ∧ (m.closes = true →
            (c.feed (tokens.take (front.length + 1))).hints.xmlMayStart = false) := by
  obtain ⟨step, started, continued⟩ := x
  dsimp only at hx
  subst hx
  have quiet := hc.quiet hs rfl
  have followed := e.follows (expects_operand started continued below)
  rw [← hs] at followed
  have passed := followed.passAll?
  rw [← Expr.kinds, ← spelled] at passed
  obtain ⟨stacked, same⟩ := feed_of_passAll? quiet passed shallow
  refine ⟨same.errors, stacked, ?_⟩
  intro front m back cut
  rw [cut] at followed
  obtain ⟨middle, next, hmiddle, hnext, before, after⟩ := followed.cut
  -- The tokens in front of the cut are spelled as the marks in front of it.
  have kinds (n : Nat) : (tokens.take n).map Token.kind = (e.marks.take n).map Mark.kind := by
    rw [List.map_take, List.map_take, spelled]
    rfl
  have take₀ : e.marks.take front.length = front := by rw [cut, List.take_left]
  have take₁ : e.marks.take (front.length + 1) = front ++ [m] := by
    rw [cut, List.take_append, List.take_of_length_le (by omega)]
    simp
  have waits : ∀ g lower, c.stack = g :: lower → g.epsilon? = none := by
    intro g lower hg
    rw [hs] at hg
    cases hg
    rfl
  have hints (n : Nat) (stack : List Frame)
      (h : passAll? ((e.marks.take n).map Mark.kind) c.stack = some stack) :
      (c.feed (tokens.take n)).hints.xmlMayStart = xmlMayStart stack := by
    rw [← kinds] at h
    have shallow' : StaysShallow c (tokens.take n) := by
      rw [← List.take_append_drop n tokens] at shallow
      exact shallow.front
    cases stack with
    | nil => exact absurd rfl (ne_nil_of_passAll? (by simp [hs]) h)
    | cons f lower => rw [hints_feed_of_passAll? quiet waits h shallow', xmlMayStart_cons]
  constructor
  · intro opens
    rw [← take₀] at hmiddle
    rw [hints _ middle hmiddle]
    exact before opens
  · intro closes
    rw [← take₁] at hnext
    rw [hints _ next hnext]
    exact after closes

/-- The value of `Dim x = a(-b, {}).c + (1)` is followed. -/
theorem expression_followed_initializer :
    let c := (({} : Classifier).feed (spell [.keyword .Dim, .identifier, .assign])).state
    let one := Expr.primary (.literal .literalInteger rfl)
    let name := Expr.primary .identifier
    let call := Primary.call .identifier [.unary .minus name, .primary (.braces [])]
    let e := Expr.binary (.primary (.member call)) .plus rfl (.primary (.parens one))
    c.stack.head? = some (.expression ⟨.operand, false, true⟩)
      ∧ (c.feed (spell e.kinds)).state.errors = c.errors
      ∧ (c.feed (spell e.kinds)).state.stack = .expression ⟨.suffix, true, true⟩ :: c.stack.tail
      ∧ (c.feed ((spell e.kinds).take 2)).hints.xmlMayStart = true
      ∧ (c.feed ((spell e.kinds).take 8)).hints.xmlMayStart = false := by
  intro c one name call e
  have hc : Reachable c := Reachable.new.feed _
  have hs : c.stack = .expression ⟨.operand, false, true⟩ :: c.stack.tail := by decide +kernel
  have spelled : (spell e.kinds).map Token.kind = e.kinds := by decide +kernel
  have shallow : StaysShallow c (spell e.kinds) := by decide +kernel
  obtain ⟨errors, stack, marks⟩ := expression_followed e hc hs rfl spelled shallow
  refine ⟨by decide +kernel, errors, stack, ?_, ?_⟩
  · have before := marks (e.marks.take 2) ⟨.minus, true, false⟩ (e.marks.drop 3) (by decide +kernel)
    rw [show (e.marks.take 2).length = 2 by decide +kernel] at before
    exact before.1 rfl
  · have after := marks (e.marks.take 7) ⟨.closeParen, false, true⟩ (e.marks.drop 8)
      (by decide +kernel)
    rw [show (e.marks.take 7).length + 1 = 8 by decide +kernel] at after
    exact after.2 rfl

end BasicLexis.Grammar
