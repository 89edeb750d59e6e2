import BasicLexis.Proofs.Classifier.Walk

set_option autoImplicit false

/-! # Tokens fed one after the other

A scanner tells the classifier a token and then asks how to read the next one. `feed` does the same
with a list of tokens. On bare stacks, `passAll?` follows the kinds of the tokens; the main
statement, `feed_of_passAll?`, carries what it computes over to the classifier, as long as the stack
is never seen at its greatest depth. -/

namespace BasicLexis.Classifier

/-- The states that a new classifier can come to, by any calls in any order. -/
inductive Reachable : Classifier → Prop where
  | new : Reachable {}
  | inform {c : Classifier} (call : Option Token) : Reachable c → Reachable (c.inform call).state

/-! ## Feeding the classifier -/

/-- Takes a token, and asks how the next one is to be read. -/
def ask (c : Classifier) (t : Token) : Reply := (c.inform (some t)).state.inform none

/-- Feeds tokens after an answer: the state and the hints after the last of them. -/
def follow (r : Reply) (tokens : List Token) : Reply := tokens.foldl (fun r t => r.state.ask t) r

/-- Feeds tokens to a classifier. Before the first of them, the hints are those that it gives when
    asked. -/
def feed (c : Classifier) (tokens : List Token) : Reply :=
  follow { state := c, hints := (c.inform none).hints } tokens

/-- The stack is below its greatest depth after every call while the tokens are fed. -/
def StaysShallow (c : Classifier) : List Token → Prop
  | [] => True
  | t :: ts =>
    (c.inform (some t)).state.depth < Limits.maxFrameDepth
      ∧ (c.ask t).state.depth < Limits.maxFrameDepth ∧ StaysShallow (c.ask t).state ts

instance decidableStaysShallow (c : Classifier) :
    (tokens : List Token) → Decidable (StaysShallow c tokens)
  | [] => .isTrue trivial
  | _ :: ts => @instDecidableAnd _ _ _ (@instDecidableAnd _ _ _ (decidableStaysShallow _ ts))

theorem follow_append (r : Reply) (front back : List Token) :
    follow r (front ++ back) = follow (follow r front) back :=
  List.foldl_append

/-- The hints before the first token have no influence on the states. -/
theorem state_follow {r r' : Reply} (h : r.state = r'.state) (tokens : List Token) :
    (follow r tokens).state = (follow r' tokens).state := by
  cases tokens with
  | nil => exact h
  | cons t ts =>
    unfold follow
    rw [List.foldl_cons, List.foldl_cons, h]

theorem state_feed_cons (c : Classifier) (t : Token) (ts : List Token) :
    (c.feed (t :: ts)).state = ((c.ask t).state.feed ts).state := by
  show (follow (c.ask t) ts).state = _
  apply state_follow
  rfl

theorem feed_append_singleton (c : Classifier) (ts : List Token) (t : Token) :
    c.feed (ts ++ [t]) = (c.feed ts).state.ask t :=
  follow_append _ ts [t]

/-- Feeding tokens leads from reachable states to reachable states. -/
theorem Reachable.feed {c : Classifier} (hc : Reachable c) (tokens : List Token) :
    Reachable (c.feed tokens).state := by
  induction tokens generalizing c with
  | nil => exact hc
  | cons t ts ih =>
    rw [state_feed_cons]
    exact ih ((hc.inform (some t)).inform none)

/-- Tokens of the given kinds, all at the start of a source. -/
def spell (kinds : List TokenKind) : List Token :=
  kinds.map (Token.symbol · .start .start)

theorem StaysShallow.front {c : Classifier} {front back : List Token}
    (h : StaysShallow c (front ++ back)) : StaysShallow c front := by
  induction front generalizing c with
  | nil => trivial
  | cons t ts ih => exact ⟨h.1, h.2.1, ih h.2.2⟩

/-- The depth after a token in the middle. -/
theorem StaysShallow.middle {c : Classifier} {front back : List Token} {t : Token}
    (h : StaysShallow c (front ++ t :: back)) :
    ((c.feed front).state.inform (some t)).state.depth < Limits.maxFrameDepth
      ∧ ((c.feed front).state.ask t).state.depth < Limits.maxFrameDepth := by
  induction front generalizing c with
  | nil => exact ⟨h.1, h.2.1⟩
  | cons u us ih =>
    rw [state_feed_cons]
    exact ih h.2.2

/-- Hints come from the frame on top. -/
theorem top_of_hints {n : Nat} {c : Classifier} (h : (settle n c).hints ≠ {}) :
    ∃ f below, (settle n c).state.stack = f :: below ∧ f.hints = (settle n c).hints := by
  induction n generalizing c with
  | zero => exact absurd rfl h
  | succ n ih =>
    rw [settle] at h ⊢
    split at h
    · exact ih h
    · next f below hs =>
      split at h
      · exact ⟨f, below, hs, rfl⟩
      · split at h
        · exact ih h
        · exact absurd rfl h

/-! ## Following a grammar on bare stacks -/

/-- The stack after a token, once its top frame waits for the next one. Eight moves are more than
    any production of a well-formed source takes. The end of the source is part of none. -/
def pass? (kind : TokenKind) (stack : List Frame) : Option (List Frame) :=
  if kind = .eof then none else (walk? none kind 8 stack).bind (rest? none 8)

/-- The stack after several tokens. -/
def passAll? : List TokenKind → List Frame → Option (List Frame)
  | [], stack => some stack
  | kind :: kinds, stack => (pass? kind stack).bind (passAll? kinds)

/-- The stack after a token, and what the tokens after it come to. -/
theorem passAll?_cons {kind : TokenKind} {kinds : List TokenKind} {stack : List Frame}
    {last : Option (List Frame)} (next : List Frame) (h : pass? kind stack = some next)
    (hrest : passAll? kinds next = last) : passAll? (kind :: kinds) stack = last := by
  rw [passAll?, h]
  exact hrest

theorem passAll?_append (front back : List TokenKind) (stack : List Frame) :
    passAll? (front ++ back) stack = (passAll? front stack).bind (passAll? back) := by
  induction front generalizing stack with
  | nil => rfl
  | cons kind kinds ih =>
    rw [List.cons_append, passAll?, passAll?]
    cases pass? kind stack with
    | none => rfl
    | some next => exact ih next

theorem rest?_ne_nil {limit : Option Nat} {n : Nat} {stack : List Frame} :
    rest? limit n stack ≠ some [] := by
  intro h
  induction n generalizing stack with
  | zero => cases h
  | succ n ih =>
    cases stack with
    | nil => cases h
    | cons g lower =>
      rw [rest?] at h
      split at h
      · cases h
      · split at h
        · exact ih h
        · cases h

/-- Tokens that pass leave a frame on the stack. -/
theorem ne_nil_of_passAll? {kinds : List TokenKind} {stack last : List Frame} (hs : stack ≠ [])
    (h : passAll? kinds stack = some last) : last ≠ [] := by
  induction kinds generalizing stack with
  | nil =>
    cases h
    exact hs
  | cons kind kinds ih =>
    obtain ⟨next, hnext, hrest⟩ := Option.bind_eq_some_iff.1 h
    refine ih ?_ hrest
    rintro rfl
    unfold pass? at hnext
    split at hnext
    · cases hnext
    · obtain ⟨walked, -, hempty⟩ := Option.bind_eq_some_iff.1 hnext
      exact rest?_ne_nil hempty

/-- What the classifier does with a token, if all frames on the way find room. -/
theorem ask_of_walk? {c : Classifier} {t : Token} {walked stack : List Frame} (hc : Quiet c)
    (ht : t.kind ≠ .eof) (hwalk : walk? (some Limits.maxFrameDepth) t.kind 8 c.stack = some walked)
    (hrest : rest? (some Limits.maxFrameDepth) 8 walked = some stack) :
    ∃ f below, stack = f :: below ∧ (c.ask t).state.stack = f :: below
      ∧ SameRecord c (c.ask t).state ∧ (c.ask t).hints = f.hints := by
  have few : 8 ≤ Limits.maxEpsilonSteps := by decide
  have quiet : Quiet { c with lastLocation := t.start } := ⟨hc.1, hc.2, hc.3⟩
  obtain ⟨stacked, same, -⟩ := offerToken_of_walk? ht quiet hwalk few
  rw [← stacked] at hrest
  cases stack with
  | nil => exact absurd hrest rest?_ne_nil
  | cons f below =>
    obtain ⟨stacked', same', hints, -⟩ := settle_of_rest? hrest few
    have record : SameRecord c (c.ask t).state :=
      SameRecord.trans ⟨same.1, same.2, same.3, same.4⟩ same'
    exact ⟨f, below, rfl, stacked', record, hints⟩

/-- What the classifier does with a token that passes. -/
theorem ask_of_pass? {c : Classifier} {t : Token} {stack : List Frame} (hc : Quiet c)
    (h : pass? t.kind c.stack = some stack)
    (shallow : (c.inform (some t)).state.depth < Limits.maxFrameDepth
      ∧ (c.ask t).state.depth < Limits.maxFrameDepth) :
    ∃ f below, stack = f :: below ∧ (c.ask t).state.stack = f :: below
      ∧ SameRecord c (c.ask t).state ∧ (c.ask t).hints = f.hints := by
  unfold pass? at h
  split at h
  · cases h
  · next ht =>
    obtain ⟨walked, hwalk, hrest⟩ := Option.bind_eq_some_iff.1 h
    obtain ⟨taken, asked⟩ := shallow
    have few : 8 ≤ Limits.maxEpsilonSteps := by decide
    have quiet : Quiet { c with lastLocation := t.start } := ⟨hc.1, hc.2, hc.3⟩
    have bounded := walk?_of_shallow (c := { c with lastLocation := t.start }) ht quiet hwalk few
      taken
    obtain ⟨stacked, -, -⟩ := offerToken_of_walk? ht quiet bounded few
    have hrest' : rest? none 8 (c.inform (some t)).state.stack = some stack := by
      rw [← hrest]
      exact congrArg (rest? none 8) stacked
    have bounded' := rest?_of_shallow hrest' few asked
    have rests : (c.inform (some t)).state.stack = walked := stacked
    rw [rests] at bounded'
    exact ask_of_walk? hc ht bounded bounded'

/-- The classifier follows the kinds of the tokens as the bare stack does, and records nothing. -/
theorem feed_of_passAll? {c : Classifier} {tokens : List Token} {stack : List Frame}
    (hc : Quiet c) (h : passAll? (tokens.map Token.kind) c.stack = some stack)
    (shallow : StaysShallow c tokens) :
    (c.feed tokens).state.stack = stack ∧ SameRecord c (c.feed tokens).state := by
  induction tokens generalizing c with
  | nil =>
    cases h
    exact ⟨rfl, .refl c⟩
  | cons t ts ih =>
    rw [List.map_cons, passAll?] at h
    obtain ⟨next, hnext, hrest⟩ := Option.bind_eq_some_iff.1 h
    obtain ⟨taken, asked, later⟩ := shallow
    obtain ⟨f, below, rfl, stacked, same, -⟩ := ask_of_pass? hc hnext ⟨taken, asked⟩
    rw [state_feed_cons]
    obtain ⟨stacked', same'⟩ := ih (same.quiet hc) (by rw [stacked]; exact hrest) later
    exact ⟨stacked', same.trans same'⟩

/-- The hints after some tokens are those of the frame that is then on top. -/
theorem hints_feed_of_passAll? {c : Classifier} {tokens : List Token} {f : Frame}
    {below : List Frame} (hc : Quiet c) (hw : ∀ g lower, c.stack = g :: lower → g.epsilon? = none)
    (h : passAll? (tokens.map Token.kind) c.stack = some (f :: below))
    (shallow : StaysShallow c tokens) : (c.feed tokens).hints = f.hints := by
  rcases List.eq_nil_or_concat tokens with rfl | ⟨ts, t, rfl⟩
  · have hs : c.stack = f :: below := by simpa [passAll?] using h
    have waits : rest? (some Limits.maxFrameDepth) 1 c.stack = some (f :: below) := by
      rw [hs, rest?, hw f below hs]
    exact (settle_of_rest? waits (by decide)).2.2.1
  · rw [List.concat_eq_append] at h shallow ⊢
    rw [List.map_append, passAll?_append] at h
    obtain ⟨middle, hmiddle, hlast⟩ := Option.bind_eq_some_iff.1 h
    obtain ⟨stacked, same⟩ := feed_of_passAll? hc hmiddle shallow.front
    have last : pass? t.kind (c.feed ts).state.stack = some (f :: below) := by
      rw [stacked]
      simpa [passAll?] using hlast
    rw [feed_append_singleton]
    obtain ⟨g, lower, heq, -, -, hints⟩ := ask_of_pass? (same.quiet hc) last shallow.middle
    cases heq
    exact hints

end BasicLexis.Classifier
