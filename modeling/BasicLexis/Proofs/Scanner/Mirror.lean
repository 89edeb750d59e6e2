import BasicLexis.Proofs.Markup.Suspension
import BasicLexis.Proofs.Scanner.Steered

set_option autoImplicit false

/-! # The classifier mirrors the scanner's literals

The scanner knows from the characters what is open in an XML literal, and the classifier from the
tokens. While no error is recorded, the two agree: inside a literal the classifier's top frame is
the mirror image of the scanner's innermost frame, and the literals around embedded expressions wait
in the same order on both sides (`Mirrors`). `InStep.produce` says so of a single token and
`inStep_after` of a run.

The agreement is lost where the two go by different rules, which `KeepsPace` leaves out: character
data after a complete literal belongs to it for the scanner only, a token that was read before a
literal may come out of the queue within it, a production that takes tokens whatever they are may
take the mark that ends an embedded expression, and an embedded expression may be given up together
with the statement that it is in. -/

namespace BasicLexis

open Markup

namespace Markup

/-- How many literals on the stack wait for the end of an embedded expression. -/
def waiting (stack : List Classifier.Frame) : Nat := (literals stack).countP (·.inExpression)

theorem countP_suspended (outer : List MarkupFrame) :
    (outer.map suspended).countP (·.inExpression) = outer.length := by
  rw [List.countP_eq_length.2, List.length_map]
  intro x mem
  obtain ⟨f, -, rfl⟩ := List.mem_map.1 mem
  rfl

/-- The classifier's stack is the mirror image of the scanner's mode. -/
inductive Mirrors (m : XmlMode) (stack : List Classifier.Frame) : Prop where
  /-- The innermost literal is at hand, the others wait. -/
  | inside {f : MarkupFrame} {outer : List MarkupFrame} {below : List Classifier.Frame}
      (mode : m = ⟨true, f :: outer⟩) (top : stack = .xmlLiteral (mirror f) :: below)
      (around : literals below = outer.map suspended)
  /-- All literals wait. -/
  | outside (inactive : m.active = false) (around : literals stack = m.literals.map suspended)

namespace Mirrors

variable {m : XmlMode} {c : Classifier} {t : Token}

/-- Inside a literal, the classifier follows it. -/
theorem at_hand {f : MarkupFrame} {outer : List MarkupFrame} {stack : List Classifier.Frame}
    (h : Mirrors ⟨true, f :: outer⟩ stack) :
    ∃ below, stack = .xmlLiteral (mirror f) :: below ∧ literals below = outer.map suspended := by
  cases h with
  | inside mode top around =>
    cases mode
    exact ⟨_, top, around⟩
  | outside inactive => cases inactive

/-- Once a complete literal is left, all literals wait. -/
theorem loose {stack : List Classifier.Frame} (h : Mirrors m stack)
    (outside : m.leave.active = false) :
    Loose m.leave.literals stack ∧ waiting stack = m.leave.literals.length := by
  cases h with
  | @inside f outer below mode top around =>
    have complete : f.isComplete = true := by
      cases complete : f.isComplete with
      | true => rfl
      | false =>
        rw [mode, (stays_inside complete outer).2] at outside
        cases outside
    have left : m.leave = ⟨false, outer⟩ := by
      simp [XmlMode.leave, XmlMode.isComplete, mode, complete]
    rw [left, top]
    refine ⟨.leaving complete ⟨outer, .refl _, around⟩, ?_⟩
    show (mirror f :: literals below).countP (·.inExpression) = outer.length
    rw [List.countP_cons_of_neg (by simp [mirror]), around, countP_suspended]
  | outside inactive around =>
    rw [XmlMode.leave_of_inactive inactive, waiting, around]
    exact ⟨.waiting ⟨_, .refl _, around⟩, countP_suspended _⟩

/-! ### Tokens of the literal at hand -/

section

variable {f : MarkupFrame} {outer : List MarkupFrame}

/-- A token that the literal at hand uses up. -/
theorem uses {o : Classifier.Outcome} (h : Mirrors ⟨true, f :: outer⟩ c.stack)
    (reachable : c.Reachable) (inner : t.kind ≠ .eof)
    (move : (Classifier.Frame.xmlLiteral (mirror f)).move t.kind = o) (used : o.consumed = true)
    (clean : (c.ask t).state.errors = #[]) :
    ∃ below, literals below = outer.map suspended
      ∧ literals (c.ask t).state.stack = literals (o.stackOn below)
      ∧ ∀ x lower, o.stackOn below = .xmlLiteral x :: lower →
        (c.ask t).state.stack = .xmlLiteral x :: lower := by
  obtain ⟨below, top, around⟩ := h.at_hand
  exact ⟨below, around, stack_ask_of_consumed reachable (quiet_of_top reachable top rfl) top inner
    move used clean⟩

/-- A comment after a complete literal. -/
theorem trailing_comment (h : Mirrors ⟨true, f :: outer⟩ c.stack) (reachable : c.Reachable)
    (complete : f.isComplete = true) (kind : t.kind = .xmlComment)
    (clean : (c.ask t).state.errors = #[]) :
    Mirrors ⟨true, f :: outer⟩ (c.ask t).state.stack := by
  have move : (Classifier.Frame.xmlLiteral (mirror f)).move t.kind
      = .consume (.xmlLiteral (mirror f)) := by
    show (mirror f).offer t.kind = _
    rw [Classifier.XmlLiteral.offer, isComplete_mirror, complete, kind]
    rfl
  have inner : t.kind ≠ .eof := by
    rw [kind]
    decide
  obtain ⟨below, around, -, top⟩ := h.uses reachable inner move rfl clean
  exact .inside rfl (top _ _ rfl) around

/-- A part of the literal. -/
theorem part {f' : MarkupFrame} (h : Mirrors ⟨true, f :: outer⟩ c.stack) (reachable : c.Reachable)
    (incomplete : f.isComplete = false) (follows : (mirror f).after? t.kind = some (mirror f'))
    (clean : (c.ask t).state.errors = #[]) :
    Mirrors ⟨true, f' :: outer⟩ (c.ask t).state.stack := by
  have inner : t.kind ≠ .eof := by
    intro eof
    rw [eof] at follows
    cases follows
  have move := move_markup ((isComplete_mirror f).trans incomplete) follows
  obtain ⟨below, around, -, top⟩ := h.uses reachable inner move rfl clean
  exact .inside rfl (top _ _ rfl) around

/-- The start of an embedded expression. -/
theorem embeds (h : Mirrors ⟨true, f :: outer⟩ c.stack) (reachable : c.Reachable)
    (incomplete : f.isComplete = false) (kind : t.kind = .xmlExpressionStart)
    (clean : (c.ask t).state.errors = #[]) :
    Mirrors ⟨false, f :: outer⟩ (c.ask t).state.stack := by
  have move : (Classifier.Frame.xmlLiteral (mirror f)).move t.kind
      = .consumePush (.xmlLiteral (suspended f)) .newExpression := by
    show (mirror f).offer t.kind = _
    rw [Classifier.XmlLiteral.offer, isComplete_mirror, incomplete, kind]
    rfl
  have inner : t.kind ≠ .eof := by
    rw [kind]
    decide
  obtain ⟨below, around, same, -⟩ := h.uses reachable inner move rfl clean
  refine .outside rfl (same.trans ?_)
  show suspended f :: literals below = _
  rw [around]
  rfl

/-- A line does not end inside a literal. -/
theorem no_lineEnd (h : Mirrors ⟨true, f :: outer⟩ c.stack) (reachable : c.Reachable)
    (incomplete : f.isComplete = false) (clean : (c.ask t).state.errors = #[]) :
    t.kind ≠ .eol := by
  intro kind
  obtain ⟨below, top, -⟩ := h.at_hand
  have inner : t.kind ≠ .eof := by
    rw [kind]
    decide
  have fits := (move_ask_of_clean (quiet_of_top reachable top rfl) top inner clean).1
  change ((mirror f).offer t.kind).misplaced = false at fits
  rw [Classifier.XmlLiteral.offer, isComplete_mirror, incomplete, kind] at fits
  cases fits

end

/-! ### Tokens outside of literals -/

/-- A token of ordinary source. -/
theorem ordinary (h : Mirrors m c.stack) (reachable : c.Reachable)
    (outside : m.leave.active = false) (plain : t.kind.isXml = false)
    (kept : waiting c.stack ≤ (literals (c.ask t).state.stack).length)
    (clean : (c.ask t).state.errors = #[]) : Mirrors m.leave (c.ask t).state.stack := by
  obtain ⟨loose, count⟩ := h.loose outside
  -- some of the literals still wait, and by their number it is all of them
  obtain ⟨rest, among, eq⟩ := suspends_ask reachable plain loose clean
  rw [count, eq, List.length_map] at kept
  rw [among.eq_of_length_le kept] at eq
  exact .outside outside eq

/-- The end of an embedded expression. -/
theorem resumes (h : Mirrors m c.stack) (reachable : c.Reachable)
    (outside : m.leave.active = false) (mark : t.kind = .xmlExpressionEnd)
    (heeded : ∀ f ∈ c.stack, heedless f = false)
    (kept : waiting c.stack ≤ (literals (c.ask t).state.stack).length)
    (clean : (c.ask t).state.errors = #[]) : Mirrors m.leave.resume (c.ask t).state.stack := by
  obtain ⟨loose, count⟩ := h.loose outside
  obtain ⟨f, rest, below, among, top, around⟩ := resumes_ask reachable mark heeded loose clean
  have all : f :: rest = m.leave.literals := by
    refine among.eq_of_length_le ?_
    have after : literals (.xmlLiteral (mirror f) :: below) = mirror f :: rest.map suspended :=
      congrArg (mirror f :: ·) around
    rw [count, top, after] at kept
    simpa using kept
  exact .inside (by rw [XmlMode.resume, ← all]; rfl) top around

/-- The first part of a literal, or what is taken for one. -/
theorem begins (h : Mirrors m c.stack) (reachable : c.Reachable) {g : Classifier.Frame}
    {below : List Classifier.Frame} (top : c.stack = g :: below)
    (mayStart : (g.hints.xmlMayStart || g.hints.singleTagNext) = true)
    (opens : OpensMarkup t.kind) (clean : (c.ask t).state.errors = #[]) :
    ∃ x rest, (mirror (.new g.hints.singleTagNext)).after? t.kind = some x
      ∧ (c.ask t).state.stack = .xmlLiteral x :: rest
      ∧ literals rest = m.leave.literals.map suspended := by
  obtain ⟨x, rest, first, stack, same⟩ := begins_ask reachable top mayStart opens clean
  refine ⟨x, rest, first, stack, same.trans ?_⟩
  have plain : g.isXmlLiteral = false := by
    cases g with
    | xmlLiteral => cases mayStart
    | _ => rfl
  cases h with
  | inside _ literal =>
    -- the frame of a literal gives no hints, so no complete literal is left here
    rw [top] at literal
    obtain ⟨rfl, -⟩ := List.cons.inj literal
    cases plain
  | outside inactive around =>
    rw [XmlMode.leave_of_inactive inactive, ← around, top, literals_cons_of_plain plain]

/-- Whatever the token does to the mode, the classifier's stack is its mirror image again, and no
    line has ended inside a literal. -/
theorem turn {hints : Hints} {last : Option TokenKind} {m' : XmlMode} (h : Mirrors m c.stack)
    (reachable : c.Reachable) (turn : Turn hints last m t.kind m')
    (inLine : m.active = true → last ≠ some .eol)
    (asked : (hints.xmlMayStart || hints.singleTagNext) = true →
      ∃ f below, c.stack = f :: below ∧ f.hints = hints)
    (noTrailingData : t.kind = .xmlCData → m.isComplete = false)
    (heeded : t.kind = .xmlExpressionEnd → ∀ f ∈ c.stack, heedless f = false)
    (kept : waiting c.stack ≤ (literals (c.ask t).state.stack).length)
    (clean : (c.ask t).state.errors = #[]) :
    Mirrors m' (c.ask t).state.stack ∧ (m'.active = true → t.kind ≠ .eol) := by
  generalize kind : t.kind = k at turn
  cases turn with
  | trailing complete section_ =>
    cases h with
    | outside inactive =>
      rw [XmlMode.isComplete, inactive] at complete
      cases complete
    | @inside f outer below mode top around =>
      subst mode
      have complete' : f.isComplete = true := by simpa [XmlMode.isComplete] using complete
      rcases section_ with rfl | rfl
      · refine ⟨trailing_comment (.inside rfl top around) reachable complete' kind clean, ?_⟩
        exact fun _ => by decide
      · rw [noTrailingData kind] at complete
        cases complete
  | markup mode incomplete follows =>
    subst mode
    rw [← kind] at follows
    refine ⟨h.part reachable incomplete follows clean, fun _ eol => ?_⟩
    rw [kind, eol] at follows
    cases follows
  | embeds mode incomplete =>
    subst mode
    exact ⟨h.embeds reachable incomplete kind clean, fun active => by cases active⟩
  | unclosed mode incomplete ends =>
    -- the source ends with a line, and the end of a line would be misplaced
    subst mode
    exact absurd (kind.trans (ends (inLine rfl))) (h.no_lineEnd reachable incomplete clean)
  | resumes outside =>
    exact ⟨h.resumes reachable outside kind (heeded kind) kept clean, fun _ => by decide⟩
  | enters outside mayStart opens follows =>
    obtain ⟨g, below, top, rfl⟩ := asked mayStart
    have opens' : OpensMarkup t.kind := by
      rw [kind]
      rcases opens with rfl | starts
      · exact .openEndTag
      · exact opensMarkup_of_starts starts
    obtain ⟨x, rest, first, stack, around⟩ := h.begins reachable top mayStart opens' clean
    rw [kind, follows] at first
    cases first
    refine ⟨.inside rfl stack around, fun _ eol => ?_⟩
    rw [eol] at follows
    cases follows
  | misplaced outside mayStart =>
    obtain ⟨g, below, top, rfl⟩ := asked mayStart
    obtain ⟨x, rest, first, -⟩ :=
      h.begins reachable top mayStart (by rw [kind]; exact .expression) clean
    rw [kind] at first
    cases first
  | ordinary outside plain =>
    rw [← kind] at plain
    refine ⟨h.ordinary reachable outside plain kept clean, fun active => ?_⟩
    rw [outside] at active
    cases active
  | astray active none_ =>
    cases h with
    | outside inactive =>
      rw [inactive] at active
      cases active
    | inside mode =>
      rw [mode] at none_
      cases none_

end Mirrors

end Markup

namespace Scanner

/-- With the next token, the classifier goes by the same rules as the scanner. -/
structure KeepsPace (s : Scanner Classifier) : Prop where
  /-- It is no character data after a complete literal. -/
  noTrailingData : s.produce.1.kind = .xmlCData → s.mode.isComplete = false
  /-- Inside a literal it does not come from the queue. -/
  inOrder : s.mode.active = true → s.queue = []
  /-- If it ends an embedded expression, no frame takes it whatever it is. -/
  heeded : s.produce.1.kind = .xmlExpressionEnd → ∀ f ∈ s.steering.stack, heedless f = false
  /-- No literal that waits is given up. -/
  kept : waiting s.steering.stack ≤ (literals s.produce.2.steering.stack).length

instance (s : Scanner Classifier) : Decidable s.KeepsPace :=
  decidable_of_iff
    ((s.produce.1.kind = .xmlCData → s.mode.isComplete = false)
      ∧ (s.mode.active = true → s.queue = [])
      ∧ (s.produce.1.kind = .xmlExpressionEnd → ∀ f ∈ s.steering.stack, heedless f = false)
      ∧ waiting s.steering.stack ≤ (literals s.produce.2.steering.stack).length)
    ⟨fun ⟨h₁, h₂, h₃, h₄⟩ => ⟨h₁, h₂, h₃, h₄⟩, fun ⟨h₁, h₂, h₃, h₄⟩ => ⟨h₁, h₂, h₃, h₄⟩⟩

/-- The classifier is in step with the scanner. Within a literal, no line has just ended. -/
structure InStep (s : Scanner Classifier) : Prop where
  mirrors : Mirrors s.mode s.steering.stack
  inLine : s.mode.active = true → s.last ≠ some .eol

/-- The frame on top gave the hints that the scanner goes by. -/
theorem Steered.top_of_mayStart {s : Scanner Classifier} (h : s.Steered)
    (mayStart : (s.hints.xmlMayStart || s.hints.singleTagNext) = true) :
    ∃ f below, s.steering.stack = f :: below ∧ f.hints = s.hints := by
  obtain ⟨c, -, steering, hints⟩ := h.asked
  rw [steering, hints]
  refine Classifier.top_of_hints fun none_ => ?_
  rw [hints, Classifier.inform, none_] at mayStart
  cases mayStart

/-- **One token.** The classifier stays in step, if no error is recorded. -/
theorem InStep.produce {s : Scanner Classifier} (h : s.InStep) (steered : s.Steered)
    (pace : s.KeepsPace) (clean : s.produce.2.steering.errors = #[]) : s.produce.2.InStep := by
  cases ended : s.ended with
  | some location =>
    rw [produce_of_ended ended]
    exact h
  | none =>
    obtain ⟨turn, steering, -, last, -, -⟩ := produced steered.queue ended
    obtain ⟨noTrailingData, inOrder, heeded, kept⟩ := pace
    rw [steering] at clean kept
    obtain ⟨mirrors, inLine⟩ := h.mirrors.turn steered.reachable (turn inOrder) h.inLine
      steered.top_of_mayStart noTrailingData heeded kept clean
    refine ⟨by rw [steering]; exact mirrors, fun active => ?_⟩
    rw [last]
    exact fun eol => inLine active (Option.some.inj eol)

/-- No error goes away. -/
theorem errors_produce {s : Scanner Classifier} (clean : s.produce.2.steering.errors = #[])
    (steered : s.Steered) : s.steering.errors = #[] := by
  cases ended : s.ended with
  | some location =>
    rw [produce_of_ended ended] at clean
    exact clean
  | none =>
    rw [(produced steered.queue ended).steering] at clean
    exact (Classifier.Grows.inform _ _).eq_empty ((Classifier.Grows.inform _ none).eq_empty clean)

/-- **Every token**, as long as no error was recorded. -/
theorem inStep_after (tags : List String) (source : List Char) {n : Nat}
    (pace : ∀ i < n, ((start ({} : Classifier) tags source).after i).KeepsPace)
    (clean : ((start ({} : Classifier) tags source).after n).steering.errors = #[]) :
    ((start ({} : Classifier) tags source).after n).InStep := by
  induction n with
  | zero => exact ⟨.outside rfl rfl, fun active => by cases active⟩
  | succ n ih =>
    have steered := steered_after tags source n
    have before := ih (fun i hi => pace i (Nat.lt_succ_of_lt hi)) (errors_produce clean steered)
    exact before.produce steered (pace n n.lt_succ_self) clean

/-- **Inside a literal, the classifier mirrors the scanner.** For every source and after every
    token, as long as the classifier has recorded no error and has kept pace with every token so far:
    if the scanner is inside a literal, the classifier's top frame follows one, and the two agree on
    how many elements are open, whether a tag or a closing tag is open, and whether the last piece of
    markup was a comment or a processing instruction. -/
theorem literal_mirrored (tags : List String) (source : List Char) (n : Nat)
    (pace : ∀ i < n, ((start ({} : Classifier) tags source).after i).KeepsPace) :
    let s := (start ({} : Classifier) tags source).after n
    s.steering.errors = #[] → s.mode.active = true →
      ∃ (x : Classifier.XmlLiteral) (below : List Classifier.Frame) (f : MarkupFrame)
        (outer : List MarkupFrame),
        s.steering.stack = .xmlLiteral x :: below ∧ s.mode.literals = f :: outer
          ∧ x.level = f.level ∧ x.inTag = f.inTag ∧ x.inCloseTag = f.inCloseTag
          ∧ x.wasComment = f.wasComment ∧ x.wasInstruction = f.wasInstruction := by
  intro s clean active
  have inStep : s.InStep := inStep_after tags source pace clean
  cases inStep.mirrors with
  | inside mode top around =>
    exact ⟨_, _, _, _, top, congrArg XmlMode.literals mode, rfl, rfl, rfl, rfl, rfl⟩
  | outside inactive =>
    rw [active] at inactive
    cases inactive

/-- In `[x]=<a><%=<b/>%></a>`, both are back in the element `a` after the embedded expression. -/
theorem literal_mirrored_resumed :
    let s (n : Nat) := (start ({} : Classifier) [] ['[', 'x', ']', '=', '<', 'a', '>', '<', '%',
      '=', '<', 'b', '/', '>', '%', '>', '<', '/', 'a', '>']).after n
    ((∀ i < 10, (s i).KeepsPace) ∧ (s 10).steering.errors = #[] ∧ (s 10).mode.active = true)
    ∧ ∃ (x : Classifier.XmlLiteral) (below : List Classifier.Frame) (f : MarkupFrame)
        (outer : List MarkupFrame),
        (s 10).steering.stack = .xmlLiteral x :: below ∧ (s 10).mode.literals = f :: outer
          ∧ x.level = f.level ∧ x.inTag = f.inTag ∧ x.inCloseTag = f.inCloseTag
          ∧ x.wasComment = f.wasComment ∧ x.wasInstruction = f.wasInstruction := by
  intro s
  have place : (∀ i < 10, (s i).KeepsPace) ∧ (s 10).steering.errors = #[]
      ∧ (s 10).mode.active = true := by decide +kernel
  exact ⟨place, literal_mirrored [] _ 10 place.1 place.2.1 place.2.2⟩

end Scanner

end BasicLexis
