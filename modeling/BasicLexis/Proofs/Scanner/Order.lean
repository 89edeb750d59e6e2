import BasicLexis.Proofs.Scanner.Parts
import BasicLexis.Proofs.Scanner.Steered

set_option autoImplicit false

/-! # The order of tokens

Tokens come in the order of the source, and each one ends before the next one starts, with one
exception: an exclamation mark that was read together with a word waits in the queue while the token
at hand is already produced with an end past the mark. That is the case in `a!b`, where the name is
produced with the end of the mark as its own, and after `Rem!x`, where the mark comes out after the
end of the line or any later token. `Scanner.JumpsBack` says when this happens, and it is the only
way in which two tokens in a row can overlap.

The invariant is that the tokens in the queue are in order, and end where the scanner reads on or
before. -/

namespace BasicLexis

open Reader

/-! ## The tokens of a part -/

/-- The token of a part ends no earlier than it starts, and both is within the part. -/
theorem Part.token_bounds (part : Part) {t : Token} (token : part.piece.token = some t) :
    part.start.location ≤ t.start ∧ t.start ≤ t.stop ∧ t.stop ≤ part.piece.rest.location := by
  cases part.shape.within part.more token with
  | inner reaches stands within more =>
    rw [stands.start, stands.stop]
    exact ⟨reaches.location_le, stands.reaches.location_le, within.location_le⟩
  | lineEnd reaches within token more =>
    rw [token]
    exact ⟨reaches.location_le, within.location_le, le_refl _⟩

/-- The token takes some of the source, and it ends no later than the given place. -/
structure Token.EndsBy (t : Token) (r : Reader) : Prop where
  inner : t.isEof = false
  filled : t.start < t.stop
  stop : t.stop ≤ r.location

theorem Token.EndsBy.mono {t : Token} {r r' : Reader} (h : t.EndsBy r) (later : r.Reaches r') :
    t.EndsBy r' :=
  ⟨h.inner, h.filled, le_trans h.stop later.location_le⟩

/-- The second token of a part starts within the part. It is an exclamation mark that starts before
    the first token ends, or it starts where the first token ends. -/
theorem Part.second_bounds (part : Part) {t : Token} (queued : part.piece.queued = some t) :
    part.start.location ≤ t.start ∧ t.EndsBy part.piece.rest
      ∧ ∀ u, part.piece.token = some u →
        (t.kind = .exclamation ∧ t.start < u.stop) ∨ (t.kind ≠ .exclamation ∧ u.stop ≤ t.start) := by
  have second := part.shape.second queued
  have inner := second.ne_eof
  cases second with
  | access reaches ahead token within first =>
    subst token
    refine ⟨(part.start.reaches_skip.trans reaches).location_le,
      ⟨inner, location_lt_skip ahead, within.location_le⟩, fun u hu => .inl ⟨rfl, first u hu⟩⟩
  | dot reaches ahead token within first =>
    subst token
    obtain ⟨u, hu, stop⟩ := first
    refine ⟨reaches.location_le, ⟨inner, location_lt_skip ahead, within.location_le⟩,
      fun v hv => .inr ⟨nofun, ?_⟩⟩
    rw [hu] at hv
    cases hv
    exact le_of_eq stop

namespace Scanner

variable {σ : Type}

/-! ## The queue -/

/-- The tokens in the queue are in order, and all of them were read. -/
structure InLine (s : Scanner σ) : Prop where
  ordered : s.queue.Pairwise fun a b => a.stop ≤ b.start
  endsBy : ∀ t ∈ s.queue, t.EndsBy s.reader

theorem InLine.accept {s : Scanner σ} (h : s.InLine) {part : Part} (place : part.start = s.reader)
    (mode : XmlMode) : (s.accept part.piece mode).InLine where
  ordered := by
    cases queued : part.piece.queued with
    | none => simpa [Scanner.accept, queued] using h.ordered
    | some t =>
      have bounds := part.second_bounds queued
      simp only [Scanner.accept, queued, Option.toList_some, List.pairwise_append,
        List.pairwise_singleton, List.mem_singleton, forall_eq, true_and]
      exact ⟨h.ordered, fun a ha => le_trans (h.endsBy a ha).stop (place ▸ bounds.1)⟩
  endsBy := by
    refine List.forall_mem_append.2 ⟨fun t ht => ?_, fun t ht => ?_⟩
    · exact (h.endsBy t ht).mono (place ▸ part.reaches)
    · exact (part.second_bounds (by simpa using ht)).2.1

theorem onlyMarksWait_of_nil {s : Scanner σ} (empty : s.queue = []) : s.OnlyMarksWait := by
  simp [OnlyMarksWait, empty]

/-- How a token that was read stands to what was read before, and to the first token in the queue
    that it leaves. -/
structure InTurn (s : Scanner σ) (t : Token) (s' : Scanner σ) : Prop where
  inLine : s'.InLine
  start : s.reader.location ≤ t.start
  forward : t.start ≤ t.stop
  stop : t.stop ≤ s'.reader.location
  marker : t.isEof = true → t = .endMarker t.start
  next : ∀ u, s'.queue.head? = some u →
    (u.kind = .exclamation ∧ u.start < t.stop) ∨ (u.kind ≠ .exclamation ∧ t.stop ≤ u.start)

/-- The first token of a queue in which marks wait is one that was read before. -/
theorem InLine.head_lt {s : Scanner σ} (h : s.InLine) (marks : s.OnlyMarksWait) {u : Token}
    (head : u ∈ s.queue) {l : Location} (later : s.reader.location ≤ l) :
    u.kind = .exclamation ∧ u.start < l := by
  have ends := h.endsBy u head
  exact ⟨marks u head, lt_of_lt_of_le ends.filled (le_trans ends.stop later)⟩

theorem inTurn_lex {s : Scanner σ} (h : s.InLine) (marks : s.OnlyMarksWait) :
    InTurn s s.lex.1 s.lex.2 := by
  fun_induction Scanner.lex s with
  | case1 s t s' step =>
    rcases step_cases step with ⟨part, mode, place, token, rfl⟩ | ⟨done, token, mode, fresh, rfl⟩
    · obtain ⟨start, forward, stop⟩ := part.token_bounds token.symm
      have inner := (part.shape.within part.more token.symm).ne_eof
      refine ⟨h.accept place mode, place ▸ start, forward, stop,
        fun eof => absurd eof (by simp [inner]), fun u head => ?_⟩
      cases waiting : s.queue with
      | nil =>
        have queued : part.piece.queued = some u := by simpa [accept, waiting] using head
        exact (part.second_bounds queued).2.2 t token.symm
      | cons v queue =>
        have first : u ∈ s.queue := by
          have : v = u := by simpa [accept, waiting] using head
          simp [waiting, this]
        exact .inl (h.head_lt marks first (le_trans (place ▸ start) forward))
    · cases token
      have same : s.endToken.start = s.reader.location ∧ s.endToken.stop = s.reader.location := by
        unfold endToken
        dsimp only
        split <;> exact ⟨rfl, rfl⟩
      refine ⟨⟨h.ordered, h.endsBy⟩, le_of_eq same.1.symm, le_of_eq (same.1.trans same.2.symm),
        le_of_eq same.2, fun eof => ?_, fun u head => ?_⟩
      · unfold endToken at *
        dsimp only at *
        split
        · rfl
        · next open_ =>
          rw [if_neg open_] at eof
          cases eof
      · exact .inl (h.head_lt marks (List.mem_of_head? head) (le_of_eq same.2.symm))
  | case2 s s' step ih =>
    rcases step_cases step with ⟨part, mode, place, silent, rfl⟩ | ⟨done, token, mode, fresh, rfl⟩
    · obtain ⟨inLine, start, forward, stop, marker, next⟩ :=
        ih (h.accept place mode) (marks.accept silent.symm mode)
      refine ⟨inLine, le_trans ?_ start, forward, stop, marker, next⟩
      exact place ▸ part.reaches.location_le
    · cases token

/-! ## Tokens in a row -/

variable [Steering σ]

/-- After the next token, which is read from the source, an exclamation mark has its turn that was
    read before the end of that token. -/
def JumpsBack (s : Scanner σ) : Prop :=
  s.queue = [] ∧ s.produce.2.ended = none
    ∧ ∃ t, s.produce.2.queue.head? = some t ∧ t.kind = .exclamation

theorem InLine.tell {s : Scanner σ} (h : s.InLine) (t : Token) : (s.tell t).InLine :=
  ⟨h.ordered, h.endsBy⟩

theorem ended_tell (s : Scanner σ) (t : Token) :
    (s.tell t).ended = if t.isEof then some t.start else none := rfl

/-- A token with nothing left in the queue ends before the next one starts. -/
theorem InLine.le_start_of_nil {s : Scanner σ} (h : s.InLine) (running : s.ended = none)
    (empty : s.queue = []) {l : Location} (before : l ≤ s.reader.location) :
    l ≤ s.produce.1.start := by
  rw [produce_eq_of_nil running empty]
  exact le_trans before (inTurn_lex h (onlyMarksWait_of_nil empty)).start

/-- Producing a token keeps the queue in order, and the token stands to the next one as it
    should. -/
structure KeepsOrder (s : Scanner σ) : Prop where
  inLine : s.produce.2.InLine
  forward : s.produce.1.start ≤ s.produce.1.stop
  order : s.produce.1.stop ≤ s.produce.2.produce.1.start ↔ ¬s.JumpsBack

/-- The end marker repeats. -/
theorem InLine.keepsOrder_of_ended {s : Scanner σ} (h : s.InLine) {l : Location}
    (ended : s.ended = some l) : s.KeepsOrder := by
  have marker := produce_eq_of_ended ended
  have stays : ¬s.JumpsBack := by
    intro jumps
    have goesOn := jumps.2.1
    rw [marker, ended] at goesOn
    cases goesOn
  constructor
  · rw [marker]
    exact h
  · rw [marker]
    exact le_refl _
  · rw [marker]
    dsimp only
    rw [marker]
    exact iff_of_true (le_refl _) stays

/-- A token from the queue comes before the others in the queue, and before what was not read. -/
theorem InLine.keepsOrder_of_cons {s : Scanner σ} (h : s.InLine) (running : s.ended = none)
    {t : Token} {queue : List Token} (waiting : s.queue = t :: queue) : s.KeepsOrder := by
  have stays : ¬s.JumpsBack := fun jumps => by simp [JumpsBack, waiting] at jumps
  obtain ⟨inner, filled, stop⟩ := h.endsBy t (by simp [waiting])
  have ordered := h.ordered
  rw [waiting, List.pairwise_cons] at ordered
  have inLine : (Scanner.tell { s with queue } t).InLine :=
    ⟨ordered.2, fun u hu => h.endsBy u (by rw [waiting]; exact .tail _ hu)⟩
  have goesOn : (Scanner.tell { s with queue } t).ended = none := by simp [ended_tell, inner]
  have produced := produce_eq_of_cons running waiting
  constructor
  · rw [produced]
    exact inLine
  · rw [produced]
    exact le_of_lt filled
  · rw [produced]
    refine iff_of_true ?_ stays
    cases queue with
    | nil => exact inLine.le_start_of_nil goesOn rfl stop
    | cons u later =>
      dsimp only
      rw [produce_eq_of_cons goesOn rfl]
      exact ordered.1 u (by simp)

/-- A token of the source comes before what was not read. What it leaves in the queue decides
    whether it comes before the next token. -/
theorem InLine.keepsOrder_of_nil {s : Scanner σ} (h : s.InLine) (running : s.ended = none)
    (empty : s.queue = []) : s.KeepsOrder := by
  have turn := inTurn_lex h (onlyMarksWait_of_nil empty)
  have produced := produce_eq_of_nil running empty
  constructor
  · rw [produced]
    exact turn.inLine.tell _
  · rw [produced]
    exact turn.forward
  · unfold JumpsBack
    rw [produced]
    dsimp only
    cases eof : s.lex.1.isEof with
    | true =>
      have done : (s.lex.2.tell s.lex.1).ended = some s.lex.1.start := by simp [ended_tell, eof]
      rw [produce_eq_of_ended done, done]
      refine iff_of_true ?_ (by simp)
      rw [turn.marker eof]
      exact le_refl _
    | false =>
      have goesOn : (s.lex.2.tell s.lex.1).ended = none := by simp [ended_tell, eof]
      have same : (s.lex.2.tell s.lex.1).queue = s.lex.2.queue := rfl
      rw [goesOn, same]
      cases rest : s.lex.2.queue with
      | nil =>
        refine iff_of_true ?_ (by simp)
        exact (turn.inLine.tell _).le_start_of_nil goesOn (same.trans rest) turn.stop
      | cons u later =>
        rw [produce_eq_of_cons goesOn (same.trans rest)]
        rcases turn.next u (by simp [rest]) with ⟨mark, less⟩ | ⟨other, le⟩
        · simp [empty, mark, less]
        · simp [empty, other, le]

theorem InLine.keepsOrder {s : Scanner σ} (h : s.InLine) : s.KeepsOrder := by
  cases ended : s.ended with
  | some l => exact h.keepsOrder_of_ended ended
  | none =>
    cases waiting : s.queue with
    | cons t queue => exact h.keepsOrder_of_cons ended waiting
    | nil => exact h.keepsOrder_of_nil ended waiting

theorem inLine_after (steering : σ) (tags : List String) (source : List Char) (n : Nat) :
    ((Scanner.start steering tags source).after n).InLine := by
  induction n with
  | zero => exact ⟨.nil, by simp [after, Scanner.start]⟩
  | succ n ih => exact ih.keepsOrder.inLine

/-- **Two tokens in a row overlap only at an exclamation mark that waited.** Whatever steers the
    scanner, no token of a source ends before it starts; and a token ends before the next one starts,
    or where it does, except when the next one is an exclamation mark that was read together with a
    word before the token's end. In that case the two are out of order. -/
theorem tokens_in_order (steering : σ) (tags : List String) (source : List Char) (n : Nat) :
    let s : Scanner σ := (Scanner.start steering tags source).after n
    s.produce.1.start ≤ s.produce.1.stop
      ∧ (s.produce.1.stop ≤ s.produce.2.produce.1.start ↔ ¬s.JumpsBack) := by
  have keeps := (inLine_after steering tags source n).keepsOrder
  exact ⟨keeps.forward, keeps.order⟩

/-- In `_!b`, the name ends after the exclamation mark has started. -/
example :
    let s := Scanner.start (σ := FixedHints) ⟨{}⟩ [] ['_', '!', 'b']
    s.produce.1.stop = ⟨1, 3⟩ ∧ s.produce.2.produce.1.start = ⟨1, 2⟩ := by decide +kernel

end Scanner

end BasicLexis
