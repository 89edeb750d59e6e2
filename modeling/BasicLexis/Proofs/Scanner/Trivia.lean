import BasicLexis.Proofs.Scanner.Parts

set_option autoImplicit false

/-! # Trivia and tokens

Comments, directives and blank lines are recorded in the order of the source, and they keep apart
from the tokens. A token that starts within a part of the source is one of that part's own, so only
the part that a comment or directive was read in could put a token into it. The end of the line is no
such token, since it starts where the comment or directive stops. The exclamation mark that is read
with the keyword in `Rem!x` is one, and there is no other. -/

namespace BasicLexis

open Reader

/-! ## The trivia of a part -/

/-- What trivia a part can have: nothing, or one piece that starts where the part does. -/
inductive Part.Noted (part : Part) : List Trivia → Prop where
  | nothing : Noted part []
  | blankLine : Noted part [.blankLine part.start.location]
  | comment {c : Comment} {stop : Reader} (stands : c.Stands part.start stop part.piece.queued)
      (rest : part.piece.rest = stop.skipLineEnd)
      (ends : part.piece.EndsLine part.freshLine stop.location) : Noted part [.comment c]
  | directive {d : Directive} {last : Location} (span : d.span = ⟨part.start.location, last⟩)
      (within : last ≤ part.piece.rest.location) (ends : part.piece.EndsLine part.freshLine last)
      (queued : part.piece.queued = none) : Noted part [.directive d]

theorem Part.noted (part : Part) : part.Noted part.piece.trivia := by
  cases part.shape with
  | blank across silent => simpa [silent.trivia] using .nothing
  | lineEnd across ends queued trivia =>
    rw [trivia]
    split
    · exact .blankLine
    · exact .nothing
  | continuation ahead blank across silent => simpa [silent.trivia] using .nothing
  | unknown ahead rest silent reported => simpa [silent.trivia] using .nothing
  | comment stands rest ends trivia =>
    rw [trivia]
    exact .comment stands rest ends
  | directive reaches across within lineEnd rest ends queued span trivia =>
    rw [trivia]
    refine .directive span ?_ ends queued
    rw [rest]
    exact (within.trans (reaches_skipLineEnd _)).location_le
  | token across filled stands token queued trivia => simpa [trivia] using .nothing
  | dotted stands ahead rest token queued trivia => simpa [trivia] using .nothing
  | accessed stands reaches ahead rest token queued trivia => simpa [trivia] using .nothing

theorem Part.Noted.location {part : Part} {all : List Trivia} (h : part.Noted all) :
    all = [] ∨ ∃ trivia, all = [trivia] ∧ trivia.location = part.start.location := by
  cases h with
  | nothing => exact .inl rfl
  | blankLine => exact .inr ⟨_, rfl, rfl⟩
  | comment stands rest ends => exact .inr ⟨_, rfl, by simp [Trivia.location, stands.span]⟩
  | directive span within ends queued => exact .inr ⟨_, rfl, by simp [Trivia.location, span]⟩

/-- The trivia of the parts of a source come in order, and before the place where the parts end. -/
theorem Tiles.trivia_pairwise {first last : Reader} {parts : List Part}
    (h : Tiles first parts last) :
    (parts.flatMap (·.piece.trivia)).Pairwise (fun a b => a.location < b.location)
      ∧ ∀ trivia ∈ parts.flatMap (·.piece.trivia), trivia.location < last.location := by
  induction h with
  | nil => simp
  | @snoc parts part front ih =>
    obtain ⟨ordered, before⟩ := ih
    have farther := part.reaches.location_lt part.more
    have earlier : ∀ trivia ∈ parts.flatMap (·.piece.trivia),
        trivia.location < part.piece.rest.location :=
      fun trivia mem => lt_trans (before trivia mem) farther
    rw [List.flatMap_append, List.flatMap_singleton]
    rcases part.noted.location with none_ | ⟨trivia, one, place⟩
    · rw [none_, List.append_nil]
      exact ⟨ordered, earlier⟩
    · rw [one]
      refine ⟨List.pairwise_append.2 ⟨ordered, List.pairwise_singleton _ _, ?_⟩, ?_⟩
      · intro a ha b hb
        rw [List.mem_singleton.1 hb, place]
        exact before a ha
      · refine List.forall_mem_append.2 ⟨earlier, List.forall_mem_singleton.2 ?_⟩
        rw [place]
        exact farther

/-- The token at the end of a line starts where the line stops. -/
theorem Piece.EndsLine.start_eq {p : Piece} {freshLine : Bool} {l : Location} {t : Token}
    (h : p.EndsLine freshLine l) (token : p.token = some t) : t.start = l := by
  unfold EndsLine at h
  rw [token] at h
  cases freshLine with
  | true => cases h
  | false =>
    cases h
    rfl

namespace Scanner

variable {σ : Type} {source : List Char} {tokens : List Token} {s : Scanner σ} {parts : List Part}

/-- A token that starts within a part is one of the part. -/
theorem Record.gives_of_start (h : Record source tokens s parts) {part : Part}
    (mem : part ∈ parts) {t : Token} (produced : t ∈ tokens) (from_ : part.start.location ≤ t.start)
    (before : t.start < part.piece.rest.location) : part.Gives t := by
  rcases h.tokens t produced with ⟨other, there, gives⟩ | ⟨-, start, -⟩
  · obtain ⟨place, reaches, within, start, more⟩ := gives.start
    rw [start] at from_ before
    rcases h.tiles.apart there mem with rfl | earlier | later
    · exact gives
    · -- the token starts before the other part ends
      rcases more with more | done
      · have less := within.location_lt more
        have le := earlier.location_le
        exact absurd (lt_of_lt_of_le less le) (not_lt_of_ge from_)
      · exact absurd (List.eq_nil_of_length_eq_zero (by simpa [done] using earlier.length_le))
          part.rest_ne_nil
    · have le := later.location_le
      exact absurd (lt_of_lt_of_le before (le_trans le reaches.location_le)) (lt_irrefl _)
  · have le := (h.tiles.bounds part mem).2.location_le
    rw [start] at before
    exact absurd before (not_lt_of_ge le)

/-- No token starts within a directive. -/
theorem Record.directive_apart (h : Record source tokens s parts) {d : Directive}
    (recorded : .directive d ∈ s.journal.trivia) {t : Token} (produced : t ∈ tokens) :
    d.span.contains t.start = false := by
  obtain ⟨part, mem, here⟩ := h.mem_trivia.1 recorded
  have noted := part.noted
  generalize part.piece.trivia = all at noted here
  cases noted with
  | nothing => cases here
  | blankLine => simp at here
  | comment => simp at here
  | directive span within ends queued =>
    cases List.mem_singleton.1 here
    refine Bool.eq_false_iff.2 fun inside => ?_
    rw [span, Span.contains_iff] at inside
    obtain ⟨from_, before⟩ := inside
    rcases h.gives_of_start mem produced from_ (lt_of_lt_of_le before within) with token | second
    · rw [ends.start_eq token] at before
      exact absurd before (lt_irrefl _)
    · rw [queued] at second
      cases second

/-- Every comment takes the rest of its line, and the only token that can start within it is the
    exclamation mark that was read with the keyword. -/
theorem Record.comment_apart (h : Record source tokens s parts) {c : Comment}
    (recorded : .comment c ∈ s.journal.trivia) :
    ∃ start stop mark, (ofText source).Reaches start ∧ c.Stands start stop mark
      ∧ ∀ t ∈ tokens, c.span.contains t.start = true → mark = some t := by
  obtain ⟨part, mem, here⟩ := h.mem_trivia.1 recorded
  have noted := part.noted
  generalize part.piece.trivia = all at noted here
  cases noted with
  | nothing => cases here
  | blankLine => simp at here
  | directive => simp at here
  | comment stands rest ends =>
    cases List.mem_singleton.1 here
    refine ⟨_, _, _, (h.tiles.bounds part mem).1, stands, fun t produced inside => ?_⟩
    rw [stands.span, Span.contains_iff] at inside
    obtain ⟨from_, before⟩ := inside
    have within : t.start < part.piece.rest.location := by
      rw [rest]
      exact lt_of_lt_of_le before (reaches_skipLineEnd _).location_le
    rcases h.gives_of_start mem produced from_ within with token | second
    · rw [ends.start_eq token] at before
      exact absurd before (lt_irrefl _)
    · exact second

end Scanner

namespace TokenStream

variable {σ : Type} [Steering σ]

/-- **Trivia and tokens keep apart, except for the mark of `Rem!`.** Whatever steers the scanner,
    after a run to the end marker the recorded trivia are in the order of the source and start at
    different locations. No token starts within a directive. All of the line after the quote or
    keyword of a comment is the comment's text, and a token that starts within a comment is the
    exclamation mark that was read together with its keyword. -/
theorem trivia_apart (steering : σ) (tags : List String) (source : List Char) :
    let run := (start steering tags source).drain
    let trivia := run.2.scanner.journal.trivia
    trivia.toList.Pairwise (fun a b => a.location < b.location)
    ∧ (∀ d, .directive d ∈ trivia → ∀ t ∈ run.1, d.span.contains t.start = false)
    ∧ ∀ c, .comment c ∈ trivia →
      ∃ place stop mark, (ofText source).Reaches place ∧ c.Stands place stop mark
        ∧ ∀ t ∈ run.1, c.span.contains t.start = true → mark = some t := by
  intro run trivia
  obtain ⟨⟨parts, record⟩, -⟩ := exists_record steering tags source
  refine ⟨?_, fun d recorded t produced => ?_, fun c recorded => ?_⟩
  · rw [record.trivia]
    exact record.tiles.trivia_pairwise.1
  · exact record.directive_apart recorded (Array.mem_toList_iff.2 produced)
  · obtain ⟨place, stop, mark, reaches, stands, only⟩ := record.comment_apart recorded
    exact ⟨place, stop, mark, reaches, stands,
      fun t produced => only t (Array.mem_toList_iff.2 produced)⟩

/-- In `Rem!x`, the exclamation mark starts within the comment, so it is the mark that was read with
    the keyword. -/
theorem trivia_apart_remark :
    let source := ['R', 'e', 'm', '!', 'x']
    let run := (start (σ := FixedHints) ⟨{}⟩ [] source).drain
    let c : Comment := ⟨.singleLine, "x", true, ⟨⟨1, 1⟩, ⟨1, 6⟩⟩⟩
    let t := Token.symbol .exclamation ⟨1, 4⟩ ⟨1, 5⟩
    (.comment c ∈ run.2.scanner.journal.trivia ∧ t ∈ run.1 ∧ c.span.contains t.start = true)
    ∧ ∃ place stop, c.Stands place stop (some t) := by
  intro source run c t
  obtain ⟨-, -, comments⟩ := trivia_apart (σ := FixedHints) ⟨{}⟩ [] source
  obtain ⟨recorded, produced⟩ : .comment c ∈ run.2.scanner.journal.trivia ∧ t ∈ run.1 := by
    decide +kernel
  have inside : c.span.contains t.start = true := by decide
  obtain ⟨place, stop, mark, -, stands, only⟩ := comments c recorded
  rw [only t produced inside] at stands
  exact ⟨⟨recorded, produced, inside⟩, place, stop, stands⟩

end TokenStream

end BasicLexis
