import BasicLexis.Proofs.Scanner.Parts

set_option autoImplicit false

/-! # No text is lost

Every character of a source is accounted for once the scanner has come to the end marker: it belongs
to a token, a comment or the line of a directive, it is whitespace or continues a line, or it was
reported. And the text of a token is the text of the source, from the place where the token starts.

Both follow from the parts of the source. A part's shape says how each of its characters is accounted
for; the parts leave no gap; and the tokens that still wait in the queue are exclamation marks, whose
characters also belong to the word before them or to a comment. -/

namespace BasicLexis

open Reader

/-- The character at a place is accounted for by the tokens and the journal of a run. -/
inductive Accounted (tokens : List Token) (journal : Journal) (r : Reader) : Prop where
  /-- It belongs to a token. -/
  | token {t : Token} (mem : t ∈ tokens) (inside : t.span.contains r.location = true)
  /-- It belongs to a comment. -/
  | comment {c : Comment} (mem : .comment c ∈ journal.trivia)
      (inside : c.span.contains r.location = true)
  /-- It stands on the line of a directive, from the number sign on. -/
  | directive {d : Directive} (mem : .directive d ∈ journal.trivia)
      (line : r.location.line = d.span.start.line) (from_ : d.span.start ≤ r.location)
  /-- It is whitespace. -/
  | blank (blank : r.peekIs Text.isBlank = true)
  /-- It is an underscore before whitespace or at the end. -/
  | continuation (ahead : r.peek = some '_') (blank : (r.peekAt 1).all Text.isBlank = true)
  /-- It is reported as unknown. -/
  | unknown {c : Char} (ahead : r.peek = some c)
      (reported : ⟨r.location, .unknownCharacter c⟩ ∈ journal.diagnostics)

/-! ## Stretches -/

/-- A place between two others lies in the span between their locations. -/
theorem contains_of_between {a b place : Reader} (reaches : a.Reaches place) (later : a.Reaches b)
    (before : place.position < b.position) :
    Span.contains ⟨a.location, b.location⟩ place.location = true := by
  have last := (reaches.location_lt_iff later).2 before
  exact Span.contains_iff.2 ⟨reaches.location_le, last⟩

theorem Token.Stands.contains {t : Token} {a b place : Reader} (h : t.Stands a b)
    (reaches : a.Reaches place) (before : place.position < b.position) :
    t.span.contains place.location = true := by
  rw [Token.span, h.start, h.stop]
  exact contains_of_between reaches h.reaches before

/-- The characters of a line are on one line. -/
theorem Reader.Over.line_eq {r stop place : Reader} (h : Over (!Text.isLineEnd ·) r stop)
    (reaches : r.Reaches place) (before : place.position ≤ stop.position) :
    place.location.line = r.location.line := by
  rw [(h.cut reaches before).location_of_inline]
  rfl

namespace Scanner

variable {σ : Type} {source : List Char} {tokens : List Token} {s : Scanner σ} {parts : List Part}

/-! ## Characters -/

theorem Record.mem_diagnostics (h : Record source tokens s parts) {part : Part}
    (mem : part ∈ parts) {l : Location} {problem : Problem}
    (reported : Piece.problem l problem ∈ part.piece.entries) :
    ⟨l, problem⟩ ∈ s.journal.diagnostics := by
  have entered := h.entries part mem reported
  rw [Array.mem_toList_iff] at entered
  exact Array.mem_filterMap.2 ⟨_, entered, rfl⟩

/-- How a character of a part is accounted for. -/
theorem Record.accounted (h : Record source tokens s parts) (finished : s.Finished) {part : Part}
    (mem : part ∈ parts) {place : Reader} (reaches : part.start.Reaches place)
    (before : place.position < part.piece.rest.position) : Accounted tokens s.journal place := by
  have recorded {trivia : Trivia} (here : part.piece.trivia = [trivia]) :
      trivia ∈ s.journal.trivia := h.mem_trivia.2 ⟨part, mem, by rw [here]; exact .head _⟩
  cases part.shape with
  | blank across silent => exact .blank (across.chars place reaches before)
  | lineEnd across ends queued trivia => exact .blank (across.chars place reaches before)
  | continuation ahead blank across silent =>
    rcases Nat.lt_or_ge place.position part.start.skip.position with first | later
    · rw [position_skip_of_peek ahead] at first
      rw [reaches.eq_of_position (Nat.le_of_lt_succ first)]
      exact .continuation ahead blank
    · exact .blank (across.chars place (part.start.reaches_skip.of_position_le reaches later) before)
  | unknown ahead rest silent reported =>
    rw [rest, position_skip_of_peek ahead] at before
    rw [reaches.eq_of_position (Nat.le_of_lt_succ before)]
    exact .unknown ahead (h.mem_diagnostics mem reported)
  | @comment c stop stands rest ends trivia =>
    have toStop := part.start.reaches_skip.trans stands.reaches
    rcases Nat.lt_or_ge place.position stop.position with inside | later
    · refine .comment (recorded trivia) ?_
      rw [stands.span]
      exact contains_of_between reaches toStop inside
    · rw [rest] at before
      exact .blank ((over_skipLineEnd stop).chars place (toStop.of_position_le reaches later) before)
  | @directive d last stop inner across within lineEnd rest ends queued span trivia =>
    rcases Nat.lt_or_ge place.position stop.position with inside | later
    · refine .directive (recorded trivia) ?_ ?_
      · rw [span]
        exact across.line_eq reaches (Nat.le_of_lt inside)
      · rw [span]
        exact reaches.location_le
    · rw [rest] at before
      exact .blank ((over_skipLineEnd stop).chars place
        (across.reaches.of_position_le reaches later) before)
  | @token t first across filled stands token queued trivia =>
    rcases Nat.lt_or_ge place.position first.position with blank | later
    · exact .blank (across.chars place reaches blank)
    · exact .token (h.first part mem t token)
        (stands.contains (across.reaches.of_position_le reaches later) before)
  | @dotted t stop stands ahead rest token queued trivia =>
    rcases Nat.lt_or_ge place.position stop.position with inside | later
    · exact .token (h.first part mem t token) (stands.contains reaches inside)
    · -- the dot no longer waits, because only exclamation marks do
      have dot : Token.symbol .dot stop.location stop.skip.location ∈ tokens := by
        rcases List.mem_append.1 (h.second part mem _ queued) with there | waits
        · exact there
        · exact absurd (finished.2 _ waits) nofun
      rw [rest] at before
      exact .token dot (contains_of_between (stands.reaches.of_position_le reaches later)
        stop.reaches_skip before)
  | accessed stands inner ahead rest token queued trivia =>
    rw [rest] at before
    exact .token (h.first part mem _ token) (stands.contains reaches before)

/-! ## Texts -/

/-- The source spells every token that was produced. -/
theorem Record.spelled (h : Record source tokens s parts) {t : Token} (mem : t ∈ tokens)
    (inner : t.IsInner) :
    ∃ p < source.length, t.start = (skipMany p (.ofText source)).location
      ∧ t.SpelledAt (skipMany p (.ofText source)) := by
  rcases h.tokens t mem with ⟨part, there, gives⟩ | ⟨-, -, -, ends⟩
  · obtain ⟨place, stop, reaches, stands, before⟩ := gives.stands inner
    obtain ⟨first, last⟩ := h.tiles.bounds part there
    obtain ⟨n, -, rfl, position⟩ := (first.trans reaches).exists_position
    refine ⟨n, ?_, stands.start, stands.spelled⟩
    obtain ⟨m, few, -, end_⟩ := h.tiles.reaches.exists_position
    have later := last.position_le
    simp only [ofText, Nat.zero_add] at *
    omega
  · exact absurd inner ends

end Scanner

namespace TokenStream

variable {σ : Type} [Steering σ]

/-- **No text is lost or altered.** Whatever steers the scanner, after a run to the end marker every
    character of the source is accounted for; and every token that ends neither a line nor the
    source and that is no XML comment or character data has the text that the source has from the
    token's start on, a name in brackets after its bracket. -/
theorem source_accounted (steering : σ) (tags : List String) (source : List Char) :
    let run := (start steering tags source).drain
    (∀ p < source.length, Accounted run.1.toList run.2.scanner.journal
      (skipMany p (.ofText source)))
    ∧ ∀ t ∈ run.1, t.IsInner → t.kind ≠ .xmlComment → t.kind ≠ .xmlCData →
      ∃ p < source.length, t.start = (skipMany p (.ofText source)).location
        ∧ (t.text.toList <+: source.drop p
          ∨ (t.IsBracketed (skipMany p (.ofText source))
            ∧ '[' :: t.text.toList <+: source.drop p)) := by
  intro run
  obtain ⟨⟨parts, record⟩, finished⟩ := exists_record steering tags source
  refine ⟨fun p inside => ?_, fun t mem inner comment cdata => ?_⟩
  · have reaches := reaches_skipMany p (.ofText source)
    have position : (skipMany p (.ofText source)).position = p := by
      rw [position_skipMany (Nat.le_of_lt inside)]
      exact Nat.zero_add p
    -- all of the source was read
    have all : p < run.2.scanner.reader.position := by
      rw [record.tiles.reaches.position_of_done finished.1]
      exact inside
    obtain ⟨part, mem, later, before⟩ :=
      record.tiles.exists_part reaches (by rw [position]; exact all)
    exact record.accounted finished mem later before
  · obtain ⟨p, inside, place, spelled⟩ := record.spelled (Array.mem_toList_iff.2 mem) inner
    refine ⟨p, inside, place, ?_⟩
    have text := spelled comment cdata
    rw [rest_skipMany] at text
    exact text

/-- In `[a]~`, the tilde is accounted for, and the name is spelled after its bracket. -/
theorem source_accounted_bracketed :
    let source := ['[', 'a', ']', '~']
    let run := (start (σ := FixedHints) ⟨{}⟩ [] source).drain
    let name : Token := { kind := .identifier, start := ⟨1, 1⟩, stop := ⟨1, 4⟩, text := "a" }
    Accounted run.1.toList run.2.scanner.journal (skipMany 3 (.ofText source))
    ∧ name ∈ run.1
    ∧ ∃ p < source.length, name.start = (skipMany p (.ofText source)).location
      ∧ (name.text.toList <+: source.drop p
        ∨ (name.IsBracketed (skipMany p (.ofText source))
          ∧ '[' :: name.text.toList <+: source.drop p)) := by
  intro source run name
  obtain ⟨characters, tokens⟩ := source_accounted (σ := FixedHints) ⟨{}⟩ [] source
  have produced : name ∈ run.1 := by decide +kernel
  exact ⟨characters 3 (by decide), produced,
    tokens name produced ⟨nofun, nofun⟩ nofun nofun⟩

end TokenStream

end BasicLexis
