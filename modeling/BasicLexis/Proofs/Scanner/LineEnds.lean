import BasicLexis.Proofs.Classifier.ByKind

set_option autoImplicit false

/-! # Line ends in either spelling

A source is lexed twice: once with single line feeds, and once with a carriage return before each of
them. The two runs give tokens of the same kinds at the same locations, and the same trivia. The
same problems are noted, with one exception. A string or a date that goes on past its line is
reported once for each of its line ends, however they are spelled; but an attribute value is read
character by character, and both characters of a pair are reported. So a line end may be reported
again only at a location within a value that has a line feed in it. The value of a string has none
(`hasLineFeed_string`), so this is the value of an attribute.

`line_ends_alike` says so for whatever steers the scanner, as long as it goes by the kinds of the
tokens. The classifier does. -/

namespace BasicLexis

namespace Comparison

/-- Where line ends are spelled differently, all of the trivia are compared. -/
theorem trivia_lineEnds (t : Trivia) : lineEnds.trivia t = t := by
  cases t <;> rfl

end Comparison

/-- Line ends are left out of what an enclosed literal stands for. -/
theorem Enclosure.lineFeed_notMem_content {e : Enclosure} (inline : e.close ≠ '\n')
    (text : List Char) (n : Nat) (l : Location) {content : List Char} (found : List Diagnostic)
    (before : '\n' ∉ content) : '\n' ∉ (e.readFrom text n l content found).content := by
  fun_induction readFrom e text n l content found <;> simp_all [@eq_comm _ '\n']

/-- The value of a string or a character has no line feed in it. -/
theorem Piece.hasLineFeed_string (start r : Reader) :
    ∀ t ∈ (string start r).token, t.value.hasLineFeed = false := by
  have inside : '\n' ∉ (Enclosure.string.read r).content :=
    Enclosure.lineFeed_notMem_content (by decide) _ _ _ _ (List.not_mem_nil)
  intro t made
  unfold string at made
  dsimp only at made
  split at made
  · unfold character at made
    split at made
    all_goals
      cases made
      rfl
  · cases made
    simpa [Numeral.literal, LiteralValue.hasLineFeed] using inside

namespace Reader

/-- The starts of a text and of its other spelling. -/
theorem twin_ofText {text : List Char} (feeds : '\r' ∉ text) :
    Twin .lineEnds (ofText text) (ofText (Text.pairLineEnds text)) :=
  ⟨text, (List.append_nil _).symm, (List.append_nil _).symm, fun _ => feeds, rfl⟩

end Reader

namespace TokenStream

variable {σ : Type} [Steering σ]

/-- **Line ends may be spelled either way.** Let the line feeds of a source be spelled as pairs of a
    carriage return and a line feed. Whatever steers the scanner, as long as it goes by the kinds of
    the tokens, the run to the end marker gives tokens of the same kinds at the same locations, and
    the same trivia. The same problems are noted in the same order, but where an attribute value
    goes on past its line, a line end in it may be reported again for the line feed after its
    carriage return. -/
theorem line_ends_alike {steering : σ} (byKind : Steering.ByKind steering) (tags : List String)
    {source : List Char} (single : '\r' ∉ source) :
    let run := (start steering tags source).drain
    let run' := (start steering tags (Text.pairLineEnds source)).drain
    let place (t : Token) := (t.kind, t.start, t.stop)
    let problem (d : Diagnostic) := (d.location, d.code)
    run'.1.toList.map place = run.1.toList.map place
    ∧ run'.2.scanner.journal.trivia = run.2.scanner.journal.trivia
    ∧ Comparison.Repeated {l | ∃ t ∈ run.1, l ∈ t.feedLocations}
        (run.2.scanner.journal.diagnostics.toList.map problem)
        (run'.2.scanner.journal.diagnostics.toList.map problem) := by
  intro run run' place problem
  let feeds : Set Location := {l | ∃ t ∈ run.1, l ∈ t.feedLocations}
  have said (t : Token) (mem : t ∈ run.1) : t.feedLocations ⊆ feeds :=
    fun l inside => ⟨t, mem, inside⟩
  have starts : Scanner.Abreast .lineEnds feeds _ _ :=
    Scanner.abreast_start byKind tags (Reader.twin_ofText single)
  obtain ⟨tokens, abreast⟩ := drain_of_bisimulation Comparison.kind_of_token
    (fun abreast said => abreast.produce (Nat.zero_le _) said) starts said
  have notes := abreast.notes
  refine ⟨?_, ?_, ?_⟩
  · -- what is compared of a token determines its kind and its locations
    have places := congrArg (List.map place) tokens
    rw [List.map_map, List.map_map] at places
    exact places
  · have trivia := notes.trivias
    simp only [Comparison.trivias, funext Comparison.trivia_lineEnds, List.map_id'] at trivia
    apply Array.toList_inj.1
    rw [Journal.trivia, Journal.trivia, Array.toList_filterMap, Array.toList_filterMap]
    exact trivia
  · have problems := notes.problems.mono fun l (allowed : _ ∧ l ∈ feeds) => allowed.2
    rw [Journal.diagnostics, Journal.diagnostics, Array.toList_filterMap, Array.toList_filterMap]
    exact problems

/-- The line end in the value of `b` is reported again if it is spelled with two characters. -/
theorem line_ends_alike_attribute :
    let source := ['[', 'x', ']', '=', '<', 'a', ' ', 'b', '=', '\x22', '\n', '\x22', '/', '>']
    let run := (start ({} : Classifier) [] source).drain
    let run' := (start ({} : Classifier) [] (Text.pairLineEnds source)).drain
    let place (t : Token) := (t.kind, t.start, t.stop)
    let problem (d : Diagnostic) := (d.location, d.code)
    ('\r' ∉ source ∧ Steering.ByKind ({} : Classifier))
    ∧ run'.1.toList.map place = run.1.toList.map place
    ∧ run.2.scanner.journal.diagnostics.toList.map problem = [(⟨1, 11⟩, .newlineInString)]
    ∧ run'.2.scanner.journal.diagnostics.toList.map problem
      = [(⟨1, 11⟩, .newlineInString), (⟨1, 12⟩, .newlineInString)] := by
  intro source run run' place problem
  have single : '\r' ∉ source := by decide
  have alike := line_ends_alike (Classifier.byKind {}) [] single
  refine ⟨⟨single, Classifier.byKind {}⟩, alike.1, ?_⟩
  decide +kernel

end TokenStream

end BasicLexis
