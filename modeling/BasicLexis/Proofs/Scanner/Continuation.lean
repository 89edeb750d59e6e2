import BasicLexis.Proofs.Classifier.ByKind
import BasicLexis.Proofs.Scanner.Steered

set_option autoImplicit false

/-! # Continued lines

Where a blank between tokens is skipped, the line may be continued on a further one: an underscore
and a line feed after the blank change nothing but locations.

Up to the blank the two sources are the same, but what is read before it may look at what comes
after it; so the two runs are compared by way of `Comparison.continued`. At the blank the one run
makes a single silent step and the other one two, after which the same text is ahead of both. From
then on the runs are compared by way of `Comparison.moved`. -/

namespace BasicLexis

/-- A piece of trivia without its place. -/
def Trivia.unplaced : Trivia → Trivia
  | .comment c => .comment { c with span := ⟨.start, .start⟩ }
  | .directive d => .directive { d with span := ⟨.start, .start⟩ }
  | .blankLine _ => .blankLine .start

/-- Where a line was continued, the same is compared as where the texts were only moved. -/
theorem Comparison.Notes.moved {later : List Char} {feeds : Set Location} {entries entries' : List Entry}
    (h : (Comparison.continued later).Notes feeds entries entries') :
    Comparison.moved.Notes feeds entries entries' := ⟨h.problems, h.trivias⟩

open Reader

namespace Piece

theorem next_of_blank (s : Setting) {m : XmlMode} (outside : m.active = false) {r : Reader}
    (ahead : r.peek = some ' ') : next s m ' ' r r.skip = ({ rest := r.skip }, m) := by
  simp [next, outside, Numeral.startsAt, ahead, Text.isDigit, standard, plain, Text.isBlank, blank,
    finishLineEnd?]

/-- An underscore before a line feed continues the line. -/
theorem next_of_underscore (s : Setting) {m : XmlMode} (outside : m.active = false) {r : Reader}
    (ahead : r.peek = some '_') (feed : r.skip.peek = some '\n') :
    next s m '_' r r.skip = ({ rest := r.skip.skip }, m) := by
  have stays : r.skip.skipWhile Text.isInlineBlank = r.skip :=
    skipWhile_of_false (by rw [peekIs, feed]; rfl)
  have lineEnd : r.skip.skipLineEnd = r.skip.skip := by
    rw [skipLineEnd, read?, rest_of_peek feed, skip_of_cons (rest_of_peek feed)]
    rfl
  have continues : continuation r.skip = { rest := r.skip.skip } := by
    simp only [continuation, stays, feed, lineEnd]
    rfl
  simp [next, outside, Numeral.startsAt, ahead, Text.isDigit, standard, plain, Text.isBlank,
    underscore, peekIs, feed, continues]

end Piece

namespace Scanner

variable {σ : Type}

/-! ## Blanks that are skipped -/

/-- The scanner stands at a blank outside of literals, and `later` is the text after the blank. -/
structure AtBlank (later : List Char) (s : Scanner σ) : Prop where
  rest : s.reader.rest = ' ' :: later
  noTrailing : s.mode.trailing? s.reader = none
  outside : s.mode.leave.active = false

/-- Before its next token, the scanner skips a blank outside of literals, and `later` is the text
    after the blank. -/
structure SkipsBlank (later : List Char) (s : Scanner σ) : Prop where
  running : s.ended = none
  idle : s.queue = []
  blank : ∃ place, Skips s place ∧ AtBlank later place

/-- Outside of literals, a piece without a token or entries leads from one place to another. -/
theorem step_of_silent {s : Scanner σ} (noTrailing : s.mode.trailing? s.reader = none) {c : Char}
    (ahead : s.reader.peek = some c) {rest : Reader}
    (next : Piece.next s.setting s.mode.leave c s.reader s.reader.skip = ({ rest }, s.mode.leave)) :
    s.step = (none, s.accept { rest } s.mode.leave) := by
  rw [step_of_leave noTrailing, ahead]
  dsimp only
  rw [next]

theorem AtBlank.step {later : List Char} {s : Scanner σ} (h : AtBlank later s) :
    s.step = (none, s.accept { rest := s.reader.skip } s.mode.leave) := by
  have ahead : s.reader.peek = some ' ' := by rw [peek, h.rest]; rfl
  exact step_of_silent h.noTrailing ahead (Piece.next_of_blank _ h.outside ahead)

/-- Outside of literals, an underscore and a line feed are skipped in one step. -/
theorem step_of_underscore {later : List Char} {s : Scanner σ} (outside : s.mode.active = false)
    (rest : s.reader.rest = '_' :: '\n' :: later) :
    s.step = (none, s.accept { rest := s.reader.skip.skip } s.mode) := by
  have ahead : s.reader.peek = some '_' := by rw [peek, rest]; rfl
  have feed : s.reader.skip.peek = some '\n' := by rw [peek, rest_skip, rest]; rfl
  have noTrailing : s.mode.trailing? s.reader = none := by
    simp [XmlMode.trailing?, XmlMode.isComplete, outside]
  have stays := XmlMode.leave_of_inactive outside
  have silent := step_of_silent noTrailing ahead (by
    rw [stays]
    exact Piece.next_of_underscore _ outside ahead feed)
  rw [stays] at silent
  exact silent

variable [Steering σ]

/-! ## Runs -/

theorem produce_after (s : Scanner σ) (n : Nat) : s.produce.2.after n = s.after (n + 1) := by
  induction n with
  | zero => rfl
  | succ n ih => exact congrArg (fun s => s.produce.2) ih

theorem reaches_produce (s : Scanner σ) : s.reader.Reaches s.produce.2.reader := by
  unfold produce advance
  cases s.ended with
  | some => exact .refl _
  | none =>
    cases s.queue with
    | nil => exact s.reaches_lex
    | cons => exact .refl _

theorem reaches_after (s : Scanner σ) (n : Nat) : s.reader.Reaches (s.after n).reader := by
  induction n with
  | zero => exact .refl _
  | succ n ih => exact ih.trans (s.after n).reaches_produce

namespace Abreast

variable {feeds : Set Location} {later : List Char} {s s' : Scanner σ}

/-- At the blank, the second scanner stands at a blank as well. -/
theorem atBlank (h : Abreast (.continued later) feeds s s') (blank : AtBlank later s) :
    AtBlank ('_' :: '\n' :: later) s' := by
  obtain ⟨text, before⟩ := h.reader
  have front : text = [] := by
    have rest := before.rest
    rw [blank.rest] at rest
    exact List.self_eq_append_left.1 rest
  have literal := XmlMode.matches_trailing? s.mode h.reader fun p trailing => by
    rw [blank.noTrailing] at trailing
    cases trailing
  rw [blank.noTrailing] at literal
  refine ⟨?_, ?_, ?_⟩
  · rw [before.rest', front]
    rfl
  · rw [h.mode]
    cases trailing : s.mode.trailing? s'.reader with
    | none => rfl
    | some p => rw [trailing] at literal; cases literal
  · rw [h.mode]
    exact blank.outside

/-- After the blank, the second scanner skips the underscore and the line feed as well. -/
theorem joins (h : Abreast (.continued later) feeds s s') (blank : AtBlank later s) :
    ∃ t, Skips s' t ∧ Abreast .moved feeds s.step.2 t := by
  have blank' := h.atBlank blank
  have first := blank'.step
  have rest : s'.reader.skip.rest = '_' :: '\n' :: later := by
    rw [rest_skip, blank'.rest]
    rfl
  have second := step_of_underscore
    (s := s'.accept { rest := s'.reader.skip } s'.mode.leave) blank'.outside rest
  refine ⟨_, .head first (.single second), ?_⟩
  rw [blank.step]
  have twin : Twin .moved s.reader.skip s'.reader.skip.skip.skip := by
    refine ⟨later, ?_, ?_, ?_, rfl⟩
    · rw [rest_skip, blank.rest]
      exact (List.append_nil _).symm
    · rw [rest_skip, rest_skip, rest]
      exact (List.append_nil _).symm
    · intro pairs
      cases pairs
  refine ⟨twin, h.steering, congrArg XmlMode.leave h.mode, h.proper.leave, h.hints, h.freshLine, ?_,
    h.last, h.ended, h.tags, ?_⟩
  · have queue : s'.queue.map Comparison.moved.token = s.queue.map Comparison.moved.token := h.queue
    simpa [Scanner.accept] using queue
  · have notes := h.notes.moved
    simpa [Scanner.accept] using notes

/-- The token after the blank. -/
theorem produce_of_skipsBlank (h : Abreast (.continued later) Set.univ s s')
    (blank : SkipsBlank later s) :
    Comparison.moved.token s'.produce.1 = Comparison.moved.token s.produce.1
      ∧ Abreast .moved Set.univ s.produce.2 s'.produce.2 := by
  obtain ⟨place, skips, atBlank⟩ := blank.blank
  have within : Compared (.continued later) place.reader :=
    Nat.le_of_eq (congrArg List.length atBlank.rest.symm)
  obtain ⟨place', skips', abreast⟩ := h.skips skips within
  obtain ⟨t, joining, joined⟩ := abreast.joins atBlank
  have lexed := joined.lex (Nat.zero_le _) (Set.subset_univ _)
  have first : s.lex = place.step.2.lex := by
    rw [skips.lex_eq, lex_of_silent atBlank.step, atBlank.step]
  have second : s'.lex = t.lex := by rw [skips'.lex_eq, joining.lex_eq]
  have running' : s'.ended = none := by
    have ended := h.ended
    rwa [blank.running, Option.map_none, Option.map_eq_none_iff] at ended
  have idle' : s'.queue = [] := by
    have queue := h.queue
    rwa [blank.idle, List.map_nil, List.map_eq_nil_iff] at queue
  rw [produce_eq_of_nil blank.running blank.idle, produce_eq_of_nil running' idle', first, second]
  exact ⟨lexed.1, lexed.2.tell lexed.1⟩

end Abreast

/-- The two scanners stand at the same places, before the blank or behind it. -/
inductive Aligned (later : List Char) (s s' : Scanner σ) : Prop
  | before (n : Nat) (abreast : Abreast (.continued later) Set.univ s s')
      (blank : SkipsBlank later (s.after n))
  | behind (abreast : Abreast .moved Set.univ s s')

namespace Aligned

variable {later : List Char} {s s' : Scanner σ}

theorem produce (h : Aligned later s s') :
    Comparison.moved.token s'.produce.1 = Comparison.moved.token s.produce.1
      ∧ Aligned later s.produce.2 s'.produce.2 := by
  cases h with
  | behind abreast =>
    obtain ⟨token, next⟩ := abreast.produce (Nat.zero_le _) (Set.subset_univ _)
    exact ⟨token, .behind next⟩
  | before n abreast blank =>
    cases n with
    | zero =>
      obtain ⟨token, next⟩ := abreast.produce_of_skipsBlank blank
      exact ⟨token, .behind next⟩
    | succ n =>
      rw [← produce_after] at blank
      obtain ⟨place, skips, atBlank⟩ := blank.blank
      have within : Compared (.continued later) place.reader :=
        Nat.le_of_eq (congrArg List.length atBlank.rest.symm)
      have reaches := (s.produce.2.reaches_after n).trans skips.reaches
      obtain ⟨token, next⟩ := abreast.produce (within.of_reaches reaches) (Set.subset_univ _)
      exact ⟨token, .before n next blank⟩

/-- Whatever was noted is the same but for locations. -/
theorem notes (h : Aligned later s s') :
    Comparison.moved.Notes Set.univ s.journal.toList s'.journal.toList := by
  cases h with
  | before _ abreast => exact abreast.notes.moved
  | behind abreast => exact abreast.notes

end Aligned

end Scanner

namespace TokenStream

/-- **A line may be continued wherever a blank is skipped.** Let the classifier steer the scanner,
    and let it skip a blank outside of literals. With an underscore and a line feed after that
    blank, the run to the end marker gives the same tokens but for their locations; problems with
    the same codes are noted in the same order, and the same trivia but for their locations. -/
theorem continued_alike (tags : List String) (front later : List Char)
    (skipped : ∃ n,
      ((Scanner.start ({} : Classifier) tags (front ++ ' ' :: later)).after n).SkipsBlank later) :
    let run := (start ({} : Classifier) tags (front ++ ' ' :: later)).drain
    let run' := (start ({} : Classifier) tags (front ++ ' ' :: '_' :: '\n' :: later)).drain
    run'.1.toList.map Token.lexeme = run.1.toList.map Token.lexeme
    ∧ run'.2.scanner.journal.diagnostics.toList.map Diagnostic.code
      = run.2.scanner.journal.diagnostics.toList.map Diagnostic.code
    ∧ run'.2.scanner.journal.trivia.toList.map Trivia.unplaced
      = run.2.scanner.journal.trivia.toList.map Trivia.unplaced := by
  intro run run'
  obtain ⟨n, blank⟩ := skipped
  have twin : Twin (.continued later) (ofText (front ++ ' ' :: later))
      (ofText (front ++ ' ' :: '_' :: '\n' :: later)) := ⟨front, rfl, rfl, nofun, rfl⟩
  have starts := Scanner.Aligned.before n
    (Scanner.abreast_start (Classifier.byKind {}) tags twin) blank
  obtain ⟨tokens, aligned⟩ := drain_of_bisimulation Comparison.kind_of_token
    (fun aligned _ => aligned.produce) starts fun _ _ => trivial
  have notes := aligned.notes
  refine ⟨?_, ?_, ?_⟩
  · -- all but the location of a token is compared
    have lexemes := congrArg (List.map Token.lexeme) tokens
    rw [List.map_map, List.map_map] at lexemes
    exact lexemes
  · have problems := congrArg (List.map Prod.snd) (notes.problems_eq rfl)
    rw [Comparison.problems, Comparison.problems, List.map_map, List.map_map] at problems
    rw [Journal.diagnostics, Journal.diagnostics, Array.toList_filterMap, Array.toList_filterMap]
    exact problems
  · have trivia := notes.trivias
    have unplaced : Comparison.moved.trivia = Trivia.unplaced := by
      funext t
      cases t <;> rfl
    rw [Comparison.trivias, Comparison.trivias, unplaced] at trivia
    rw [Journal.trivia, Journal.trivia, Array.toList_filterMap, Array.toList_filterMap]
    exact trivia

/-- In `[x] =1`, the line may be continued before the equals sign. -/
theorem continued_alike_assignment :
    let source := ['[', 'x', ']', ' ', '=', '1']
    let continued := ['[', 'x', ']', ' ', '_', '\n', '=', '1']
    (∃ n, ((Scanner.start ({} : Classifier) [] source).after n).SkipsBlank ['=', '1'])
    ∧ (start ({} : Classifier) [] continued).drain.1.toList.map Token.lexeme
      = (start ({} : Classifier) [] source).drain.1.toList.map Token.lexeme := by
  intro source continued
  have skipped : ∃ n, ((Scanner.start ({} : Classifier) [] source).after n).SkipsBlank ['=', '1'] :=
    ⟨1, by decide +kernel, by decide +kernel, _, .refl, by decide +kernel, by decide +kernel,
      by decide +kernel⟩
  exact ⟨skipped, (continued_alike [] ['[', 'x', ']'] ['=', '1'] skipped).1⟩

end TokenStream

end BasicLexis
