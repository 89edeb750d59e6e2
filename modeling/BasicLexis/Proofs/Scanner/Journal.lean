import BasicLexis.Proofs.Piece.Entries
import BasicLexis.Proofs.Scanner.Continuation

set_option autoImplicit false

/-! # Where the entries of a journal come from

A scanner enters what its pieces have to note, what the classifier has to log, and the tokens that
the classifier could not place. `Scanner.Accounts` states this of the whole journal, whatever steers
the scanner and however many tokens it has produced. What is known of the entries of single pieces
then holds of all entries, such as that the spans of comments take their text. -/

namespace BasicLexis

open Reader

/-- What steers a scanner can have this to log. -/
def Steering.Says (σ : Type) [Steering σ] (event : LogEvent) : Prop :=
  ∃ (state : σ) (call : Option Token), event ∈ (Steering.inform state call).events

/-- Where an entry comes from: a piece of the source, a token that could not be placed, or what
    steers the scanner. -/
inductive Entry.Explained (σ : Type) [Steering σ] (first : Reader) (e : Entry) : Prop where
  | piece (arises : e.ArisesFrom first)
  | misplaced {error : ClassifierError} (entry : e = .misplaced error)
  | said {event : LogEvent} (told : Steering.Says σ event) (entry : e = .event event)

/-- Only a piece can give such an entry. -/
def Entry.isOfText : Entry → Bool
  | problem _ | trivia _ | tagged _ => true
  | misplaced _ | event _ => false

theorem Entry.Explained.arises {σ : Type} [Steering σ] {first : Reader} {e : Entry}
    (h : e.Explained σ first) (ofText : e.isOfText = true) : e.ArisesFrom first := by
  cases h with
  | piece arises => exact arises
  | misplaced entry =>
    rw [entry] at ofText
    cases ofText
  | said told entry =>
    rw [entry] at ofText
    cases ofText

namespace Journal

variable {journal : Journal}

/-- A view of the journal shows what one sort of entries holds. -/
theorem mem_view {α : Type} {view : Entry → Option α} {entry : α → Entry}
    (shows : ∀ e a, view e = some a ↔ e = entry a) {a : α} :
    a ∈ journal.filterMap view ↔ entry a ∈ journal := by
  simp [Array.mem_filterMap, shows]

theorem mem_diagnostics {d : Diagnostic} : d ∈ journal.diagnostics ↔ .problem d ∈ journal :=
  mem_view fun e _ => by cases e <;> simp [Entry.diagnostic?]

theorem mem_trivia {t : Trivia} : t ∈ journal.trivia ↔ .trivia t ∈ journal :=
  mem_view fun e _ => by cases e <;> simp [Entry.trivia?]

theorem mem_tagComments {t : TagComment} : t ∈ journal.tagComments ↔ .tagged t ∈ journal :=
  mem_view fun e _ => by cases e <;> simp [Entry.tagComment?]

end Journal

namespace Scanner

variable {σ : Type}

/-! ## Reading -/

/-- A part of the source was read: the entries that came to the journal arise from it, and nothing
    that steers the scanner has changed. -/
structure Reads (s s' : Scanner σ) : Prop where
  reaches : s.reader.Reaches s'.reader
  steering : s'.steering = s.steering
  errorsSeen : s'.errorsSeen = s.errorsSeen
  journal : ∃ new : List Entry, s'.journal.toList = s.journal.toList ++ new
    ∧ ∀ e ∈ new, e.ArisesFrom s.reader

namespace Reads

variable {s s' s'' : Scanner σ}

theorem trans (h : Reads s s') (h' : Reads s' s'') : Reads s s'' := by
  obtain ⟨new, journal, arises⟩ := h.journal
  obtain ⟨new', journal', arises'⟩ := h'.journal
  refine ⟨h.reaches.trans h'.reaches, h'.steering.trans h.steering,
    h'.errorsSeen.trans h.errorsSeen, new ++ new', ?_, ?_⟩
  · rw [journal', journal, List.append_assoc]
  · exact List.forall_mem_append.2 ⟨arises, fun e he => (arises' e he).of_reaches h.reaches⟩

theorem accept {piece : Piece} (mode : XmlMode) (reaches : s.reader.Reaches piece.rest)
    (arises : ∀ e ∈ piece.entries, e.ArisesFrom s.reader) : Reads s (s.accept piece mode) :=
  ⟨reaches, rfl, rfl, piece.entries, Array.toList_appendList, arises⟩

end Reads

theorem reads_step {s s' : Scanner σ} {token : Option Token} (h : s.step = (token, s')) :
    Reads s s' := by
  unfold step at h
  split at h
  · next piece trailing =>
    obtain ⟨-, rfl⟩ := Prod.mk.inj h
    have shape : piece.Shape s.freshLine s.reader := XmlMode.shape_of_trailing? trailing
    exact .accept _ shape.reaches (XmlMode.arises_of_trailing? trailing)
  · dsimp only at h
    split at h
    · obtain ⟨-, rfl⟩ := Prod.mk.inj h
      exact ⟨.refl _, rfl, rfl, [], by simp, by simp⟩
    · next c r read =>
      obtain ⟨-, rfl⟩ := Prod.mk.inj h
      exact .accept _ (Piece.shape_next read).reaches (Piece.arises_next read)

theorem reads_lex (s : Scanner σ) : Reads s s.lex.2 := by
  fun_induction Scanner.lex s with
  | case1 s token s' step => exact reads_step step
  | case2 s s' step ih => exact (reads_step step).trans ih

theorem reads_advance (s : Scanner σ) : Reads s s.advance.2 := by
  unfold advance
  split
  · exact ⟨.refl _, rfl, rfl, [], by simp, by simp⟩
  · exact s.reads_lex

/-! ## The journal of a run -/

variable [Steering σ]

/-- What comes to the journal with a token: the events, then the tokens that could not be placed and
    that the journal does not have yet. -/
theorem toList_tell (s : Scanner σ) (t : Token) :
    (s.tell t).journal.toList = s.journal.toList
      ++ ((Steering.inform s.steering (some t)).events
        ++ (Steering.inform (Steering.inform s.steering (some t)).state none).events).map .event
      ++ ((Steering.errors (s.tell t).steering).toList.drop s.errorsSeen).map .misplaced := by
  have suffix (errors : Array ClassifierError) :
      (errors.extract s.errorsSeen).toList = errors.toList.drop s.errorsSeen := by
    rw [Array.toList_extract, List.extract_eq_take_drop]
    exact List.take_of_length_le (by simp)
  simp only [tell, noteMisplaced, Array.toList_append, Array.appendList_eq_append,
    Array.toList_appendList, Array.toList_map, suffix]

/-- The scanner reads on from a place, and every entry of its journal is explained. -/
structure Accounts (first : Reader) (s : Scanner σ) : Prop where
  reaches : first.Reaches s.reader
  entries : ∀ e ∈ s.journal.toList, e.Explained σ first

namespace Accounts

variable {first : Reader} {s s' : Scanner σ}

theorem reads (h : Accounts first s) (reads : Reads s s') : Accounts first s' := by
  obtain ⟨new, journal, arises⟩ := reads.journal
  refine ⟨h.reaches.trans reads.reaches, ?_⟩
  rw [journal]
  exact List.forall_mem_append.2
    ⟨h.entries, fun e he => .piece ((arises e he).of_reaches h.reaches)⟩

theorem tell (h : Accounts first s) (t : Token) : Accounts first (s.tell t) := by
  refine ⟨h.reaches, ?_⟩
  rw [toList_tell]
  refine List.forall_mem_append.2 ⟨List.forall_mem_append.2 ⟨h.entries, ?_⟩, ?_⟩
  · intro e he
    obtain ⟨event, told, rfl⟩ := List.mem_map.1 he
    rcases List.mem_append.1 told with taken | asked
    · exact .said ⟨_, _, taken⟩ rfl
    · exact .said ⟨_, _, asked⟩ rfl
  · intro e he
    obtain ⟨error, -, rfl⟩ := List.mem_map.1 he
    exact .misplaced rfl

theorem produce (h : Accounts first s) : Accounts first s.produce.2 := by
  unfold Scanner.produce
  split
  · exact h
  · exact (h.reads s.reads_advance).tell _

end Accounts

theorem accounts_start (steering : σ) (tags : List String) (source : List Char) :
    Accounts (.ofText source) (Scanner.start steering tags source) := by
  refine ⟨.refl _, fun e he => ?_⟩
  obtain ⟨event, told, rfl⟩ := List.mem_map.1 he
  exact .said ⟨_, _, told⟩ rfl

theorem accounts_after (steering : σ) (tags : List String) (source : List Char) (n : Nat) :
    Accounts (.ofText source) ((Scanner.start steering tags source).after n) := by
  induction n with
  | zero => exact accounts_start steering tags source
  | succ n ih => exact ih.produce

end Scanner

/-! ## Whole runs -/

namespace TokenStream

variable {σ : Type} [Steering σ]

theorem exists_after_drainAfter {s : TokenStream σ} (ahead : s.ahead = none) (taken : Array Token) :
    ∃ n, (s.drainAfter taken).2.scanner = s.scanner.after n := by
  induction taken, s using drainAfter.induct with
  | case1 taken s token s' next eof =>
    rw [next_of_ahead ahead] at next
    cases next
    rw [drainAfter_of_ahead ahead, if_pos eof]
    exact ⟨1, rfl⟩
  | case2 taken s token s' next inner ih =>
    rw [next_of_ahead ahead] at next
    cases next
    rw [drainAfter_of_ahead ahead, if_neg inner]
    obtain ⟨n, same⟩ := ih rfl
    exact ⟨n + 1, same.trans (Scanner.produce_after _ n)⟩

/-- After a run to the end marker, the scanner has produced some number of tokens. -/
theorem exists_after_drain (steering : σ) (tags : List String) (source : List Char) :
    ∃ n, (start steering tags source).drain.2.scanner
      = (Scanner.start steering tags source).after n :=
  exists_after_drainAfter (s := start steering tags source) rfl #[]

/-- **Comments and tag comments take the text that they are recorded with, directives its length.**
    Whatever steers the scanner, after a run to the end marker the span of a comment that is
    introduced by quotes takes these quotes and its text, and the span of a tag comment takes the tag
    and the text after it. The span of a directive starts at its number sign and is as long as name
    and argument together. It ends with the directive exactly if no whitespace stands between the
    number sign, the name and the argument. -/
theorem spans_recorded (steering : σ) (tags : List String) (source : List Char) :
    let journal : Journal := (start steering tags source).drain.2.scanner.journal
    (∀ c : Comment, Trivia.comment c ∈ journal.trivia → c.SpansText (Reader.ofText source))
      ∧ (∀ t ∈ journal.tagComments, TagComment.SpansText t (Reader.ofText source))
      ∧ ∀ d : Directive, Trivia.directive d ∈ journal.trivia →
          d.SpansLength (Reader.ofText source) := by
  intro journal
  obtain ⟨n, run⟩ := exists_after_drain steering tags source
  have accounts := Scanner.accounts_after steering tags source n
  rw [← run] at accounts
  have arises {e : Entry} (he : e ∈ journal) := (accounts.entries e (Array.mem_toList_iff.2 he)).arises
  refine ⟨fun c recorded => ?_, fun t recorded => ?_, fun d recorded => ?_⟩
  · cases arises (Journal.mem_trivia.1 recorded) rfl with
    | comment spans => exact spans
  · cases arises (Journal.mem_tagComments.1 recorded) rfl with
    | tagged spans => exact spans
  · cases arises (Journal.mem_trivia.1 recorded) rfl with
    | directive spans => exact spans

/-- In a source of a documentation comment with a tag and the directive `#a b`, the directive is
    recorded with a span that ends before its argument. -/
theorem spans_recorded_blank :
    let source := ['\x27', '\x27', '\x27', 'A', ' ', 'b', '\n', '#', 'a', ' ', 'b']
    let journal := (start (σ := FixedHints) ⟨{}⟩ ["A"] source).drain.2.scanner.journal
    let c : Comment := ⟨.documentation, "A b", true, ⟨⟨1, 1⟩, ⟨1, 7⟩⟩⟩
    let t : TagComment := ⟨"A", " b", true, ⟨⟨1, 4⟩, ⟨1, 7⟩⟩⟩
    let d : Directive := ⟨"#a", "b", ⟨⟨2, 1⟩, ⟨2, 4⟩⟩⟩
    (.comment c ∈ journal.trivia ∧ t ∈ journal.tagComments ∧ .directive d ∈ journal.trivia)
      ∧ c.SpansText (.ofText source) ∧ t.SpansText (.ofText source)
      ∧ d.SpansLength (.ofText source) ∧ d.span.Covers (.ofText source) ['#', 'a', ' '] := by
  intro source journal c t d
  obtain ⟨comments, tagComments, directives⟩ := spans_recorded (σ := FixedHints) ⟨{}⟩ ["A"] source
  obtain ⟨comment, tagComment, directive⟩ : .comment c ∈ journal.trivia ∧ t ∈ journal.tagComments
      ∧ .directive d ∈ journal.trivia := by
    decide +kernel
  refine ⟨⟨comment, tagComment, directive⟩, comments c comment, tagComments t tagComment,
    directives d directive, ?_⟩
  exact .stretch (reaches_skipMany 7 (.ofText source)) (reaches_skipMany 3 _) (by decide) (by decide)

end TokenStream

end BasicLexis
