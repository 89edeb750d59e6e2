import BasicLexis.Proofs.Markup.Twin
import BasicLexis.Proofs.Scanner.Parts
import BasicLexis.Proofs.Scanner.Turns
import Mathlib.Logic.Relation

set_option autoImplicit false

/-! # Scanners at twins

Two scanners stand at twins, and are the same as far as they are compared. One step of the first is
matched by one step of the second, or by two of them where a line end stands between the parts of a
tag; so the two produce the same tokens one after the other, and note the same.

What steers the scanners need not be in the same state. It is enough that the two states give the
same hints from now on, whenever they are told tokens of the same kinds. -/

namespace BasicLexis

open Reader

/-! ## Hints that depend on kinds -/

namespace Steering

variable {σ : Type} [Steering σ]

/-- The hints that are given as tokens are told, or asked for hints, one after the other. -/
def answers (steering : σ) : List (Option Token) → List Hints
  | [] => []
  | call :: calls => (inform steering call).hints :: answers (inform steering call).state calls

/-- The two give the same hints when they are told tokens of the same kinds. -/
def Alike (a b : σ) : Prop :=
  ∀ calls calls' : List (Option Token),
    calls'.map (Option.map Token.kind) = calls.map (Option.map Token.kind) →
    answers b calls' = answers a calls

/-- The hints that are given depend only on the kinds of the tokens. -/
def ByKind (steering : σ) : Prop := Alike steering steering

theorem Alike.inform {a b : σ} (h : Alike a b) {t t' : Option Token}
    (kind : t'.map Token.kind = t.map Token.kind) :
    (inform b t').hints = (inform a t).hints
      ∧ Alike (inform a t).state (inform b t').state := by
  have now := h [t] [t'] (by simp [kind])
  refine ⟨(List.cons.inj now).1, fun calls calls' kinds => ?_⟩
  have later := h (t :: calls) (t' :: calls') (by simp [kind, kinds])
  exact (List.cons.inj later).2

/-- A relation that is kept when both are told tokens of the same kinds, and that answers alike. -/
theorem alike_of_bisimulation {R : σ → σ → Prop}
    (step : ∀ {a b : σ} {t t' : Option Token}, R a b → t'.map Token.kind = t.map Token.kind →
      (Steering.inform b t').hints = (Steering.inform a t).hints
        ∧ R (Steering.inform a t).state (Steering.inform b t').state)
    {a b : σ} (h : R a b) : Alike a b := by
  intro calls
  induction calls generalizing a b with
  | nil =>
    intro calls' kinds
    cases calls' with
    | nil => rfl
    | cons => cases kinds
  | cons t calls ih =>
    intro calls' kinds
    cases calls' with
    | nil => cases kinds
    | cons t' calls' =>
      obtain ⟨kind, rest⟩ := List.cons.inj kinds
      obtain ⟨hints, next⟩ := step h kind
      rw [answers, answers, hints, ih next calls' rest]

end Steering

/-! ## Modes -/

theorem Piece.proper_read {m : XmlMode} (c : Char) (start r : Reader) :
    (m.read c start r).2.Proper := by
  unfold XmlMode.read
  split
  · exact fun _ => List.cons_ne_nil _ _
  · exact fun active => by cases active

theorem Piece.proper_next {m : XmlMode} (h : m.Proper) (s : Setting) (c : Char) (start r : Reader) :
    (Piece.next s m c start r).2.Proper := by
  unfold Piece.next Piece.standard
  split
  · exact proper_read c start r
  split
  · exact h
  split
  · intro active
    simpa [XmlMode.resume] using active
  split
  · split
    · exact fun _ => List.cons_ne_nil _ _
    · exact h
  · exact h

theorem XmlMode.Proper.leave {m : XmlMode} (h : m.Proper) : m.leave.Proper := by
  unfold XmlMode.leave
  split
  · exact fun active => by cases active
  · exact h

/-! ## Steps -/

namespace Scanner

section Steps

variable {σ : Type}

/-- The scanner reads pieces without tokens from the first state to the second. -/
abbrev Skips : Scanner σ → Scanner σ → Prop :=
  Relation.ReflTransGen fun s s' => s.step = (none, s')

theorem Skips.lex_eq {s s' : Scanner σ} (h : Skips s s') : s.lex = s'.lex := by
  induction h with
  | refl => rfl
  | tail _ silent ih => rw [ih, lex_of_silent silent]

/-- A step that does not belong to a literal before it. -/
theorem step_of_leave {s : Scanner σ} (leaves : s.mode.trailing? s.reader = none) :
    s.step = match s.reader.peek with
      | none =>
        (some s.endToken, { s with mode := s.mode.leave, freshLine := s.endToken.kind == .eol })
      | some c =>
        let next := Piece.next s.setting s.mode.leave c s.reader s.reader.skip
        (next.1.token, s.accept next.1 next.2) := by
  unfold step
  rw [leaves]
  dsimp only
  cases ahead : s.reader.peek with
  | none =>
    have done : s.reader.read? = none := by rw [read?, List.head?_eq_none_iff.1 ahead]
    rw [done]
  | some c =>
    rw [read?_of_peek ahead]

theorem step_of_trailing {s : Scanner σ} {p : Piece}
    (trailing : s.mode.trailing? s.reader = some p) :
    s.step = (p.token, s.accept p s.mode) := by
  unfold step
  rw [trailing]

/-- Whitespace between the parts of a tag is skipped. -/
theorem step_of_withinTag {s : Scanner σ} (tag : s.mode.WithinTag) {c : Char}
    (ahead : s.reader.peek = some c) (blank : Text.isMarkupBlank c = true) :
    s.step = (none, s.accept { rest := s.reader.skip } s.mode) := by
  rw [step_of_leave (tag.trailing? _), ahead]
  dsimp only
  rw [tag.leave, tag.next _ blank]

end Steps

variable {σ : Type} [Steering σ] {K : Comparison} {feeds : Set Location}

/-- The two scanners are the same as far as they are compared. `feeds` has the locations of the
    values that were read with a line feed in them. -/
structure Abreast (K : Comparison) (feeds : Set Location) (s s' : Scanner σ) : Prop where
  reader : Twin K s.reader s'.reader
  steering : Steering.Alike s.steering s'.steering
  mode : s'.mode = s.mode
  proper : s.mode.Proper
  hints : s'.hints = s.hints
  freshLine : s'.freshLine = s.freshLine
  queue : s'.queue.map K.token = s.queue.map K.token
  last : s'.last = s.last
  ended : s'.ended.map K.place = s.ended.map K.place
  tags : s'.tags = s.tags
  notes : K.Notes feeds s.journal.toList s'.journal.toList

namespace Abreast

variable {s s' : Scanner σ}

theorem setting (h : Abreast K feeds s s') : s'.setting = s.setting := by
  simp only [Scanner.setting, h.hints, h.freshLine, h.tags]

theorem accept (h : Abreast K feeds s s') {n n' : Piece × XmlMode} (same : Piece.SameNext K n n')
    (proper : n.2.Proper) (said : ∀ t ∈ n.1.token, t.feedLocations ⊆ feeds) :
    Abreast K feeds (s.accept n.1 n.2) (s'.accept n'.1 n'.2) := by
  refine ⟨same.piece.rest, h.steering, same.mode, proper, h.hints, ?_, ?_, h.last, h.ended,
    h.tags, ?_⟩
  · have token := same.piece.token
    simp only [Scanner.accept]
    cases first : n.1.token with
    | none =>
      rw [first, Option.map_none, Option.map_eq_none_iff] at token
      rw [token]
      exact h.freshLine
    | some t =>
      rw [first, Option.map_some] at token
      obtain ⟨t', second, view⟩ := Option.map_eq_some_iff.1 token
      rw [second]
      dsimp only
      rw [Comparison.kind_of_token view]
  · have queued : n'.1.queued.toList.map K.token = n.1.queued.toList.map K.token := by
      rw [← Option.toList_map, ← Option.toList_map, same.piece.queued]
    simp only [Scanner.accept, List.map_append, h.queue, queued]
  · simp only [Scanner.accept, Array.appendList_eq_append, Array.toList_appendList]
    refine h.notes.append (same.piece.entries.mono ?_)
    rintro l ⟨t, made, inside⟩
    exact said t made inside

/-- At the end of both texts. -/
theorem endToken (h : Abreast K feeds s s') : K.token s'.endToken = K.token s.endToken := by
  unfold Scanner.endToken
  rw [h.last]
  split <;> simp [Token.endMarker, Token.lineEnd, Comparison.token, h.reader.place]

end Abreast

/-- A line end between the parts of a tag, whose two characters the second scanner skips one by
    one. -/
theorem Abreast.step_within_tag {s s' : Scanner σ} (h : Abreast K feeds s s')
    (tag : s.mode.WithinTag) (ahead : s.reader.peek = some '\n')
    (ahead' : s'.reader.peek = some '\r') (feed : s'.reader.skip.peek = some '\n')
    (next : Twin K s.reader.skip s'.reader.skip.skip) :
    ∃ t, Skips s' t ∧ t.step.1.map K.token = s.step.1.map K.token
      ∧ Abreast K feeds s.step.2 t.step.2 := by
  have tag' : s'.mode.WithinTag := by rw [h.mode]; exact tag
  have half : s'.step = (none, s'.accept { rest := s'.reader.skip } s'.mode) :=
    step_of_withinTag tag' ahead' rfl
  have whole : (s'.accept { rest := s'.reader.skip } s'.mode).step
      = (none, (s'.accept { rest := s'.reader.skip } s'.mode).accept
          { rest := s'.reader.skip.skip } s'.mode) :=
    step_of_withinTag (s := s'.accept { rest := s'.reader.skip } s'.mode) tag' feed rfl
  have once : s.step = (none, s.accept { rest := s.reader.skip } s.mode) :=
    step_of_withinTag tag ahead rfl
  refine ⟨_, .single half, ?_, ?_⟩
  · rw [whole, once]
  · rw [whole, once]
    refine ⟨next, h.steering, h.mode, h.proper, h.hints, h.freshLine, ?_, h.last, h.ended, h.tags,
      ?_⟩
    · simpa [Scanner.accept] using h.queue
    · simpa [Scanner.accept] using h.notes

/-- Steps in which the two scanners read pieces that match. -/
theorem Abreast.step_of_sameNext {s s' : Scanner σ} (h : Abreast K feeds s s')
    {n n' : Piece × XmlMode} (same : Piece.SameNext K n n') (proper : n.2.Proper)
    (first : s.step = (n.1.token, s.accept n.1 n.2))
    (second : s'.step = (n'.1.token, s'.accept n'.1 n'.2))
    (said : ∀ t ∈ s.step.1, t.feedLocations ⊆ feeds) :
    s'.step.1.map K.token = s.step.1.map K.token ∧ Abreast K feeds s.step.2 s'.step.2 := by
  rw [first] at said
  rw [first, second]
  exact ⟨same.piece.token, h.accept same proper said⟩

/-- The second scanner makes the step of the first one, if need be after a silent step. -/
theorem Abreast.step {s s' : Scanner σ} (h : Abreast K feeds s s')
    (within : Compared K s.step.2.reader)
    (said : ∀ t ∈ s.step.1, t.feedLocations ⊆ feeds) :
    ∃ t, Skips s' t ∧ t.step.1.map K.token = s.step.1.map K.token
      ∧ Abreast K feeds s.step.2 t.step.2 := by
  have literal := XmlMode.matches_trailing? s.mode h.reader fun p trailing => by
    rw [step_of_trailing trailing] at within
    exact within
  cases trailing : s.mode.trailing? s.reader with
  | some p =>
    rw [trailing] at literal
    cases trailing' : s.mode.trailing? s'.reader with
    | none => rw [trailing'] at literal; cases literal
    | some p' =>
      rw [trailing'] at literal
      rw [← h.mode] at trailing'
      cases literal with
      | some same =>
        have next : Piece.SameNext K (p, s.mode) (p', s'.mode) := ⟨same, h.mode⟩
        exact ⟨s', .refl, h.step_of_sameNext next h.proper (step_of_trailing trailing)
          (step_of_trailing trailing') said⟩
  | none =>
    rw [trailing] at literal
    cases trailing' : s.mode.trailing? s'.reader with
    | some p' => rw [trailing'] at literal; cases literal
    | none =>
      rw [← h.mode] at trailing'
      have first := step_of_leave trailing
      have second := step_of_leave trailing'
      rw [h.mode, h.setting] at second
      have proper : s.mode.leave.Proper := h.proper.leave
      cases h.reader.ahead with
      | done ahead ahead' =>
        rw [ahead] at first
        rw [ahead'] at second
        refine ⟨s', .refl, ?_, ?_⟩
        · rw [first, second]
          exact congrArg some h.endToken
        · rw [first, second]
          refine ⟨h.reader, h.steering, rfl, proper, h.hints, ?_, h.queue, h.last, h.ended, h.tags,
            h.notes⟩
          rw [Comparison.kind_of_token h.endToken]
      | char c ahead ahead' inline next =>
        rw [ahead] at first
        rw [ahead'] at second
        rw [first] at within
        have same := Piece.sameNext_next s.setting s.mode.leave ahead inline h.reader next within
        exact ⟨s', .refl, h.step_of_sameNext same (Piece.proper_next proper _ _ _ _) first second
          said⟩
      | feed pairs ahead ahead' feed next =>
        rw [ahead] at first
        rw [ahead'] at second
        by_cases tag : s.mode.leave.WithinTag
        · have inside : s.mode.WithinTag := by
            obtain ⟨frame, outer, mode, open_⟩ := tag
            have active : s.mode.leave.active = true := by rw [mode]
            exact ⟨frame, outer, by rw [← (XmlMode.leave_of_active active).1, mode], open_⟩
          exact h.step_within_tag inside ahead ahead' feed next
        · rw [first] at within
          have same := XmlMode.sameNext_next_feed s.setting proper tag pairs ahead ahead' feed
            h.reader next within
          exact ⟨s', .refl, h.step_of_sameNext same (Piece.proper_next proper _ _ _ _) first second
            said⟩

/-! ## Tokens -/

section Reach

omit [Steering σ]

theorem reaches_step (s : Scanner σ) : s.reader.Reaches s.step.2.reader := by
  cases stepped : s.step with
  | mk token s' =>
    rcases step_cases stepped with ⟨part, mode, place, -, rfl⟩ | ⟨-, -, mode, fresh, rfl⟩
    · rw [← place]
      exact part.reaches
    · exact .refl _

theorem Skips.reaches {s s' : Scanner σ} (h : Skips s s') : s.reader.Reaches s'.reader := by
  induction h with
  | refl => exact .refl _
  | @tail a b _ silent ih =>
    have reaches := a.reaches_step
    rw [silent] at reaches
    exact ih.trans reaches

/-- Before a token, a scanner skips pieces without one. -/
theorem exists_skips_lex (s : Scanner σ) :
    ∃ place, Skips s place ∧ place.step = (some s.lex.1, s.lex.2) := by
  fun_induction lex s with
  | case1 s token s' step => exact ⟨s, .refl, step⟩
  | case2 s s' step ih =>
    obtain ⟨place, skips, found⟩ := ih
    exact ⟨place, .head step skips, found⟩

theorem reaches_lex (s : Scanner σ) : s.reader.Reaches s.lex.2.reader := by
  obtain ⟨place, skips, found⟩ := s.exists_skips_lex
  have reaches := place.reaches_step
  rw [found] at reaches
  exact skips.reaches.trans reaches

end Reach

/-- Entries that neither are problems nor trivia. -/
def Aside (entries : List Entry) : Prop := ∀ e ∈ entries, e.diagnostic? = none ∧ e.trivia? = none

theorem notes_of_aside {entries entries' : List Entry} (h : Aside entries) (h' : Aside entries') :
    K.Notes feeds entries entries' := by
  have none_ {es : List Entry} (aside : Aside es) : K.problems es = [] ∧ K.trivias es = [] := by
    refine ⟨?_, ?_⟩
    · rw [Comparison.problems, List.filterMap_eq_nil_iff.2 fun e he => (aside e he).1]
      rfl
    · rw [Comparison.trivias, List.filterMap_eq_nil_iff.2 fun e he => (aside e he).2]
      rfl
  exact .of_eq (by rw [(none_ h).1, (none_ h').1]) (by rw [(none_ h).2, (none_ h').2])

/-- What is entered when a token is told. -/
theorem exists_aside_tell (s : Scanner σ) (t : Token) :
    ∃ told, (s.tell t).journal.toList = s.journal.toList ++ told ∧ Aside told := by
  let taken := Steering.inform s.steering (some t)
  let asked := Steering.inform taken.state none
  refine ⟨(taken.events ++ asked.events).map .event
    ++ ((Steering.errors asked.state).extract s.errorsSeen).toList.map .misplaced, ?_, ?_⟩
  · simp only [Scanner.tell, noteMisplaced, Array.toList_append, Array.appendList_eq_append,
      Array.toList_appendList, Array.toList_map, List.append_assoc]
    rfl
  · intro e mem
    simp only [List.mem_append, List.mem_map] at mem
    rcases mem with ⟨_, -, rfl⟩ | ⟨_, -, rfl⟩ <;> exact ⟨rfl, rfl⟩

namespace Abreast

variable {s s' : Scanner σ}

/-- The second scanner skips what the first one does. -/
theorem skips (h : Abreast K feeds s s') {place : Scanner σ} (skips : Skips s place)
    (within : Compared K place.reader) :
    ∃ place', Skips s' place' ∧ Abreast K feeds place place' := by
  induction skips using Relation.ReflTransGen.head_induction_on generalizing s' with
  | refl => exact ⟨s', .refl, h⟩
  | @head a b silent rest ih =>
    have passed : Compared K a.step.2.reader := by
      rw [silent]
      exact within.of_reaches (Skips.reaches rest)
    obtain ⟨t, first, token, abreast⟩ := h.step passed (by simp [silent])
    rw [silent] at token abreast
    have silent' : t.step = (none, t.step.2) := by
      rw [Option.map_none, Option.map_eq_none_iff] at token
      rw [← token]
    obtain ⟨place', more, abreast'⟩ := ih abreast
    exact ⟨place', first.trans (.head silent' more), abreast'⟩

theorem lex (h : Abreast K feeds s s') (within : Compared K s.lex.2.reader)
    (said : s.lex.1.feedLocations ⊆ feeds) :
    K.token s'.lex.1 = K.token s.lex.1 ∧ Abreast K feeds s.lex.2 s'.lex.2 := by
  obtain ⟨place, skips, found⟩ := s.exists_skips_lex
  have passed : Compared K place.step.2.reader := by
    rw [found]
    exact within
  obtain ⟨place', skips', abreast⟩ := h.skips skips (passed.of_reaches place.reaches_step)
  obtain ⟨t, more, token, next⟩ := abreast.step passed (by rw [found]; simpa using said)
  rw [found] at token next
  obtain ⟨t', made, view⟩ := Option.map_eq_some_iff.1 token
  have lexed : t.step = (some t', t.step.2) := by rw [← made]
  rw [skips'.lex_eq, more.lex_eq, lex_of_token lexed]
  exact ⟨view, next⟩

/-- Telling the two scanners the same kind of token. -/
theorem tell (h : Abreast K feeds s s') {t t' : Token} (same : K.token t' = K.token t) :
    Abreast K feeds (s.tell t) (s'.tell t') := by
  have kind := Comparison.kind_of_token same
  have kinds : (some t').map Token.kind = (some t).map Token.kind := congrArg some kind
  have none_ : (none : Option Token).map Token.kind = none.map Token.kind := rfl
  obtain ⟨hints, asked⟩ := (h.steering.inform kinds).2.inform none_
  obtain ⟨told, journal, aside⟩ := s.exists_aside_tell t
  obtain ⟨told', journal', aside'⟩ := s'.exists_aside_tell t'
  refine ⟨h.reader, asked, h.mode, h.proper, hints, h.freshLine, h.queue, congrArg some kind, ?_,
    h.tags, ?_⟩
  · have start : K.place t'.start = K.place t.start := congrArg Token.start same
    have ended : (if t'.isEof then some t'.start else none).map K.place
        = (if t.isEof then some t.start else none).map K.place := by
      unfold Token.isEof
      rw [kind]
      split
      · exact congrArg some start
      · rfl
    exact ended
  · rw [journal, journal']
    exact h.notes.append (notes_of_aside aside aside')

theorem produce (h : Abreast K feeds s s') (within : Compared K s.produce.2.reader)
    (said : s.produce.1.feedLocations ⊆ feeds) :
    K.token s'.produce.1 = K.token s.produce.1 ∧ Abreast K feeds s.produce.2 s'.produce.2 := by
  have ended := h.ended
  unfold Scanner.produce at within said ⊢
  cases stop : s.ended with
  | some l =>
    rw [stop] at ended
    obtain ⟨l', stop', place⟩ := Option.map_eq_some_iff.1 ended
    rw [stop']
    exact ⟨by simp [Token.endMarker, Comparison.token, place], h⟩
  | none =>
    rw [stop, Option.map_none, Option.map_eq_none_iff] at ended
    rw [stop] at within said
    rw [ended]
    dsimp only at within said ⊢
    have queue := h.queue
    unfold Scanner.advance at within said ⊢
    cases waiting : s.queue with
    | nil =>
      rw [waiting, List.map_nil, List.map_eq_nil_iff] at queue
      rw [waiting] at within said
      rw [queue]
      have lexed := h.lex within said
      exact ⟨lexed.1, lexed.2.tell lexed.1⟩
    | cons t ts =>
      rw [waiting, List.map_cons] at queue
      obtain ⟨t', ts', waiting', view, views⟩ := List.map_eq_cons_iff.1 queue
      rw [waiting']
      refine ⟨view, tell ?_ view⟩
      exact ⟨h.reader, h.steering, h.mode, h.proper, h.hints, h.freshLine, views, h.last, h.ended,
        h.tags, h.notes⟩

end Abreast

/-- Two scanners at the starts of their texts. -/
theorem abreast_start {a b : σ} (alike : Steering.Alike a b) (tags : List String)
    {text text' : List Char} (h : Twin K (ofText text) (ofText text')) :
    Abreast K feeds (Scanner.start a tags text) (Scanner.start b tags text') := by
  have none_ : (none : Option Token).map Token.kind = none.map Token.kind := rfl
  obtain ⟨hints, asked⟩ := alike.inform none_
  have aside (c : σ) : Aside (Scanner.start c tags text).journal.toList := by
    simp [Scanner.start, Aside, Entry.diagnostic?, Entry.trivia?]
  have proper : ({} : XmlMode).Proper := fun active => by cases active
  exact ⟨h, asked, rfl, proper, hints, rfl, rfl, rfl, rfl, rfl, notes_of_aside (aside a) (aside b)⟩

end Scanner

/-! ## Streams -/

namespace TokenStream

variable {σ : Type} [Steering σ]

/-- The tokens that were taken already are among those of the whole run. -/
theorem mem_drainAfter {s : TokenStream σ} (ahead : s.ahead = none) {taken : Array Token}
    {t : Token} (h : t ∈ taken) : t ∈ (s.drainAfter taken).1 := by
  induction taken, s using drainAfter.induct with
  | case1 taken s token after nexts eof =>
    rw [next_of_ahead ahead] at nexts
    cases nexts
    rw [drainAfter_of_ahead ahead, if_pos eof]
    exact Array.mem_push_of_mem _ h
  | case2 taken s token after nexts inner ih =>
    rw [next_of_ahead ahead] at nexts
    cases nexts
    rw [drainAfter_of_ahead ahead, if_neg inner]
    exact ih rfl (Array.mem_push_of_mem _ h)

theorem produce_mem_drainAfter {s : TokenStream σ} (ahead : s.ahead = none) (taken : Array Token) :
    s.scanner.produce.1 ∈ (s.drainAfter taken).1 := by
  rw [drainAfter_of_ahead ahead]
  split
  · exact Array.mem_push_self
  · exact mem_drainAfter rfl Array.mem_push_self

/-- Two runs up to the end marker, if the relation between the scanners is kept token by token.
    Something may be known of all the tokens of the first run. -/
theorem drainAfter_of_bisimulation {R : Scanner σ → Scanner σ → Prop} {known : Token → Prop}
    {view : Token → Token} (kind : ∀ {t t' : Token}, view t' = view t → t'.kind = t.kind)
    (step : ∀ {s s' : Scanner σ}, R s s' → known s.produce.1 →
      view s'.produce.1 = view s.produce.1 ∧ R s.produce.2 s'.produce.2)
    {s s' : TokenStream σ} (h : R s.scanner s'.scanner) (ahead : s.ahead = none)
    (ahead' : s'.ahead = none) {taken taken' : Array Token}
    (same : taken'.toList.map view = taken.toList.map view)
    (all : ∀ t ∈ (s.drainAfter taken).1, known t) :
    (s'.drainAfter taken').1.toList.map view = (s.drainAfter taken).1.toList.map view
      ∧ R (s.drainAfter taken).2.scanner (s'.drainAfter taken').2.scanner := by
  induction taken, s using drainAfter.induct generalizing s' taken' with
  | case1 taken s token after nexts eof =>
    obtain ⟨token', next⟩ := step h (all _ (produce_mem_drainAfter ahead taken))
    rw [next_of_ahead ahead] at nexts
    cases nexts
    have eof' : s'.scanner.produce.1.isEof := by rw [Token.isEof, kind token']; exact eof
    rw [drainAfter_of_ahead ahead, drainAfter_of_ahead ahead', if_pos eof, if_pos eof']
    exact ⟨by simp [same, token'], next⟩
  | case2 taken s token after nexts inner ih =>
    obtain ⟨token', next⟩ := step h (all _ (produce_mem_drainAfter ahead taken))
    rw [next_of_ahead ahead] at nexts
    cases nexts
    have inner' : ¬s'.scanner.produce.1.isEof := by rw [Token.isEof, kind token']; exact inner
    rw [drainAfter_of_ahead ahead, if_neg inner] at all
    rw [drainAfter_of_ahead ahead, drainAfter_of_ahead ahead', if_neg inner, if_neg inner']
    exact ih next rfl rfl (by simp [same, token']) all

/-- Two runs on whole sources. -/
theorem drain_of_bisimulation {R : Scanner σ → Scanner σ → Prop} {known : Token → Prop}
    {view : Token → Token} (kind : ∀ {t t' : Token}, view t' = view t → t'.kind = t.kind)
    (step : ∀ {s s' : Scanner σ}, R s s' → known s.produce.1 →
      view s'.produce.1 = view s.produce.1 ∧ R s.produce.2 s'.produce.2)
    {a b : σ} {tags : List String} {text text' : List Char}
    (h : R (Scanner.start a tags text) (Scanner.start b tags text'))
    (all : ∀ t ∈ (start a tags text).drain.1, known t) :
    (start b tags text').drain.1.toList.map view = (start a tags text).drain.1.toList.map view
      ∧ R (start a tags text).drain.2.scanner (start b tags text').drain.2.scanner := by
  have none_ : (#[] : Array Token).toList.map view = (#[] : Array Token).toList.map view := rfl
  have streams : R (start a tags text).scanner (start b tags text').scanner := h
  exact drainAfter_of_bisimulation kind step streams rfl rfl none_ all

end TokenStream

end BasicLexis
