import BasicLexis.Proofs.Piece.Shape
import BasicLexis.Proofs.Scanner.Stream

set_option autoImplicit false

/-! # The parts of a source

A scanner that ran for a while has read the source in parts, which lie next to each other without a
gap. Its tokens come from these parts, and from the end of the source; so does what its journal
says. `Scanner.Record` is this account of a run, and `TokenStream.exists_record` gives it for the
run to the end marker, whatever steers the scanner. What is true of all tokens and trivia of a
source is then a matter of its parts, and no longer of the scanner. -/

namespace BasicLexis

open Reader

/-! ## The tokens of a piece -/

/-- Where a token stands in the stretch of its piece: at a place of its own, or as the end of the
    line. Only at the end of the source does a line end take no characters. -/
inductive Token.Within (t : Token) (start rest : Reader) : Prop where
  | inner {place stop : Reader} (reaches : start.Reaches place) (stands : t.Stands place stop)
      (within : stop.Reaches rest) (more : place.position < rest.position)
  | lineEnd {place : Reader} (reaches : start.Reaches place) (within : place.Reaches rest)
      (token : t = .lineEnd place.location rest.location)
      (more : place.position < rest.position ∨ rest.rest = [])

/-- No token of a piece ends the source. -/
theorem Token.Within.ne_eof {t : Token} {start rest : Reader} (h : t.Within start rest) :
    t.isEof = false := by
  cases h with
  | inner reaches stands within more => simpa [isEof] using stands.inner.2
  | lineEnd reaches within token more =>
    rw [token]
    rfl

/-- The second token of a piece is a character at a place of its own: an exclamation mark, which the
    first token does not end before, or the dot right after a number. -/
inductive Piece.Second (p : Piece) (t : Token) (start : Reader) : Prop where
  | access {place : Reader} (reaches : start.skip.Reaches place) (ahead : place.peek = some '!')
      (token : t = .accessAt place) (within : place.skip.Reaches p.rest)
      (first : ∀ u, p.token = some u → place.location < u.stop)
  | dot {place : Reader} (reaches : start.Reaches place) (ahead : place.peek = some '.')
      (token : t = .symbol .dot place.location place.skip.location)
      (within : place.skip.Reaches p.rest)
      (first : ∃ u, p.token = some u ∧ u.stop = place.location)

theorem Piece.Second.kind {p : Piece} {t : Token} {start : Reader} (h : p.Second t start) :
    t.kind = .exclamation ∨ t.kind = .dot := by
  cases h with
  | access reaches ahead token within first =>
    rw [token]
    exact .inl rfl
  | dot reaches ahead token within first =>
    rw [token]
    exact .inr rfl

theorem Piece.Second.ne_eof {p : Piece} {t : Token} {start : Reader} (h : p.Second t start) :
    t.isEof = false := by
  rcases h.kind with kind | kind <;> simp [Token.isEof, kind]

namespace Piece

variable {freshLine : Bool} {start : Reader} {p : Piece}

theorem IsSilent.token_ne {t : Token} (h : p.IsSilent) : p.token ≠ some t := by
  rw [h.token]
  exact nofun

/-- A line end takes characters, unless it is the end of the source. -/
theorem more_skipLineEnd {r : Reader} (h : r.peekIs (!Text.isLineEnd ·) = false) :
    r.position < r.skipLineEnd.position ∨ r.skipLineEnd.rest = [] := by
  obtain ⟨rest, position, location⟩ := r
  cases rest with
  | nil => exact .inr rfl
  | cons c cs =>
    left
    have lineEnd : Text.isLineEnd c = true := by simpa [peekIs, peek] using h
    have across := over_skipLineEnd ⟨c :: cs, position, location⟩
    simp only [Text.isLineEnd, Bool.or_eq_true, beq_iff_eq] at lineEnd
    rcases lineEnd with rfl | rfl
    · exact Nat.lt_succ_self _
    · have := (reaches_eatOptional '\n' (skip ⟨'\r' :: cs, position, location⟩)).position_le
      exact this

/-- The token at the end of a line. -/
theorem EndsLine.within {t : Token} {place : Reader} (ends : p.EndsLine freshLine place.location)
    (token : p.token = some t) (reaches : start.Reaches place) (rest : place.Reaches p.rest)
    (more : place.position < p.rest.position ∨ p.rest.rest = []) : t.Within start p.rest := by
  unfold EndsLine at ends
  rw [token] at ends
  cases freshLine with
  | true => cases ends
  | false => exact .lineEnd reaches rest (Option.some.inj ends) more

/-- Where the token of a piece stands. -/
theorem Shape.within (h : Shape freshLine start p) (more : start.position < p.rest.position)
    {t : Token} (token : p.token = some t) : t.Within start p.rest := by
  cases h with
  | blank across silent => exact absurd token silent.token_ne
  | lineEnd across ends queued trivia => exact ends.within token (.refl _) across.reaches (.inl more)
  | continuation ahead blank across silent => exact absurd token silent.token_ne
  | unknown ahead rest silent reported => exact absurd token silent.token_ne
  | comment stands rest ends trivia =>
    refine ends.within token (start.reaches_skip.trans stands.reaches) ?_ ?_
    · rw [rest]
      exact reaches_skipLineEnd _
    · rw [rest]
      exact more_skipLineEnd stands.ends
  | @directive d last stop reaches across within lineEnd rest ends queued span trivia =>
    refine ends.within token (start.reaches_skip.trans reaches) ?_ ?_
    · rw [rest]
      exact within.trans (reaches_skipLineEnd _)
    · rw [rest]
      refine (more_skipLineEnd lineEnd).imp_left fun less => ?_
      exact Nat.lt_of_le_of_lt within.position_le less
  | token across filled stands token' queued trivia =>
    rw [token] at token'
    cases token'
    refine .inner across.reaches stands (.refl _) ?_
    rcases Nat.lt_or_ge start.position _ with far | near
    · exact filled far
    · exact Nat.lt_of_le_of_lt near more
  | dotted stands ahead rest token' queued trivia =>
    rw [token] at token'
    cases token'
    refine .inner (.refl _) stands ?_ more
    rw [rest]
    exact reaches_skip _
  | accessed stands reaches ahead rest token' queued trivia =>
    rw [token] at token'
    cases token'
    refine .inner (.refl _) stands ?_ more
    rw [rest]
    exact .refl _

/-- What the second token of a piece is. -/
theorem Shape.second (h : Shape freshLine start p) {t : Token} (queued : p.queued = some t) :
    p.Second t start := by
  have single {q : Prop} (alone : p.queued = none) : q := by
    rw [alone] at queued
    cases queued
  cases h with
  | blank across silent => exact single silent.queued
  | lineEnd across ends alone trivia => exact single alone
  | continuation ahead blank across silent => exact single silent.queued
  | unknown ahead rest silent reported => exact single silent.queued
  | @comment c stop stands rest ends trivia =>
    rw [queued] at stands
    obtain ⟨-, atEnd, quoted, after, introduced, line, -⟩ := stands
    cases introduced with
    | @access place reaches spells ahead =>
      have within : place.skip.Reaches p.rest := by
        rw [rest]
        exact line.reaches.trans (reaches_skipLineEnd _)
      refine .access reaches ahead rfl within fun u hu => ?_
      -- the token of a comment is the end of its line
      unfold EndsLine at ends
      rw [hu] at ends
      cases freshLine with
      | true => cases ends
      | false =>
        cases ends
        exact lt_of_lt_of_le (location_lt_skip ahead) within.location_le
  | directive reaches across within lineEnd rest ends alone span trivia => exact single alone
  | token across filled stands token alone trivia => exact single alone
  | dotted stands ahead rest token queued' trivia =>
    rw [queued] at queued'
    cases queued'
    exact .dot stands.reaches ahead rfl (by rw [rest]; exact .refl _) ⟨_, token, stands.stop⟩
  | accessed stands reaches ahead rest token queued' trivia =>
    rw [queued] at queued'
    cases queued'
    refine .access reaches ahead rfl (by rw [rest]; exact .refl _) fun u hu => ?_
    rw [token] at hu
    cases hu
    rw [stands.stop]
    exact location_lt_skip ahead

end Piece

/-! ## Parts next to each other -/

/-- A piece with the place where it was read. It takes some of the source. -/
structure Part where
  start : Reader
  piece : Piece
  freshLine : Bool
  shape : piece.Shape freshLine start
  more : start.position < piece.rest.position

namespace Part

/-- The token is one of the part. -/
def Gives (part : Part) (t : Token) : Prop := part.piece.token = some t ∨ part.piece.queued = some t

/-- The first part ends before the second one starts. -/
def Before (a b : Part) : Prop := a.piece.rest.Reaches b.start

theorem reaches (part : Part) : part.start.Reaches part.piece.rest := part.shape.reaches

/-- There is something to read where a part starts. -/
theorem rest_ne_nil (part : Part) : part.start.rest ≠ [] := by
  intro done
  have same := part.reaches.position_of_nil done
  have more := part.more
  omega

/-- Every token of a part starts within the part, unless it is the end of the last line. -/
theorem Gives.start {part : Part} {t : Token} (h : part.Gives t) :
    ∃ place, part.start.Reaches place ∧ place.Reaches part.piece.rest ∧ t.start = place.location
      ∧ (place.position < part.piece.rest.position ∨ part.piece.rest.rest = []) := by
  rcases h with token | queued
  · cases part.shape.within part.more token with
    | inner reaches stands within more =>
      exact ⟨_, reaches, stands.reaches.trans within, stands.start, .inl more⟩
    | lineEnd reaches within token more => exact ⟨_, reaches, within, by rw [token]; rfl, more⟩
  · cases part.shape.second queued with
    | access reaches ahead token within first =>
      exact ⟨_, part.start.reaches_skip.trans reaches, (reaches_skip _).trans within,
        by rw [token]; rfl, .inl (position_lt_of_skip ahead within)⟩
    | dot reaches ahead token within first =>
      exact ⟨_, reaches, (reaches_skip _).trans within, by rw [token]; rfl,
        .inl (position_lt_of_skip ahead within)⟩

/-- The tokens of a part stand within the part, apart from line ends. -/
theorem Gives.stands {part : Part} {t : Token} (h : part.Gives t) (inner : t.IsInner) :
    ∃ place stop, part.start.Reaches place ∧ t.Stands place stop
      ∧ place.position < part.piece.rest.position := by
  rcases h with token | queued
  · cases part.shape.within part.more token with
    | inner reaches stands within more => exact ⟨_, _, reaches, stands, more⟩
    | lineEnd reaches within token more =>
      rw [token] at inner
      exact absurd rfl inner.1
  · cases part.shape.second queued with
    | access reaches ahead token within first =>
      rw [token]
      exact ⟨_, _, part.start.reaches_skip.trans reaches,
        Piece.stands_mark ahead rfl nofun nofun, position_lt_of_skip ahead within⟩
    | dot reaches ahead token within first =>
      rw [token]
      exact ⟨_, _, reaches, Piece.stands_mark ahead rfl nofun nofun,
        position_lt_of_skip ahead within⟩

end Part

/-- Parts that lie next to each other, from one place up to another. -/
inductive Tiles (first : Reader) : List Part → Reader → Prop where
  | nil : Tiles first [] first
  | snoc {parts : List Part} {part : Part} (front : Tiles first parts part.start) :
    Tiles first (parts ++ [part]) part.piece.rest

namespace Tiles

variable {first last : Reader} {parts : List Part}

theorem reaches (h : Tiles first parts last) : first.Reaches last := by
  induction h with
  | nil => exact .refl _
  | @snoc parts part front ih => exact ih.trans part.reaches

theorem bounds (h : Tiles first parts last) :
    ∀ part ∈ parts, first.Reaches part.start ∧ part.piece.rest.Reaches last := by
  induction h with
  | nil => simp
  | @snoc parts part front ih =>
    intro other mem
    rcases List.mem_append.1 mem with old | new
    · exact ⟨(ih other old).1, (ih other old).2.trans part.reaches⟩
    · rw [List.mem_singleton.1 new]
      exact ⟨front.reaches, .refl _⟩

/-- Of two parts, one ends before the other starts. -/
theorem apart (h : Tiles first parts last) {a b : Part} (ha : a ∈ parts) (hb : b ∈ parts) :
    a = b ∨ a.Before b ∨ b.Before a := by
  induction h with
  | nil => cases ha
  | @snoc parts part front ih =>
    rw [List.mem_append, List.mem_singleton] at ha hb
    rcases ha with ha | rfl
    · rcases hb with hb | rfl
      · exact ih ha hb
      · exact .inr (.inl (front.bounds a ha).2)
    · rcases hb with hb | rfl
      · exact .inr (.inr (front.bounds b hb).2)
      · exact .inl rfl

/-- Every place up to the last one is in a part. -/
theorem exists_part (h : Tiles first parts last) {place : Reader} (reaches : first.Reaches place)
    (before : place.position < last.position) :
    ∃ part ∈ parts, part.start.Reaches place ∧ place.position < part.piece.rest.position := by
  induction h with
  | nil => exact absurd reaches.position_le (Nat.not_le_of_lt before)
  | @snoc parts part front ih =>
    rcases Nat.lt_or_ge place.position part.start.position with earlier | later
    · obtain ⟨other, mem, there⟩ := ih earlier
      exact ⟨other, List.mem_append_left _ mem, there⟩
    · exact ⟨part, List.mem_append_right _ (List.mem_singleton.2 rfl),
        front.reaches.of_position_le reaches later, before⟩

end Tiles

/-! ## What a scanner did -/

theorem Journal.toList_trivia (journal : Journal) :
    journal.trivia.toList = journal.toList.filterMap Entry.trivia? := by
  simp [Journal.trivia]

namespace Scanner

variable {σ : Type}

/-- The token comes from a part, or it ends the source. -/
def Origin (parts : List Part) (r : Reader) (t : Token) : Prop :=
  (∃ part ∈ parts, part.Gives t)
    ∨ (r.rest = [] ∧ t.start = r.location ∧ t.stop = r.location ∧ ¬t.IsInner)

/-- An account of a run: the parts that the scanner has read and the tokens that were produced. The
    rest of their tokens waits in the queue. -/
structure Record (source : List Char) (tokens : List Token) (s : Scanner σ) (parts : List Part) :
    Prop where
  tiles : Tiles (.ofText source) parts s.reader
  trivia : s.journal.trivia.toList = parts.flatMap (·.piece.trivia)
  entries : ∀ part ∈ parts, part.piece.entries ⊆ s.journal.toList
  first : ∀ part ∈ parts, ∀ t, part.piece.token = some t → t ∈ tokens
  second : ∀ part ∈ parts, ∀ t, part.piece.queued = some t → t ∈ tokens ++ s.queue
  tokens : ∀ t ∈ tokens, Origin parts s.reader t
  queue : ∀ t ∈ s.queue, ∃ part ∈ parts, part.piece.queued = some t

/-- What a step of a scanner is: it reads a part, or it is at the end of the source. -/
theorem step_cases {s s' : Scanner σ} {token : Option Token} (h : s.step = (token, s')) :
    (∃ (part : Part) (mode : XmlMode), part.start = s.reader ∧ token = part.piece.token
      ∧ s' = s.accept part.piece mode)
    ∨ (s.reader.rest = [] ∧ token = some s.endToken
      ∧ ∃ mode freshLine, s' = { s with mode, freshLine }) := by
  unfold step at h
  split at h
  · next piece trailing =>
    obtain ⟨rfl, rfl⟩ := Prod.mk.inj h
    have shape : piece.Shape s.freshLine s.reader := XmlMode.shape_of_trailing? trailing
    have less := shape.reaches.position_lt (XmlMode.length_of_trailing? trailing)
    exact .inl ⟨⟨_, _, _, shape, less⟩, _, rfl, rfl, rfl⟩
  · dsimp only at h
    split at h
    · next done =>
      obtain ⟨rfl, rfl⟩ := Prod.mk.inj h
      exact .inr ⟨rest_eq_nil_of_read? done, rfl, _, _, rfl⟩
    · next c r read =>
      obtain ⟨rfl, rfl⟩ := Prod.mk.inj h
      have shape := Piece.shape_next (s := s.setting) (m := s.mode.leave) read
      have less := shape.reaches.position_lt (Piece.length_next read)
      exact .inl ⟨⟨_, _, _, shape, less⟩, _, rfl, rfl, rfl⟩

namespace Record

variable {source : List Char} {tokens : List Token} {s : Scanner σ} {parts : List Part}

/-- The journal has the trivia of the parts. -/
theorem mem_trivia (h : Record source tokens s parts) {trivia : Trivia} :
    trivia ∈ s.journal.trivia ↔ ∃ part ∈ parts, trivia ∈ part.piece.trivia := by
  rw [← Array.mem_toList_iff, h.trivia, List.mem_flatMap]

/-- The scanner reads a part. -/
theorem accept (h : Record source tokens s parts) {part : Part} (place : part.start = s.reader)
    (mode : XmlMode) :
    Record source (tokens ++ part.piece.token.toList) (s.accept part.piece mode)
      (parts ++ [part]) where
  tiles := .snoc (by rw [place]; exact h.tiles)
  trivia := by
    have before := h.trivia
    rw [Journal.toList_trivia] at before
    simp [Scanner.accept, Journal.toList_trivia, before, Piece.trivia]
  entries := by
    simp only [Scanner.accept, Array.appendList_eq_append, Array.toList_appendList]
    refine List.forall_mem_append.2 ⟨fun other mem => ?_, ?_⟩
    · exact List.subset_append_of_subset_left _ (h.entries other mem)
    · exact List.forall_mem_singleton.2 (List.subset_append_right _ _)
  first := by
    refine List.forall_mem_append.2 ⟨fun other mem t ht => ?_, ?_⟩
    · exact List.mem_append_left _ (h.first other mem t ht)
    · exact List.forall_mem_singleton.2 fun t ht => by simp [ht]
  second := by
    refine List.forall_mem_append.2 ⟨fun other mem t ht => ?_, ?_⟩
    · have := h.second other mem t ht
      grind [Scanner.accept]
    · exact List.forall_mem_singleton.2 fun t ht => by simp [Scanner.accept, ht]
  tokens := by
    refine List.forall_mem_append.2 ⟨fun t ht => ?_, fun t ht => ?_⟩
    · rcases h.tokens t ht with ⟨other, mem, gives⟩ | ⟨done, -⟩
      · exact .inl ⟨other, List.mem_append_left _ mem, gives⟩
      · exact absurd done (by rw [← place]; exact part.rest_ne_nil)
    · exact .inl ⟨part, by simp, .inl (by simpa using ht)⟩
  queue := by
    refine List.forall_mem_append.2 ⟨fun t ht => ?_, fun t ht => ?_⟩
    · obtain ⟨other, mem, queued⟩ := h.queue t ht
      exact ⟨other, List.mem_append_left _ mem, queued⟩
    · exact ⟨part, by simp, by simpa using ht⟩

/-- The scanner is at the end of the source. -/
theorem atEnd (h : Record source tokens s parts) (done : s.reader.rest = []) (mode : XmlMode)
    (freshLine : Bool) :
    Record source (tokens ++ [s.endToken]) { s with mode, freshLine } parts where
  tiles := h.tiles
  trivia := h.trivia
  entries := h.entries
  first part mem t ht := List.mem_append_left _ (h.first part mem t ht)
  second part mem t ht := by
    have := h.second part mem t ht
    grind
  tokens := by
    refine List.forall_mem_append.2 ⟨h.tokens, List.forall_mem_singleton.2 (.inr ?_)⟩
    unfold endToken
    dsimp only
    split
    · exact ⟨done, rfl, rfl, fun inner => inner.2 rfl⟩
    · exact ⟨done, rfl, rfl, fun inner => inner.1 rfl⟩
  queue := h.queue

/-- A token that waited has its turn. -/
theorem pop (h : Record source tokens s parts) {t : Token} {queue : List Token}
    (waiting : s.queue = t :: queue) : Record source (tokens ++ [t]) { s with queue } parts where
  tiles := h.tiles
  trivia := h.trivia
  entries := h.entries
  first part mem u hu := List.mem_append_left _ (h.first part mem u hu)
  second part mem u hu := by
    have := h.second part mem u hu
    rw [waiting] at this
    simpa using this
  tokens := by
    refine List.forall_mem_append.2 ⟨h.tokens, List.forall_mem_singleton.2 ?_⟩
    obtain ⟨part, mem, queued⟩ := h.queue t (by simp [waiting])
    exact .inl ⟨part, mem, .inr queued⟩
  queue u hu := h.queue u (by rw [waiting]; exact .tail _ hu)

/-- What the scanner is told is no trivia. -/
theorem tell [Steering σ] (h : Record source tokens s parts) (t : Token) :
    Record source tokens (s.tell t) parts where
  tiles := h.tiles
  trivia := by
    rw [← h.trivia]
    simp only [Scanner.tell, noteMisplaced, Journal.toList_trivia, Array.toList_append,
      Array.appendList_eq_append, Array.toList_appendList, Array.toList_map, List.filterMap_append,
      List.filterMap_map]
    simp [Function.comp_def, Entry.trivia?]
  entries part mem := by
    simp only [Scanner.tell, noteMisplaced, Array.toList_append, Array.appendList_eq_append,
      Array.toList_appendList, List.append_assoc]
    exact List.subset_append_of_subset_left _ (h.entries part mem)
  first := h.first
  second := h.second
  tokens := h.tokens
  queue := h.queue

end Record

/-- Every token that waits in the queue is an exclamation mark. -/
def OnlyMarksWait (s : Scanner σ) : Prop := ∀ t ∈ s.queue, t.kind = .exclamation

/-- A part without a token leaves at most an exclamation mark in the queue. -/
theorem OnlyMarksWait.accept {s : Scanner σ} (h : s.OnlyMarksWait) {part : Part}
    (silent : part.piece.token = none) (mode : XmlMode) :
    (s.accept part.piece mode).OnlyMarksWait := by
  refine List.forall_mem_append.2 ⟨h, fun t ht => ?_⟩
  cases part.shape.second (by simpa using ht) with
  | access reaches ahead token within first =>
    rw [token]
    rfl
  | dot reaches ahead token within first =>
    obtain ⟨u, hu, -⟩ := first
    rw [silent] at hu
    cases hu

/-- After the end marker all of the source was read, and no token is left but exclamation marks. -/
def Finished (s : Scanner σ) : Prop := s.reader.rest = [] ∧ s.OnlyMarksWait

namespace Record

variable {source : List Char} {tokens : List Token} {s : Scanner σ} {parts : List Part}

/-- The scanner reads up to the next token. -/
theorem lex (h : Record source tokens s parts) (marks : s.OnlyMarksWait) :
    ∃ parts', Record source (tokens ++ [s.lex.1]) s.lex.2 parts'
      ∧ (s.lex.1.isEof = true → s.lex.2.Finished) := by
  fun_induction Scanner.lex s generalizing parts with
  | case1 s token s' step =>
    rcases step_cases step with ⟨part, mode, place, same, rfl⟩ | ⟨done, same, mode, fresh, rfl⟩
    · have record := h.accept place mode
      rw [← same] at record
      have inner := (part.shape.within part.more same.symm).ne_eof
      exact ⟨_, record, fun eof => absurd eof (by simp [inner])⟩
    · cases same
      exact ⟨parts, h.atEnd done mode fresh, fun _ => ⟨done, marks⟩⟩
  | case2 s s' step ih =>
    rcases step_cases step with ⟨part, mode, place, silent, rfl⟩ | ⟨done, same, mode, fresh, rfl⟩
    · have record := h.accept place mode
      rw [← silent, Option.toList_none, List.append_nil] at record
      exact ih record (marks.accept silent.symm mode)
    · cases same

variable [Steering σ]

/-- The scanner produces a token. -/
theorem produce (h : Record source tokens s parts) (running : s.ended = none) :
    (∃ parts', Record source (tokens ++ [s.produce.1]) s.produce.2 parts')
      ∧ (s.produce.1.isEof = true → s.produce.2.Finished)
      ∧ (¬s.produce.1.isEof = true → s.produce.2.ended = none) := by
  have goesOn (s : Scanner σ) (t : Token) (inner : ¬t.isEof = true) : (s.tell t).ended = none := by
    simp [Scanner.tell, noteMisplaced, inner]
  unfold Scanner.produce advance
  rw [running]
  dsimp only
  cases waiting : s.queue with
  | cons t queue =>
    obtain ⟨part, -, queued⟩ := h.queue t (by simp [waiting])
    refine ⟨⟨parts, (h.pop waiting).tell t⟩, fun eof => ?_, goesOn _ t⟩
    exact absurd eof (by simp [(part.shape.second queued).ne_eof])
  | nil =>
    obtain ⟨parts', record, finished⟩ := h.lex (by simp [OnlyMarksWait, waiting])
    exact ⟨⟨parts', record.tell _⟩, finished, goesOn _ _⟩

theorem start (steering : σ) (tags : List String) (source : List Char) :
    Record source [] (Scanner.start steering tags source) [] where
  tiles := .nil
  trivia := by simp [Scanner.start, Journal.toList_trivia, Function.comp_def, Entry.trivia?]
  entries := by simp
  first := by simp
  second := by simp
  tokens := by simp
  queue := by simp [Scanner.start]

end Record

end Scanner

namespace TokenStream

variable {σ : Type} [Steering σ]

open Scanner

theorem drainAfter_eq (taken : Array Token) (s : TokenStream σ) :
    s.drainAfter taken
      = if s.next.1.isEof then (taken.push s.next.1, s.next.2)
        else s.next.2.drainAfter (taken.push s.next.1) := by
  rw [drainAfter]
  rfl

/-- One token of a run, in a stream that nobody looks ahead in. -/
theorem drainAfter_of_ahead {s : TokenStream σ} (h : s.ahead = none) (taken : Array Token) :
    s.drainAfter taken
      = if s.scanner.produce.1.isEof then
          (taken.push s.scanner.produce.1, ⟨s.scanner.produce.2, none, some s.scanner.produce.1⟩)
        else drainAfter (taken.push s.scanner.produce.1)
          ⟨s.scanner.produce.2, none, some s.scanner.produce.1⟩ := by
  rw [drainAfter_eq, next_of_ahead h]

/-- The account of a run, after some tokens and up to the end marker. -/
theorem exists_record_drainAfter {source : List Char} {t : Array Token} {s : TokenStream σ}
    {parts : List Part} (h : Record source t.toList s.scanner parts) (ahead : s.ahead = none)
    (running : s.scanner.ended = none) :
    (∃ parts', Record source (s.drainAfter t).1.toList (s.drainAfter t).2.scanner parts')
      ∧ (s.drainAfter t).2.scanner.Finished := by
  induction t, s using drainAfter.induct generalizing parts with
  | case1 taken s token s' next eof =>
    obtain ⟨⟨parts', record⟩, finished, -⟩ := h.produce running
    rw [next_of_ahead ahead] at next
    cases next
    rw [drainAfter_of_ahead ahead, if_pos eof]
    exact ⟨⟨parts', by simpa using record⟩, finished eof⟩
  | case2 taken s token s' next inner ih =>
    obtain ⟨⟨parts', record⟩, -, goesOn⟩ := h.produce running
    rw [next_of_ahead ahead] at next
    cases next
    rw [drainAfter_of_ahead ahead, if_neg inner]
    exact ih (by simpa using record) rfl (goesOn inner)

/-- The account of the run on a source up to the end marker. -/
theorem exists_record (steering : σ) (tags : List String) (source : List Char) :
    (∃ parts, Record source (start steering tags source).drain.1.toList
        (start steering tags source).drain.2.scanner parts)
      ∧ (start steering tags source).drain.2.scanner.Finished :=
  exists_record_drainAfter (t := #[]) (.start steering tags source) rfl rfl

end TokenStream

end BasicLexis
