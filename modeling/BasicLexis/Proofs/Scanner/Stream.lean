import BasicLexis.Proofs.Piece.Tokens
import BasicLexis.TokenStream

set_option autoImplicit false

/-! # The shape of a stream of tokens

Whatever steers the scanner, a stream consists of lines. It ends with a line end and an end marker,
which then repeats; no line is empty; and there are no more tokens than characters, apart from the
line end and the end marker that may have to be added.

Two things keep track of line ends. `freshLine` is about the tokens that were read, `last` about
those that were produced, and they differ while tokens wait in the queue. The invariant `Paced` is
what ties them together: after a line end was produced, none is read before another token. -/

namespace BasicLexis

namespace Scanner

variable {σ : Type}

/-- A line end was only just produced if no token was read on the line, and what waits in the queue
    ends nothing. -/
structure Paced (s : Scanner σ) : Prop where
  fresh : s.last = some .eol → s.freshLine = true
  queue : ∀ t ∈ s.queue, t.IsInner

/-- What is left to read and to take from the queue. -/
def left (s : Scanner σ) : Nat := s.reader.rest.length + s.queue.length

/-- How many tokens can still come, the end marker included. -/
def ahead (s : Scanner σ) : Nat :=
  if s.left = 0 ∧ s.last = some .eol then 1 else s.left + 2

theorem ahead_lt_of_left {s s' : Scanner σ} (h : s'.left < s.left) : s'.ahead < s.ahead := by
  unfold ahead
  split <;> split <;> omega

theorem ahead_of_open {s : Scanner σ} (h : s.last ≠ some .eol) : s.ahead = s.left + 2 :=
  if_neg fun ended => h ended.2

/-! ## Single pieces -/

/-- What a piece does to a scanner: it takes some of the source for each of its tokens, or the
    source is at its end. -/
inductive Stepped (s : Scanner σ) : Option Token → Scanner σ → Prop where
  | silent {s' : Scanner σ} (less : s'.left < s.left) (fresh : s'.freshLine = s.freshLine) :
    Stepped s none s'
  | token {t : Token} {s' : Scanner σ} (less : s'.left < s.left)
      (inner : t.kind ≠ .eof) (eol : t.kind = .eol → s.freshLine = false)
      (fresh : s'.freshLine = (t.kind == .eol)) : Stepped s (some t) s'
  | atEnd {s' : Scanner σ} (done : s'.reader.rest = []) (queue : s'.queue = s.queue)
      (fresh : s'.freshLine = (s.endToken.kind == .eol)) : Stepped s (some s.endToken) s'

/-- The scanner after a piece, in terms of the piece. -/
theorem stepped_accept {s : Scanner σ} {piece : Piece} {r : Reader} (mode : XmlMode)
    (regular : piece.Regular s.freshLine) (room : piece.HasRoom r)
    (read : r.rest.length < s.reader.rest.length) :
    Stepped s piece.token (s.accept piece mode) := by
  have less : (s.accept piece mode).left < s.left := by
    simp only [left, accept, List.length_append]
    unfold Piece.HasRoom at room
    omega
  cases h : piece.token with
  | none => exact .silent less (by simp [accept, h])
  | some t =>
    obtain ⟨inner, eol⟩ := regular.token t h
    exact .token less inner eol (by simp [accept, h])

theorem regular_of_trailing? (freshLine : Bool) {m : XmlMode} {r : Reader} {piece : Piece}
    (h : m.trailing? r = some piece) : piece.Regular freshLine ∧ piece.queued = none := by
  unfold XmlMode.trailing? at h
  split at h
  · obtain ⟨inside, -, rfl⟩ := Option.map_eq_some_iff.1 h
    exact ⟨Piece.regular_markupSection _ _, Piece.queued_markupSection _ _⟩
  · cases h

theorem stepped_step {s s' : Scanner σ} {token : Option Token} (h : s.step = (token, s')) :
    Stepped s token s' := by
  unfold step at h
  split at h
  · next piece trailing =>
    obtain ⟨rfl, rfl⟩ := Prod.mk.inj h
    have less := XmlMode.length_of_trailing? trailing
    obtain ⟨regular, single⟩ := regular_of_trailing? s.freshLine trailing
    refine stepped_accept s.mode regular (r := piece.rest) ?_ less
    exact Piece.hasRoom_of_single single (.refl _)
  · dsimp only at h
    split at h
    · next done =>
      obtain ⟨rfl, rfl⟩ := Prod.mk.inj h
      exact .atEnd (Reader.rest_eq_nil_of_read? done) rfl rfl
    · next c r read =>
      obtain ⟨rfl, rfl⟩ := Prod.mk.inj h
      exact stepped_accept _ (Piece.regular_next s.setting _ _ _ _) (Piece.hasRoom_next read)
        (Reader.length_of_read? read)

/-- A piece leaves alone what was produced, and puts only inner tokens into the queue. -/
theorem kept_step {s s' : Scanner σ} {token : Option Token} (h : s.step = (token, s'))
    (queue : ∀ t ∈ s.queue, t.IsInner) : s'.last = s.last ∧ ∀ t ∈ s'.queue, t.IsInner := by
  have accepted (piece : Piece) (mode : XmlMode) (regular : piece.Regular s.freshLine) :
      ∀ t ∈ (s.accept piece mode).queue, t.IsInner := by
    intro t ht
    rcases List.mem_append.1 ht with old | new
    · exact queue t old
    · exact regular.queued t (Option.mem_toList.1 new)
  unfold step at h
  split at h
  · next piece trailing =>
    obtain ⟨rfl, rfl⟩ := Prod.mk.inj h
    exact ⟨rfl, accepted _ _ (regular_of_trailing? s.freshLine trailing).1⟩
  · dsimp only at h
    split at h
    · obtain ⟨rfl, rfl⟩ := Prod.mk.inj h
      exact ⟨rfl, queue⟩
    · obtain ⟨rfl, rfl⟩ := Prod.mk.inj h
      exact ⟨rfl, accepted _ _ (Piece.regular_next s.setting _ _ _ _)⟩

/-! ## The next token -/

/-- What reading up to the next token does: the token is one of the source, or the source is at its
    end. Either way it took some of the source, or nothing is left and nothing was read. -/
inductive Lexed (s : Scanner σ) : Token → Scanner σ → Prop where
  | token {t : Token} {s' : Scanner σ} (less : s'.left < s.left) (inner : t.kind ≠ .eof)
      (eol : t.kind = .eol → s.freshLine = false) : Lexed s t s'
  | atEnd {s' : Scanner σ} (location : Location) (done : s'.reader.rest = [])
      (fewer : s'.left < s.left ∨ s'.queue = s.queue) :
      Lexed s (if s.last = some .eol then .endMarker location else .lineEnd location location) s'

/-- A piece without a token before the others. -/
theorem Lexed.after {s s' s'' : Scanner σ} {t : Token} (h : Lexed s' t s'')
    (less : s'.left < s.left) (fresh : s'.freshLine = s.freshLine) (last : s'.last = s.last) :
    Lexed s t s'' := by
  cases h with
  | token less' inner eol => exact .token (Nat.lt_trans less' less) inner (fun h => fresh ▸ eol h)
  | atEnd location done fewer =>
    rw [last]
    refine .atEnd location done (.inl ?_)
    rcases fewer with fewer | same
    · exact Nat.lt_trans fewer less
    · simp only [left, done, same, List.length_nil] at *
      omega

/-- Reading up to the next token, which also says whether a line is fresh. -/
theorem lexed_lex (s : Scanner σ) (queue : ∀ t ∈ s.queue, t.IsInner) :
    Lexed s s.lex.1 s.lex.2 ∧ s.lex.2.last = s.last
      ∧ s.lex.2.freshLine = (s.lex.1.kind == .eol) ∧ ∀ t ∈ s.lex.2.queue, t.IsInner := by
  fun_induction lex s with
  | case1 s token s' h =>
    obtain ⟨last, queue'⟩ := kept_step h queue
    cases stepped_step h with
    | token less inner eol fresh => exact ⟨.token less inner eol, last, fresh, queue'⟩
    | atEnd done same fresh => exact ⟨.atEnd _ done (.inr same), last, fresh, queue'⟩
  | case2 s s' h ih =>
    obtain ⟨last, queue'⟩ := kept_step h queue
    obtain ⟨lexed, last', fresh', queue''⟩ := ih queue'
    cases stepped_step h with
    | silent less fresh =>
      exact ⟨lexed.after less fresh last, last'.trans last, fresh', queue''⟩

/-- The end marker comes, right after a line end. -/
structure Ends (s : Scanner σ) (t : Token) (s' : Scanner σ) : Prop where
  before : s.last = some .eol
  marker : t = .endMarker t.start
  ended : s'.ended = some t.start

/-- Another token comes, which is no line end right after a line end, and fewer are left to come. -/
structure GoesOn (s : Scanner σ) (t : Token) (s' : Scanner σ) : Prop where
  inner : t.kind ≠ .eof
  alternates : s.last = some .eol → t.kind ≠ .eol
  paced : s'.Paced
  running : s'.ended = none
  last : s'.last = some t.kind
  fewer : s'.ahead < s.ahead

variable [Steering σ]

theorem produce_eq_of_ended {s : Scanner σ} {l : Location} (ended : s.ended = some l) :
    s.produce = (.endMarker l, s) := by
  unfold produce
  rw [ended]

theorem produce_eq_of_cons {s : Scanner σ} {t : Token} {queue : List Token}
    (running : s.ended = none) (waiting : s.queue = t :: queue) :
    s.produce = (t, Scanner.tell { s with queue } t) := by
  unfold produce advance
  rw [running, waiting]

theorem produce_eq_of_nil {s : Scanner σ} (running : s.ended = none) (empty : s.queue = []) :
    s.produce = (s.lex.1, s.lex.2.tell s.lex.1) := by
  unfold produce advance
  rw [running, empty]

theorem left_tell (s : Scanner σ) (t : Token) : (s.tell t).left = s.left := rfl

/-- A token that was read or taken from the queue, once it is told. -/
theorem goesOn_tell {s s' : Scanner σ} {t : Token} (inner : t.kind ≠ .eof)
    (alternates : s.last = some .eol → t.kind ≠ .eol)
    (fresh : t.kind = .eol → s'.freshLine = true) (queue : ∀ t ∈ s'.queue, t.IsInner)
    (fewer : (s'.tell t).ahead < s.ahead) : GoesOn s t (s'.tell t) where
  inner := inner
  alternates := alternates
  paced := ⟨fun eol => fresh (Option.some.inj eol), queue⟩
  running := by simp [tell, noteMisplaced, Token.isEof, inner]
  last := rfl
  fewer := fewer

/-- As long as the end marker did not come, it comes next or another token does. -/
theorem produce_turn {s : Scanner σ} (h : s.Paced) (running : s.ended = none) :
    Ends s s.produce.1 s.produce.2 ∨ GoesOn s s.produce.1 s.produce.2 := by
  unfold produce advance
  rw [running]
  dsimp only
  cases waiting : s.queue with
  | cons t queue =>
    -- what waits in the queue ends no line, whatever was produced last
    have inner := h.queue t (by simp [waiting])
    refine .inr (goesOn_tell inner.2 (fun _ => inner.1) (fun eol => absurd eol inner.1) ?_ ?_)
    · intro u hu
      exact h.queue u (by rw [waiting]; exact .tail _ hu)
    · refine ahead_lt_of_left ?_
      rw [left_tell]
      simp only [left, waiting, List.length_cons]
      omega
  | nil =>
    obtain ⟨lexed, last, fresh, queue⟩ := s.lexed_lex h.queue
    dsimp only
    generalize s.lex = p at *
    obtain ⟨t, s'⟩ := p
    dsimp only at *
    have fresh' : t.kind = .eol → s'.freshLine = true := by
      intro eol
      rw [fresh, eol]
      rfl
    cases lexed with
    | token less inner eol =>
      refine .inr (goesOn_tell inner ?_ fresh' queue ?_)
      · intro ended hk
        have := h.fresh ended
        rw [eol hk] at this
        cases this
      · exact ahead_lt_of_left less
    | atEnd location done fewer =>
      split
      · next ended => exact .inl ⟨ended, rfl, rfl⟩
      · -- the line end that is added before the end marker
        next open_ =>
        refine .inr (goesOn_tell nofun (fun ended => absurd ended open_) ?_ queue ?_)
        · simpa [open_] using fresh'
        · rcases fewer with fewer | same
          · exact ahead_lt_of_left fewer
          · have empty : s'.left = 0 := by simp [left, done, same, waiting]
            have last : (s'.tell (.lineEnd location location)).ahead = 1 :=
              if_pos ⟨empty, rfl⟩
            rw [ahead_of_open open_, last]
            omega

theorem paced_start (steering : σ) (tags : List String) (source : List Char) :
    (start steering tags source).Paced := by
  constructor
  · intro h
    cases h
  · intro t ht
    cases ht

end Scanner

/-! ## Whole streams -/

namespace TokenStream

variable {σ : Type} [Steering σ]

/-- The token that a call takes, after so many calls before it. -/
def token (s : TokenStream σ) : Nat → Token
  | 0 => s.next.1
  | n + 1 => s.next.2.token n

/-- The kind of the token before it. -/
def kindBefore (s : TokenStream σ) : Nat → Option TokenKind
  | 0 => s.scanner.last
  | n + 1 => some (s.token n).kind

/-- Tokens of a stream that nobody looks ahead in are those of its scanner. -/
theorem next_of_ahead {s : TokenStream σ} (h : s.ahead = none) :
    s.next = (s.scanner.produce.1,
      { scanner := s.scanner.produce.2, current := some s.scanner.produce.1 }) := by
  unfold next
  rw [h]

/-- The end marker repeats. -/
theorem token_of_ended {s : TokenStream σ} {location : Location} (h : s.ahead = none)
    (ended : s.scanner.ended = some location) (n : Nat) : s.token n = .endMarker location := by
  have marker := Scanner.produce_eq_of_ended ended
  induction n generalizing s with
  | zero => rw [token, next_of_ahead h, marker]
  | succ n ih =>
    rw [token, next_of_ahead h, marker]
    exact ih rfl ended marker

/-- From a state between two tokens on, the end marker comes before too many tokens did. It follows
    a line end, and no line end follows another. -/
theorem ends_in_time {s : TokenStream σ} (h : s.ahead = none) (paced : s.scanner.Paced)
    (running : s.scanner.ended = none) :
    ∃ n < s.scanner.ahead, (∀ i < n, (s.token i).kind ≠ .eof)
      ∧ s.kindBefore n = some .eol
      ∧ (∃ location, ∀ i ≥ n, s.token i = .endMarker location)
      ∧ ∀ i, s.kindBefore i = some .eol → (s.token i).kind ≠ .eol := by
  -- by induction on how many tokens can still come
  induction bound : s.scanner.ahead using Nat.strongRecOn generalizing s with
  | ind bound ih =>
    subst bound
    have next := next_of_ahead h
    rcases Scanner.produce_turn paced running with ends | goesOn
    · obtain ⟨before, marker, ended⟩ := ends
      have repeats : ∀ i, s.token i = .endMarker s.scanner.produce.1.start := by
        intro i
        cases i with
        | zero =>
          rw [token, next]
          exact marker
        | succ i =>
          rw [token, next]
          exact token_of_ended rfl ended i
      refine ⟨0, ?_, nofun, before, ⟨_, fun i _ => repeats i⟩, ?_⟩
      · unfold Scanner.ahead
        split <;> omega
      · intro i _
        rw [repeats i]
        exact nofun
    · have first : s.token 0 = s.scanner.produce.1 := by rw [token, next]
      have later (i : Nat) : s.token (i + 1) = s.next.2.token i := rfl
      have scanner : s.next.2.scanner = s.scanner.produce.2 := by rw [next]
      have kinds (i : Nat) : s.kindBefore (i + 1) = s.next.2.kindBefore i := by
        cases i with
        | zero =>
          rw [kindBefore, kindBefore, first, scanner]
          exact goesOn.last.symm
        | succ i => rfl
      obtain ⟨n, few, noEnd, before, ⟨location, repeats⟩, alternate⟩ :=
        ih s.next.2.scanner.ahead (by rw [scanner]; exact goesOn.fewer) (s := s.next.2)
          (by rw [next]) (by rw [scanner]; exact goesOn.paced)
          (by rw [scanner]; exact goesOn.running) rfl
      refine ⟨n + 1, ?_, ?_, ?_, ⟨location, ?_⟩, ?_⟩
      · have fewer := goesOn.fewer
        rw [scanner] at few
        omega
      · intro i hi
        cases i with
        | zero =>
          rw [first]
          exact goesOn.inner
        | succ i => exact noEnd i (Nat.lt_of_succ_lt_succ hi)
      · rw [kinds]
        exact before
      · intro i hi
        cases i with
        | zero => cases hi
        | succ i => exact repeats i (Nat.le_of_succ_le_succ hi)
      · intro i hi
        cases i with
        | zero =>
          rw [first]
          exact goesOn.alternates hi
        | succ i =>
          rw [kinds] at hi
          exact alternate i hi

end TokenStream

end BasicLexis
