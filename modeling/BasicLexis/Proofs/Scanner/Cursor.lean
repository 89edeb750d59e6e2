import BasicLexis.Proofs.Scanner.Continuation
import BasicLexis.Proofs.Scanner.Order

set_option autoImplicit false

/-! # The stream as a cursor

A stream produces a token early when somebody looks at it, and it remembers the token that was taken
last, by which the end of a block is found. None of this shows: in whatever order the stream is
asked, it answers like a cursor on one fixed list of tokens, which is the list that comes out when
nobody ever looks ahead.

What a call finds is settled by the place of the cursor. The token at hand is the one before that
place, a token that was looked at is the one at that place, and the scanner is as many tokens from
the start as were produced (`Stands`). One lemma for each call says that the call answers by the
list and keeps this; the rest is by induction on the calls. -/

namespace BasicLexis

namespace TokenStream

/-! ## Calls -/

/-- What a stream can be asked. -/
inductive Call where
  /-- Take the next token. -/
  | next
  /-- Look at the next token. -/
  | peek
  /-- Which token was taken last? -/
  | current
  /-- Take the next token, unless the end marker was taken. -/
  | next?
  /-- Take tokens up to the one after the end of a block. -/
  | skipBlock (keyword : Keyword)
  deriving DecidableEq, Repr

section Answers

variable {σ : Type} [Steering σ]

/-- The answer to a call, and the stream afterwards. -/
def answer (s : TokenStream σ) : Call → Option Token × TokenStream σ
  | .next => (some s.next.1, s.next.2)
  | .peek => (some s.peek.1, s.peek.2)
  | .current => (s.current, s)
  | .next? => s.next?
  | .skipBlock keyword => (some (s.skipBlock keyword).1, (s.skipBlock keyword).2)

/-- The answers to some calls one after the other, and the stream afterwards. -/
def answers (s : TokenStream σ) : List Call → List (Option Token) × TokenStream σ
  | [] => ([], s)
  | call :: calls =>
    let rest := (s.answer call).2.answers calls
    ((s.answer call).1 :: rest.1, rest.2)

end Answers

/-! ## A cursor on a list of tokens -/

section Cursor

variable (tokens : Nat → Token)

/-- The token before a place. -/
def tokenBefore : Nat → Option Token
  | 0 => none
  | place + 1 => some (tokens place)

/-- At a place, the keyword follows `End`. -/
def EndsBlock (keyword : Keyword) (place : Nat) : Prop :=
  (tokens place).kind = .keyword keyword
    ∧ (tokenBefore tokens place).map Token.kind = some (.keyword .End)

/-- From one place up to another, neither the block of the keyword nor the list ends. -/
def InBlock (keyword : Keyword) (place place' : Nat) : Prop :=
  ∀ i, place ≤ i → i < place' → (tokens i).kind ≠ .eof ∧ ¬EndsBlock tokens keyword i

/-- How a cursor answers a call: from its place, with this answer, and then at that place. -/
inductive Answers (place : Nat) : Call → Option Token → Nat → Prop
  | next : Answers place .next (some (tokens place)) (place + 1)
  | peek : Answers place .peek (some (tokens place)) place
  | current : Answers place .current (tokenBefore tokens place) place
  | over (done : (tokenBefore tokens place).any Token.isEof = true) :
    Answers place .next? none place
  | more (inner : (tokenBefore tokens place).any Token.isEof = false) :
    Answers place .next? (some (tokens place)) (place + 1)
  | pastBlock {keyword : Keyword} {i : Nat} (later : place ≤ i)
    (block : InBlock tokens keyword place i) (inner : (tokens i).kind ≠ .eof)
    (ends : EndsBlock tokens keyword i) :
    Answers place (.skipBlock keyword) (some (tokens (i + 1))) (i + 2)
  | toEnd {keyword : Keyword} {i : Nat} (later : place ≤ i)
    (block : InBlock tokens keyword place i) (eof : (tokens i).kind = .eof) :
    Answers place (.skipBlock keyword) (some (tokens i)) (i + 1)

/-- How a cursor answers some calls one after the other. -/
inductive AnswersAll : Nat → List Call → List (Option Token) → Nat → Prop
  | nil {place : Nat} : AnswersAll place [] [] place
  | cons {place place' place'' : Nat} {call : Call} {answer : Option Token} {calls : List Call}
    {answers : List (Option Token)} (first : Answers tokens place call answer place')
    (rest : AnswersAll place' calls answers place'') :
    AnswersAll place (call :: calls) (answer :: answers) place''

variable {tokens} {keyword : Keyword} {place place' : Nat}

theorem InBlock.self : InBlock tokens keyword place place :=
  fun _ le lt => absurd lt (Nat.not_lt.2 le)

theorem InBlock.cons (inner : (tokens place).kind ≠ .eof) (goesOn : ¬EndsBlock tokens keyword place)
    (h : InBlock tokens keyword (place + 1) place') : InBlock tokens keyword place place' := by
  intro i le lt
  rcases Nat.eq_or_lt_of_le le with rfl | less
  · exact ⟨inner, goesOn⟩
  · exact h i less lt

/-- A token inside of the block is skipped. -/
theorem Answers.skip (inner : (tokens place).kind ≠ .eof)
    (goesOn : ¬EndsBlock tokens keyword place) {answer : Option Token}
    (h : Answers tokens (place + 1) (.skipBlock keyword) answer place') :
    Answers tokens place (.skipBlock keyword) answer place' := by
  cases h with
  | pastBlock later block more ends =>
    exact .pastBlock (Nat.le_of_succ_le later) (block.cons inner goesOn) more ends
  | toEnd later block eof => exact .toEnd (Nat.le_of_succ_le later) (block.cons inner goesOn) eof

end Cursor

/-! ## Where the cursor stands -/

variable {σ : Type} [Steering σ]

theorem token_eq_produce {s : TokenStream σ} (h : s.ahead = none) (n : Nat) :
    s.token n = (s.scanner.after n).produce.1 := by
  induction n generalizing s with
  | zero => rw [token, next_of_ahead h, Scanner.after]
  | succ n ih => rw [token, next_of_ahead h, ih rfl, Scanner.produce_after]

/-- Taking the token that was looked at. -/
theorem next_of_some {s : TokenStream σ} {token : Token} (h : s.ahead = some token) :
    s.next = (token, ⟨s.scanner, none, some token⟩) := by
  unfold next
  rw [h]

theorem peek_of_some {s : TokenStream σ} {token : Token} (h : s.ahead = some token) :
    s.peek = (token, s) := by
  unfold peek
  rw [h]

theorem peek_of_none {s : TokenStream σ} (h : s.ahead = none) :
    s.peek = (s.scanner.produce.1,
      ⟨s.scanner.produce.2, some s.scanner.produce.1, s.current⟩) := by
  unfold peek
  rw [h]

theorem skipBlock_eq (keyword : Keyword) (s : TokenStream σ) :
    s.skipBlock keyword
      = if s.next.1.isEof then s.next
        else if s.next.1.kind = .keyword keyword
            ∧ s.current.map Token.kind = some (.keyword .End) then s.next.2.next
        else s.next.2.skipBlock keyword := by
  rw [skipBlock]
  rfl

section Produced

omit [Steering σ]

/-- How many tokens were produced, if the next one to be taken is at this place. -/
def produced (s : TokenStream σ) (place : Nat) : Nat := place + s.ahead.toList.length

theorem le_produced (s : TokenStream σ) (place : Nat) : place ≤ s.produced place :=
  Nat.le_add_right _ _

theorem produced_of_none {s : TokenStream σ} (h : s.ahead = none) (place : Nat) :
    s.produced place = place := by
  rw [produced, h]
  rfl

theorem produced_of_some {s : TokenStream σ} {token : Token} (h : s.ahead = some token)
    (place : Nat) : s.produced place = place + 1 := by
  rw [produced, h]
  rfl

end Produced

/-- The stream came from `origin` by calls after which the cursor stands at this place. -/
structure Stands (origin s : TokenStream σ) (place : Nat) : Prop where
  current : s.current = tokenBefore origin.token place
  ahead : ∀ t, s.ahead = some t → t = origin.token place
  scanner : s.scanner = origin.scanner.after (s.produced place)

/-- What a call does to a stream: where the cursor stands afterwards, that no token is taken back,
    and that the answer is one of the tokens that were produced. -/
structure Answered (origin s s' : TokenStream σ) (place place' : Nat) (answer : Option Token) :
    Prop where
  stands : Stands origin s' place'
  forward : s.produced place ≤ s'.produced place'
  known : ∀ t, answer = some t → ∃ i < s'.produced place', t = origin.token i

section Calls

variable {origin s : TokenStream σ} {place : Nat}

theorem Answered.trans {s' s'' : TokenStream σ} {place' place'' : Nat}
    {answer answer' : Option Token} (h : Answered origin s s' place place' answer)
    (h' : Answered origin s' s'' place' place'' answer') :
    Answered origin s s'' place place'' answer' :=
  ⟨h'.stands, Nat.le_trans h.forward h'.forward, h'.known⟩

theorem stands_start (h : s.ahead = none) (fresh : s.current = none) : Stands s s 0 := by
  refine ⟨fresh, ?_, ?_⟩
  · intro t ht
    rw [h] at ht
    cases ht
  · rw [produced_of_none h, Scanner.after]

/-- The next token is at the place of the cursor, and the scanner is behind it once it is taken. -/
theorem Stands.next_eq (fresh : origin.ahead = none) (h : Stands origin s place) :
    s.next = (origin.token place,
      ⟨origin.scanner.after (place + 1), none, some (origin.token place)⟩) := by
  have scanner := h.scanner
  cases ahead : s.ahead with
  | some token =>
    rw [produced_of_some ahead] at scanner
    rw [next_of_some ahead, h.ahead token ahead, scanner]
  | none =>
    rw [produced_of_none ahead] at scanner
    rw [next_of_ahead ahead, scanner, ← token_eq_produce fresh, Scanner.after]

/-- The same of a token that is looked at. -/
theorem Stands.peek_eq (fresh : origin.ahead = none) (h : Stands origin s place) :
    s.peek = (origin.token place,
      ⟨origin.scanner.after (place + 1), some (origin.token place), s.current⟩) := by
  have scanner := h.scanner
  cases ahead : s.ahead with
  | some token =>
    rw [produced_of_some ahead] at scanner
    rw [peek_of_some ahead, ← scanner, ← h.ahead token ahead, ← ahead]
  | none =>
    rw [produced_of_none ahead] at scanner
    rw [peek_of_none ahead, scanner, ← token_eq_produce fresh, Scanner.after]

omit [Steering σ] in
theorem produced_le_succ (s : TokenStream σ) (place : Nat) : s.produced place ≤ place + 1 := by
  rw [produced]
  cases s.ahead <;> simp

theorem Stands.next (fresh : origin.ahead = none) (h : Stands origin s place) :
    s.next.1 = origin.token place
      ∧ Answered origin s s.next.2 place (place + 1) (some s.next.1) := by
  rw [h.next_eq fresh]
  have produced : produced (⟨origin.scanner.after (place + 1), none, some (origin.token place)⟩ :
      TokenStream σ) (place + 1) = place + 1 := produced_of_none rfl _
  refine ⟨rfl, ⟨rfl, ?_, ?_⟩, ?_, ?_⟩
  · intro t ht
    cases ht
  · rw [produced]
  · rw [produced]
    exact s.produced_le_succ place
  · intro t ht
    rw [produced]
    exact ⟨place, Nat.lt_succ_self _, (Option.some.inj ht).symm⟩

theorem Stands.peek (fresh : origin.ahead = none) (h : Stands origin s place) :
    s.peek.1 = origin.token place
      ∧ Answered origin s s.peek.2 place place (some s.peek.1) := by
  rw [h.peek_eq fresh]
  have produced : produced (⟨origin.scanner.after (place + 1), some (origin.token place),
      s.current⟩ : TokenStream σ) place = place + 1 := produced_of_some rfl _
  refine ⟨rfl, ⟨h.current, ?_, ?_⟩, ?_, ?_⟩
  · intro t ht
    exact (Option.some.inj ht).symm
  · rw [produced]
  · rw [produced]
    exact s.produced_le_succ place
  · intro t ht
    rw [produced]
    exact ⟨place, Nat.lt_succ_self _, (Option.some.inj ht).symm⟩

theorem Stands.skipBlock (fresh : origin.ahead = none) (keyword : Keyword)
    (h : Stands origin s place) :
    ∃ place', Answers origin.token place (.skipBlock keyword) (some (s.skipBlock keyword).1) place'
      ∧ Answered origin s (s.skipBlock keyword).2 place place'
        (some (s.skipBlock keyword).1) := by
  induction work : s.work using Nat.strongRecOn generalizing s place with
  | ind work ih =>
    subst work
    obtain ⟨atPlace, first⟩ := h.next fresh
    rw [skipBlock_eq]
    split
    · next eof =>
      refine ⟨place + 1, ?_, first⟩
      rw [atPlace] at eof ⊢
      exact .toEnd (Nat.le_refl _) .self (eq_of_beq eof)
    · next inner =>
      have more : (origin.token place).kind ≠ .eof := by
        intro eof
        rw [atPlace] at inner
        exact inner (beq_of_eq eof)
      split
      · next ends =>
        obtain ⟨atNext, second⟩ := first.stands.next fresh
        refine ⟨place + 2, ?_, first.trans second⟩
        rw [atPlace, h.current] at ends
        rw [atNext]
        exact .pastBlock (Nat.le_refl _) .self more ends
      · next goesOn =>
        rw [atPlace, h.current] at goesOn
        obtain ⟨place', rest, second⟩ := ih _ (work_next rfl inner) first.stands rfl
        exact ⟨place', rest.skip more goesOn, first.trans second⟩

theorem Stands.next? (fresh : origin.ahead = none) (h : Stands origin s place) :
    ∃ place', Answers origin.token place .next? s.next?.1 place'
      ∧ Answered origin s s.next?.2 place place' s.next?.1 := by
  rw [TokenStream.next?]
  split
  · next done =>
    rw [h.current] at done
    refine ⟨place, .over done, h, Nat.le_refl _, ?_⟩
    intro t ht
    cases ht
  · next inner =>
    rw [h.current, Bool.not_eq_true] at inner
    obtain ⟨atPlace, answered⟩ := h.next fresh
    refine ⟨place + 1, ?_, answered⟩
    dsimp only
    rw [atPlace]
    exact .more inner

/-- The token at hand was produced. -/
theorem Stands.known (h : Stands origin s place) {t : Token} (ht : s.current = some t) :
    ∃ i < s.produced place, t = origin.token i := by
  rw [h.current] at ht
  cases place with
  | zero => cases ht
  | succ place => exact ⟨place, s.le_produced (place + 1), (Option.some.inj ht).symm⟩

/-- **Step lemma.** A call answers by the list of tokens, from where the cursor stands. -/
theorem Stands.answer (fresh : origin.ahead = none) (h : Stands origin s place) (call : Call) :
    ∃ place', Answers origin.token place call (s.answer call).1 place'
      ∧ Answered origin s (s.answer call).2 place place' (s.answer call).1 := by
  cases call with
  | next =>
    obtain ⟨atPlace, answered⟩ := h.next fresh
    refine ⟨place + 1, ?_, answered⟩
    rw [TokenStream.answer, atPlace]
    exact .next
  | peek =>
    obtain ⟨atPlace, answered⟩ := h.peek fresh
    refine ⟨place, ?_, answered⟩
    rw [TokenStream.answer, atPlace]
    exact .peek
  | current =>
    refine ⟨place, ?_, h, Nat.le_refl _, fun t ht => h.known ht⟩
    rw [TokenStream.answer, h.current]
    exact .current
  | next? => exact h.next? fresh
  | skipBlock keyword => exact h.skipBlock fresh keyword

/-- **Run lemma.** Calls answer by the list of tokens. -/
theorem Stands.answers (fresh : origin.ahead = none) (h : Stands origin s place)
    (calls : List Call) :
    ∃ place', AnswersAll origin.token place calls (s.answers calls).1 place'
      ∧ Stands origin (s.answers calls).2 place'
      ∧ s.produced place ≤ (s.answers calls).2.produced place'
      ∧ ∀ t, some t ∈ (s.answers calls).1 →
        ∃ i < (s.answers calls).2.produced place', t = origin.token i := by
  induction calls generalizing s place with
  | nil =>
    refine ⟨place, .nil, h, Nat.le_refl _, ?_⟩
    intro t ht
    cases ht
  | cons call calls ih =>
    obtain ⟨middle, first, answered⟩ := h.answer fresh call
    obtain ⟨place', rest, stands, forward, known⟩ := ih answered.stands
    refine ⟨place', .cons first rest, stands, Nat.le_trans answered.forward forward, ?_⟩
    intro t ht
    rcases List.mem_cons.1 ht with same | later
    · obtain ⟨i, few, atPlace⟩ := answered.known t same.symm
      exact ⟨i, Nat.lt_of_lt_of_le few forward, atPlace⟩
    · exact known t later

end Calls

/-! ## The end marker -/

/-- Once the end marker was produced, the scanner does not change any more. -/
theorem after_eq_of_eof {s : TokenStream σ} (h : s.ahead = none) {i n : Nat}
    (eof : (s.token i).kind = .eof) (produced : i < n) :
    s.scanner.after n = s.scanner.after (i + 1) := by
  have ended : ∃ location, (s.scanner.after (i + 1)).ended = some location := by
    rw [token_eq_produce h] at eof
    rw [Scanner.after]
    generalize s.scanner.after i = scanner at eof ⊢
    cases running : scanner.ended with
    | some location => exact ⟨location, by rw [Scanner.produce_eq_of_ended running, running]⟩
    | none =>
      unfold Scanner.produce at eof ⊢
      rw [running] at eof ⊢
      exact ⟨_, if_pos (beq_of_eq eof)⟩
  obtain ⟨location, ended⟩ := ended
  induction produced with
  | refl => rfl
  | step _ ih => rw [Scanner.after, ih, Scanner.produce_eq_of_ended ended]

/-- A run to the end marker ends where every call is answered by the end marker. -/
theorem Stands.drainAfter {origin s : TokenStream σ} {place : Nat} (fresh : origin.ahead = none)
    (h : Stands origin s place) (taken : Array Token) :
    ∃ i, (origin.token i).kind = .eof
      ∧ (s.drainAfter taken).2.scanner = origin.scanner.after (i + 1) := by
  induction work : s.work using Nat.strongRecOn generalizing s place taken with
  | ind work ih =>
    subst work
    obtain ⟨atPlace, answered⟩ := h.next fresh
    rw [drainAfter_eq]
    split
    · next eof =>
      have kind : (origin.token place).kind = .eof := by
        rw [atPlace] at eof
        exact eq_of_beq eof
      refine ⟨place, kind, ?_⟩
      dsimp only
      rw [answered.stands.scanner]
      exact after_eq_of_eof fresh kind (le_produced _ _)
    · next inner => exact ih _ (work_next rfl inner) answered.stands _ rfl

/-- **A stream is a cursor on one fixed list of tokens.** The list is the one that comes out when
    only next tokens are taken; it ends with an end marker, which repeats. In whatever order a new
    stream is asked, it answers by this list from the first place on. Once an end marker was among
    the answers, the scanner is the one that a plain run to the end marker leaves, with the same
    problems, trivia and tag comments in its journal. -/
theorem answers_by_list (steering : σ) (tags : List String) (source : List Char)
    (calls : List Call) :
    let s := start steering tags source
    (∃ last location, (∀ i < last, (s.token i).kind ≠ .eof)
        ∧ ∀ i ≥ last, s.token i = .endMarker location)
      ∧ (∃ place, AnswersAll s.token 0 calls (s.answers calls).1 place)
      ∧ ∀ t, some t ∈ (s.answers calls).1 → t.kind = .eof →
        (s.answers calls).2.scanner = s.drain.2.scanner := by
  intro s
  have fresh : s.ahead = none := rfl
  have starts : Stands s s 0 := stands_start rfl rfl
  obtain ⟨place, answers, stands, -, known⟩ := starts.answers fresh calls
  refine ⟨?_, ⟨place, answers⟩, ?_⟩
  · obtain ⟨last, -, inner, -, ⟨location, repeats⟩, -⟩ :=
      ends_in_time fresh (Scanner.paced_start steering tags source) rfl
    exact ⟨last, location, inner, repeats⟩
  · intro t ht eof
    obtain ⟨i, produced, rfl⟩ := known t ht
    obtain ⟨j, ends, drained⟩ := starts.drainAfter fresh #[]
    -- both runs have produced an end marker, so they agree from the later of the two on
    have drain : s.drain.2.scanner = s.scanner.after (j + 1) := drained
    have common : i < i + j + 1 ∧ j < i + j + 1 := by omega
    rw [stands.scanner, drain, after_eq_of_eof fresh eof produced,
      ← after_eq_of_eof fresh eof common.1, after_eq_of_eof fresh ends common.2]

/-- `End Sub` is looked at and skipped up to its line end. The end marker comes next, and after it
    nothing is left. -/
theorem answers_by_list_block :
    let s := start (⟨{}⟩ : FixedHints) [] ['E', 'n', 'd', ' ', 'S', 'u', 'b']
    let calls := [Call.peek, .skipBlock .Sub, .current, .next, .next?]
    (s.answers calls).1.map (Option.map Token.kind)
        = [some (.keyword .End), some .eol, some .eol, some .eof, none]
      ∧ some (Token.endMarker ⟨1, 8⟩) ∈ (s.answers calls).1
      ∧ (s.answers calls).2.scanner = s.drain.2.scanner := by
  intro s calls
  have taken : some (Token.endMarker ⟨1, 8⟩) ∈ (s.answers calls).1 := by decide +kernel
  exact ⟨by decide +kernel, taken, (answers_by_list _ _ _ calls).2.2 _ taken rfl⟩

end TokenStream

end BasicLexis
