import BasicLexis.Proofs.Classifier.AfterOperand
import BasicLexis.Proofs.Scanner.Stream
import BasicLexis.Proofs.Scanner.Turns

set_option autoImplicit false

/-! # Scanners that the classifier steers

Whatever the source, the classifier of a scanner is in a state that a new classifier can come to,
and the scanner goes by the hints that the classifier gave after the latest token. `Steered` is this
and what is known of the tokens that wait in the queue. From it follows that a less-than sign right
after a name is an operator, as long as no token waits in the queue that was read before the
name. -/

namespace BasicLexis

/-! ## What waits in the queue -/

/-- What waits after a piece is no markup. -/
theorem Piece.queued_next_ordinary (s : Setting) (m : XmlMode) (c : Char) (start r : Reader) :
    ∀ t, (next s m c start r).1.queued = some t → t.kind.isXml = false := by
  have single {p : Piece} (alone : p.queued = none) :
      ∀ t, p.queued = some t → t.kind.isXml = false := by
    intro t ht
    rw [alone] at ht
    cases ht
  unfold next standard
  split
  · exact single (queued_read m c start r)
  split
  · exact (Numeral.ordinary_scan start).dot
  split
  · exact single rfl
  split
  · split
    · exact single (queued_afterAngle _ _ _)
    · exact single (queued_operator _ _ _)
  · exact (ordinary_plain s c start r).queued

namespace Scanner

/-- No token that waits in the queue is markup. -/
def QueueOrdinary {σ : Type} (s : Scanner σ) : Prop := ∀ t ∈ s.queue, t.kind.isXml = false

theorem QueueOrdinary.step {σ : Type} {s s' : Scanner σ} {token : Option Token}
    (h : s.QueueOrdinary) (step : s.step = (token, s')) : s'.QueueOrdinary := by
  have accepted (piece : Piece) (mode : XmlMode)
      (queued : ∀ t, piece.queued = some t → t.kind.isXml = false) :
      (s.accept piece mode).QueueOrdinary := by
    intro t ht
    rcases List.mem_append.1 ht with old | new
    · exact h t old
    · exact queued t (Option.mem_toList.1 new)
  unfold Scanner.step at step
  split at step
  · next piece trailing =>
    obtain ⟨-, rfl⟩ := Prod.mk.inj step
    refine accepted piece _ fun t ht => ?_
    rw [(regular_of_trailing? s.freshLine trailing).2] at ht
    cases ht
  · dsimp only at step
    split at step
    · obtain ⟨-, rfl⟩ := Prod.mk.inj step
      exact h
    · obtain ⟨-, rfl⟩ := Prod.mk.inj step
      exact accepted _ _ (Piece.queued_next_ordinary _ _ _ _ _)

theorem QueueOrdinary.lex {σ : Type} {s : Scanner σ} (h : s.QueueOrdinary) :
    s.lex.2.QueueOrdinary := by
  fun_induction Scanner.lex s with
  | case1 s token s' step => exact h.step step
  | case2 s s' step ih => exact ih (h.step step)

/-! ## Runs -/

/-- The scanner after so many tokens. -/
def after {σ : Type} [Steering σ] (s : Scanner σ) : Nat → Scanner σ
  | 0 => s
  | n + 1 => (s.after n).produce.2

/-- The scanner goes by the hints of its classifier, which is in a state that a new one can come
    to. -/
structure Steered (s : Scanner Classifier) : Prop where
  reachable : Classifier.Reachable s.steering
  asked : ∃ c : Classifier, c.Reachable ∧ s.steering = (c.inform none).state
    ∧ s.hints = (c.inform none).hints
  told : ∀ kind, s.last = some kind →
    ∃ (c : Classifier) (t : Token), c.Reachable ∧ t.kind = kind ∧ s.hints = (c.ask t).hints
  running : s.last ≠ some .eof → s.ended = none
  queue : s.QueueOrdinary

theorem steered_start (tags : List String) (source : List Char) :
    (start ({} : Classifier) tags source).Steered := by
  refine ⟨Classifier.Reachable.new.inform none, ⟨{}, .new, rfl, rfl⟩, ?_, fun _ => rfl, ?_⟩
  · intro kind last
    cases last
  · intro t waits
    cases waits

/-- What producing a token does to a scanner that goes on: the token has its turn, and the
    classifier is told and asked. -/
structure Produced (s : Scanner Classifier) (t : Token) (s' : Scanner Classifier) : Prop where
  turn : (s.mode.active = true → s.queue = []) → Turn s.hints s.last s.mode t.kind s'.mode
  steering : s'.steering = (s.steering.ask t).state
  hints : s'.hints = (s.steering.ask t).hints
  last : s'.last = some t.kind
  running : t.kind ≠ .eof → s'.ended = none
  queue : s.QueueOrdinary → s'.QueueOrdinary

theorem produced {s : Scanner Classifier} (h : s.QueueOrdinary) (running : s.ended = none) :
    Produced s s.produce.1 s.produce.2 := by
  have goesOn (s : Scanner Classifier) (t : Token) (inner : t.kind ≠ .eof) :
      (s.tell t).ended = none := by
    simp [tell, noteMisplaced, Token.isEof, inner]
  unfold produce advance
  rw [running]
  dsimp only
  cases waiting : s.queue with
  | cons t queue =>
    have plain : t.kind.isXml = false := h t (by simp [waiting])
    refine ⟨fun alone => ?_, rfl, rfl, rfl, goesOn _ t, fun _ u mem => h u ?_⟩
    · -- a token from the queue is ordinary, and it does not come out inside a literal
      have outside : s.mode.active = false := by
        cases active : s.mode.active with
        | false => rfl
        | true =>
          have empty := alone active
          rw [waiting] at empty
          cases empty
      have stays := XmlMode.leave_of_inactive outside
      have turn : Turn s.hints s.last s.mode t.kind s.mode.leave :=
        .ordinary (by rw [stays]; exact outside) plain
      rw [stays] at turn
      exact turn
    · rw [waiting]
      exact .tail _ mem
  | nil =>
    obtain ⟨turn, steering, hints, last, ended⟩ := turn_lex s
    refine ⟨fun _ => turn, ?_, ?_, rfl, goesOn _ _, fun h => h.lex⟩
    · rw [← steering]
      rfl
    · rw [← steering]
      rfl

/-- At its end the scanner stays as it is. -/
theorem produce_of_ended {s : Scanner Classifier} {location : Location}
    (ended : s.ended = some location) : s.produce.2 = s := by
  unfold produce
  rw [ended]

theorem Steered.produce {s : Scanner Classifier} (h : s.Steered) : s.produce.2.Steered := by
  cases ended : s.ended with
  | some location =>
    rw [produce_of_ended ended]
    exact h
  | none =>
    obtain ⟨-, steering, hints, last, running, queue⟩ := produced h.queue ended
    have told := h.reachable.inform (some s.produce.1)
    refine ⟨?_, ⟨_, told, steering, hints⟩, ?_, ?_, queue h.queue⟩
    · rw [steering]
      exact told.inform none
    · intro kind hk
      rw [last] at hk
      cases hk
      exact ⟨_, _, h.reachable, rfl, hints⟩
    · rw [last]
      exact fun inner => running fun eof => inner (congrArg some eof)

theorem steered_after (tags : List String) (source : List Char) (n : Nat) :
    ((start ({} : Classifier) tags source).after n).Steered := by
  induction n with
  | zero => exact steered_start tags source
  | succ n ih => exact ih.produce

/-! ## Less-than signs after names -/

/-- The operators that start with a less-than sign. -/
def isLessOperator : TokenKind → Bool
  | .less | .lessEqual | .notEqual | .shiftLeft | .shiftLeftAssign => true
  | _ => false

/-- After a name there are no hints. -/
theorem Steered.hints_of_name {s : Scanner Classifier} (h : s.Steered)
    (last : s.last = some .identifier) : s.hints = {} := by
  obtain ⟨c, t, reachable, name, hints⟩ := h.told _ last
  have shut := Classifier.shuts_ask reachable (t := t) (by rw [name]; rfl)
  rw [name, ← hints] at shut
  exact Classifier.eq_of_shuts_identifier shut

/-- Without hints, a less-than sign outside of XML literals is an operator. -/
theorem next_less {s : Setting} (noHints : s.hints = {}) {m : XmlMode} (outside : m.active = false)
    (cs : List Char) (k : Nat) (l : Location) (r : Reader) :
    Piece.next s m '<' ⟨'<' :: cs, k, l⟩ r
      = (Piece.symbol (Piece.afterLess r).1 ⟨'<' :: cs, k, l⟩ (Piece.afterLess r).2, m) := by
  have noNumeral : Numeral.startsAt ⟨'<' :: cs, k, l⟩ = false := by
    simp [Numeral.startsAt, Reader.peek]
    decide
  have noMarkup : ¬('<' = '<' ∧ s.xmlMayStart = true) := by
    rw [Setting.xmlMayStart, noHints]
    decide
  rw [Piece.next, outside, noNumeral, Piece.standard, if_neg (by decide), if_neg (by decide),
    if_neg (by simp), if_neg noMarkup]
  rfl

/-- The token of a scanner that reads a less-than sign without hints and outside of XML literals. -/
theorem produce_less {s : Scanner Classifier} (running : s.ended = none) (alone : s.queue = [])
    (noHints : s.hints = {}) (outside : s.mode.active = false) {cs : List Char}
    (text : s.reader.rest = '<' :: cs) :
    ∃ r, s.produce.1
        = .symbol (Piece.afterLess r).1 s.reader.location (Piece.afterLess r).2.location
      ∧ s.produce.2.mode = s.mode := by
  obtain ⟨k, l, place⟩ : ∃ k l, s.reader = ⟨'<' :: cs, k, l⟩ :=
    ⟨s.reader.position, s.reader.location, by rw [← text]⟩
  have trailing : s.mode.trailing? s.reader = none := by
    unfold XmlMode.trailing? XmlMode.isComplete
    rw [outside]
    rfl
  have read : s.reader.read? = some ('<', s.reader.skip) := by
    rw [place]
    rfl
  have next := next_less (s := s.setting) noHints outside cs k l s.reader.skip
  rw [← place] at next
  have step : s.step = (some (.symbol (Piece.afterLess s.reader.skip).1 s.reader.location
        (Piece.afterLess s.reader.skip).2.location),
      s.accept (Piece.symbol (Piece.afterLess s.reader.skip).1 s.reader
        (Piece.afterLess s.reader.skip).2) s.mode) := by
    unfold Scanner.step
    rw [trailing, read, XmlMode.leave_of_inactive outside]
    dsimp only
    rw [next]
    rfl
  refine ⟨s.reader.skip, ?_⟩
  unfold produce advance
  rw [running, alone]
  dsimp only
  rw [lex_of_token step]
  exact ⟨rfl, rfl⟩

theorem isLessOperator_afterLess (r : Reader) : isLessOperator (Piece.afterLess r).1 = true := by
  unfold Piece.afterLess Piece.orAssign
  repeat' split
  all_goals rfl

/-- **A less-than sign right after a name is an operator.** Whatever tokens a new classifier is fed,
    it gives no hint after a name, and after a literal none that lets an XML literal or an XML name
    start. So for every source, outside of XML literals the token after a name is no markup, except
    for the mark that ends an embedded expression; and if the name is followed by a less-than sign
    and no token waits in the queue, the next token is an operator that starts with the sign. -/
theorem less_after_name_is_operator (tokens : List Token) (t : Token) (tags : List String)
    (source : List Char) (n : Nat) :
    (t.kind = .identifier → (({} : Classifier).feed (tokens ++ [t])).hints = {})
    ∧ (t.kind.isLiteral = true →
      (({} : Classifier).feed (tokens ++ [t])).hints.xmlMayStart = false
        ∧ (({} : Classifier).feed (tokens ++ [t])).hints.xmlNameNext = false)
    ∧ let s := (start ({} : Classifier) tags source).after n
      s.last = some .identifier → s.mode.active = false →
        (s.produce.1.kind.isXml = true → s.produce.1.kind = .xmlExpressionEnd)
        ∧ (s.queue = [] → ∀ cs, s.reader.rest = '<' :: cs →
          isLessOperator s.produce.1.kind = true ∧ s.produce.1.start = s.reader.location
            ∧ s.produce.2.mode = s.mode) := by
  have reachable := Classifier.Reachable.new.feed tokens
  refine ⟨?_, ?_, ?_⟩
  · intro name
    have shut := Classifier.shuts_ask reachable (t := t) (by rw [name]; rfl)
    rw [Classifier.feed_append_singleton]
    rw [name] at shut
    exact Classifier.eq_of_shuts_identifier shut
  · intro literal
    have shut := Classifier.shuts_ask reachable (t := t)
      (by simp [Classifier.isOperandToken, literal])
    rw [Classifier.feed_append_singleton]
    simp only [Classifier.shuts, Bool.and_eq_true, Bool.not_eq_true'] at shut
    exact shut.1
  · intro s name outside
    have steered : s.Steered := steered_after tags source n
    have noHints := steered.hints_of_name name
    have running : s.ended = none := steered.running (by rw [name]; exact nofun)
    refine ⟨?_, ?_⟩
    · intro xml
      have turn := (produced steered.queue running).turn (by rw [outside]; exact nofun)
      exact turn.xml_of_outside outside (by rw [noHints]; rfl) xml
    · intro alone cs text
      obtain ⟨r, token, mode⟩ := produce_less running alone noHints outside text
      rw [token]
      exact ⟨isLessOperator_afterLess r, rfl, mode⟩

/-- In `[a]<b`, the sign is read as a comparison. No hint follows the name in `Dim a`, and none that
    lets an XML literal start follows the number in `Return 1`. -/
theorem less_after_name_is_operator_comparison :
    let s := (start ({} : Classifier) [] ['[', 'a', ']', '<', 'b']).after 1
    (s.last = some .identifier ∧ s.mode.active = false ∧ s.queue = []
      ∧ s.reader.rest = ['<', 'b'])
    ∧ isLessOperator s.produce.1.kind = true
    ∧ (({} : Classifier).feed
        (Classifier.spell [.keyword .Dim] ++ [.symbol .identifier .start .start])).hints = {}
    ∧ (({} : Classifier).feed (Classifier.spell [.keyword .Return]
        ++ [.symbol .literalInteger .start .start])).hints.xmlMayStart = false := by
  intro s
  have place : s.last = some .identifier ∧ s.mode.active = false ∧ s.queue = []
      ∧ s.reader.rest = ['<', 'b'] := by decide +kernel
  obtain ⟨last, outside, alone, text⟩ := place
  obtain ⟨name, -, scanner⟩ := less_after_name_is_operator (Classifier.spell [.keyword .Dim])
    (.symbol .identifier .start .start) [] ['[', 'a', ']', '<', 'b'] 1
  obtain ⟨-, literal, -⟩ := less_after_name_is_operator (Classifier.spell [.keyword .Return])
    (.symbol .literalInteger .start .start) [] [] 0
  exact ⟨⟨last, outside, alone, text⟩, ((scanner last outside).2 alone _ text).1, name rfl,
    (literal rfl).1⟩

end Scanner

end BasicLexis
