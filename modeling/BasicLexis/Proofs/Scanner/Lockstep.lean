import BasicLexis.Proofs.Classifier.Feed
import BasicLexis.TokenStream

set_option autoImplicit false

/-! # Scanner and classifier in lockstep

A scanner that is steered by the classifier is two machines in one. The scanner reads the text and
keeps the XML literals that are open; the classifier follows the tokens on a stack of its own and
says how the next one is to be read. As long as neither finds anything to note, a *configuration*
says all there is to know about the two: the text to come, the mode of the scanner and the stack of
the classifier.

`Config.Yields` says that a configuration produces some tokens and leads to another. It is built
from single pieces by `yields_piece`, which asks about the scanner's part and the classifier's part
separately, and from silent pieces by `Config.Yields.skipping`. -/

namespace BasicLexis

/-- A token without its place. -/
structure Lexeme where
  kind : TokenKind
  text : String
  value : LiteralValue := .none
  format : LiteralFormat := .none
  deriving DecidableEq, Repr

namespace Lexeme

/-- A token whose text follows from its kind. -/
def symbol (kind : TokenKind) : Lexeme := { kind, text := kind.symbol?.getD "" }

/-- A token with the given text. -/
def word (kind : TokenKind) (text : List Char) : Lexeme := { kind, text := String.ofList text }

end Lexeme

def Token.lexeme (t : Token) : Lexeme := ⟨t.kind, t.text, t.value, t.format⟩

/-! ## Single pieces -/

/-- The piece is a single token, about which there is nothing to note. -/
structure Piece.Reads (p : Piece) (l : Lexeme) (text : List Char) : Prop where
  token : p.token.map Token.lexeme = some l
  queued : p.queued = none
  entries : p.entries = []
  rest : p.rest.rest = text

/-- The piece has no token, and there is nothing to note about it. -/
structure Piece.Skips (p : Piece) (text : List Char) : Prop where
  token : p.token = none
  queued : p.queued = none
  entries : p.entries = []
  rest : p.rest.rest = text

/-- The stack after a token, once its top frame waits for the next one, if all frames on the way
    find room. -/
def Classifier.passWithin? (kind : TokenKind) (stack : List Frame) : Option (List Frame) :=
  (walk? (some Limits.maxFrameDepth) kind 8 stack).bind (rest? (some Limits.maxFrameDepth) 8)

/-! ## Configurations -/

/-- Where a scanner and the classifier that steers it stand. -/
structure Config where
  /-- The text to come. -/
  text : List Char
  /-- The XML literals that the scanner has open. -/
  mode : XmlMode
  /-- The classifier's stack. -/
  stack : List Classifier.Frame
  /-- No token precedes the text on its line. -/
  fresh : Bool := false

namespace Config

open Classifier

/-- The hints of the frame on top. -/
def hints (c : Config) : Hints := c.stack.head?.elim {} Classifier.Frame.hints

/-- The scanner and its classifier stand as the configuration says, with nothing noted so far and
    nothing pending. -/
structure At (c : Config) (s : Scanner Classifier) : Prop where
  text : s.reader.rest = c.text
  mode : s.mode = c.mode
  stack : s.steering.stack = c.stack
  fresh : s.freshLine = c.fresh
  hints : s.hints = c.hints
  quiet : Classifier.Quiet s.steering
  errors : s.steering.errors = #[]
  queue : s.queue = []
  running : s.ended = none
  journal : s.journal = #[]

theorem At.accept_token {c : Config} {s : Scanner Classifier} (h : c.At s) {piece : Piece}
    {l : Lexeme} {text : List Char} (reads : piece.Reads l text) (mode : XmlMode) :
    At ⟨text, mode, c.stack, l.kind == .eol⟩ (s.accept piece mode) := by
  obtain ⟨t, ht, rfl⟩ := Option.map_eq_some_iff.1 reads.token
  refine ⟨reads.rest, rfl, h.stack, ?_, h.hints, h.quiet, h.errors, ?_, h.running, ?_⟩
  · simp [Scanner.accept, ht, Token.lexeme]
  · simp [Scanner.accept, h.queue, reads.queued]
  · simp [Scanner.accept, h.journal, reads.entries]

theorem At.accept_silent {c : Config} {s : Scanner Classifier} (h : c.At s) {piece : Piece}
    {text : List Char} (skips : piece.Skips text) (mode : XmlMode) :
    At ⟨text, mode, c.stack, c.fresh⟩ (s.accept piece mode) := by
  refine ⟨skips.rest, rfl, h.stack, ?_, h.hints, h.quiet, h.errors, ?_, h.running, ?_⟩
  · simp [Scanner.accept, skips.token, h.fresh]
  · simp [Scanner.accept, h.queue, skips.queued]
  · simp [Scanner.accept, h.journal, skips.entries]

/-- Telling a token moves the classifier's stack and nothing else. -/
theorem At.tell {c : Config} {s : Scanner Classifier} (h : c.At s) {t : Token}
    (notEnd : t.kind ≠ .eof) {stack : List Classifier.Frame}
    (passed : passWithin? t.kind c.stack = some stack) :
    At { c with stack } (s.tell t) := by
  obtain ⟨walked, hwalk, hrest⟩ := Option.bind_eq_some_iff.1 passed
  have few : 8 ≤ Limits.maxEpsilonSteps := by decide
  have quiet : Classifier.Quiet { s.steering with lastLocation := t.start } :=
    ⟨h.quiet.1, h.quiet.2, h.quiet.3⟩
  rw [← h.stack] at hwalk
  -- the token is offered to the frames, and then the one on top settles
  obtain ⟨stacked, same, silent⟩ := Classifier.offerToken_of_walk? notEnd quiet hwalk few
  rw [← stacked] at hrest
  cases stack with
  | nil => exact absurd hrest Classifier.rest?_ne_nil
  | cons f below =>
    obtain ⟨stacked', same', hints, silent'⟩ := Classifier.settle_of_rest? hrest few
    have noErrors : Steering.errors
        (Steering.inform (Steering.inform s.steering (some t)).state none).state = #[] :=
      same'.errors.trans (same.errors.trans h.errors)
    have taken : (Steering.inform s.steering (some t)).events = [] := silent
    have asked : (Steering.inform (Steering.inform s.steering (some t)).state none).events = [] :=
      silent'
    refine ⟨h.text, h.mode, stacked', h.fresh, hints, ?_, noErrors, h.queue, ?_, ?_⟩
    · exact same'.quiet (same.quiet quiet)
    · simp [Scanner.tell, Scanner.noteMisplaced, Token.isEof, notEnd]
    · simp [Scanner.tell, Scanner.noteMisplaced, taken, asked, noErrors, h.journal]

/-! ## Producing tokens -/

end Config

namespace Scanner

/-- The scanner produces these tokens one after the other, none of which is the end marker. -/
inductive Gives : Scanner Classifier → List Lexeme → Scanner Classifier → Prop where
  | nil (s : Scanner Classifier) : Gives s [] s
  | cons {s s' : Scanner Classifier} {l : Lexeme} {ls : List Lexeme}
      (token : s.produce.1.lexeme = l) (notEnd : l.kind ≠ .eof) (rest : Gives s.produce.2 ls s') :
      Gives s (l :: ls) s'

theorem Gives.append {s s' s'' : Scanner Classifier} {front back : List Lexeme}
    (h : Gives s front s') (h' : Gives s' back s'') : Gives s (front ++ back) s'' := by
  induction h with
  | nil => exact h'
  | cons token notEnd _ ih => exact .cons token notEnd (ih h')

/-- What a scanner produces depends only on what it produces next. -/
theorem Gives.of_produce {s s' s'' : Scanner Classifier} {l : Lexeme} {ls : List Lexeme}
    (h : Gives s' (l :: ls) s'') (same : s.produce = s'.produce) : Gives s (l :: ls) s'' := by
  cases h with
  | cons token notEnd rest =>
    rw [← same] at token rest
    exact .cons token notEnd rest

theorem last_produce {s : Scanner Classifier} (h : s.produce.1.kind ≠ .eof) :
    s.produce.2.last = some s.produce.1.kind := by
  unfold produce at h ⊢
  split
  · next location ended =>
    rw [ended] at h
    exact absurd rfl h
  · rfl

/-- The scanner keeps the kind of the token that it produced last. -/
theorem Gives.last {s s' : Scanner Classifier} {ls : List Lexeme} {l : Lexeme}
    (h : Gives s ls s') (last : ls.getLast? = some l) : s'.last = some l.kind := by
  induction h with
  | nil => cases last
  | @cons s s' l' ls token notEnd rest ih =>
    subst token
    cases rest with
    | nil =>
      cases last
      exact last_produce notEnd
    | cons => exact ih (by rwa [List.getLast?_cons_cons] at last)

theorem lex_of_token {σ : Type} {s s' : Scanner σ} {t : Token} (h : s.step = (some t, s')) :
    s.lex = (t, s') := by
  rw [lex]
  split
  · next heq =>
    rw [h] at heq
    cases heq
    rfl
  · next heq =>
    rw [h] at heq
    cases heq

theorem lex_of_silent {σ : Type} {s s' : Scanner σ} (h : s.step = (none, s')) :
    s.lex = s'.lex := by
  rw [lex]
  split
  · next heq =>
    rw [h] at heq
    cases heq
  · next heq =>
    rw [h] at heq
    cases heq
    rfl

end Scanner

namespace Config

open Classifier

/-- From the first configuration on, the tokens are produced, and lead to the second one. -/
def Yields (c : Config) (ls : List Lexeme) (c' : Config) : Prop :=
  ∀ s, c.At s → ∃ s', Scanner.Gives s ls s' ∧ c'.At s'

/-- In the first configuration the same is produced as in the second one. -/
def Skips (c c' : Config) : Prop :=
  ∀ s, c.At s → ∃ s', c'.At s' ∧ s.produce = s'.produce

theorem Yields.refl (c : Config) : c.Yields [] c := fun s h => ⟨s, .nil s, h⟩

theorem Yields.trans {a b c : Config} {front back : List Lexeme} (h : a.Yields front b)
    (h' : b.Yields back c) : a.Yields (front ++ back) c := by
  intro s hs
  obtain ⟨s', gives, hs'⟩ := h s hs
  obtain ⟨s'', gives', hs''⟩ := h' s' hs'
  exact ⟨s'', gives.append gives', hs''⟩

theorem Yields.skipping {a b c : Config} {ls : List Lexeme} (skips : a.Skips b)
    (h : b.Yields ls c) (some_ : ls ≠ []) : a.Yields ls c := by
  intro s hs
  obtain ⟨s', hs', same⟩ := skips s hs
  obtain ⟨s'', gives, hs''⟩ := h s' hs'
  cases ls with
  | nil => exact absurd rfl some_
  | cons l ls => exact ⟨s'', gives.of_produce same, hs''⟩

/-- The next piece of a text, which may be at any place of the source, unless it still belongs to a
    literal that is complete. -/
theorem step_of_text {c : Config} {s : Scanner Classifier} (h : c.At s) {ch : Char}
    {cs : List Char} (text : c.text = ch :: cs)
    (leaves : ∀ (n : Nat) (l : Location), c.mode.trailing? ⟨ch :: cs, n, l⟩ = none) :
    ∃ (n : Nat) (l l' : Location),
      s.step = ((Piece.next ⟨c.hints, c.fresh, s.tags⟩ c.mode.leave ch ⟨ch :: cs, n, l⟩
          ⟨cs, n + 1, l'⟩).1.token,
        s.accept (Piece.next ⟨c.hints, c.fresh, s.tags⟩ c.mode.leave ch ⟨ch :: cs, n, l⟩
            ⟨cs, n + 1, l'⟩).1
          (Piece.next ⟨c.hints, c.fresh, s.tags⟩ c.mode.leave ch ⟨ch :: cs, n, l⟩
            ⟨cs, n + 1, l'⟩).2) := by
  obtain ⟨n, l, place⟩ : ∃ n l, s.reader = ⟨ch :: cs, n, l⟩ := by
    refine ⟨s.reader.position, s.reader.location, ?_⟩
    rw [← text, ← h.text]
  refine ⟨n, l, l.after ch cs.head?, ?_⟩
  unfold Scanner.step Scanner.setting
  rw [h.mode, h.hints, h.fresh, place, leaves n l]
  rfl

theorem produce_of_lex {s : Scanner Classifier} {c : Config} (h : c.At s) {t : Token}
    {s' : Scanner Classifier} (lexed : s.lex = (t, s')) : s.produce = (t, s'.tell t) := by
  unfold Scanner.produce Scanner.advance
  rw [h.running, h.queue]
  dsimp only
  rw [lexed]

/-- The piece is a token and leads to the mode. -/
def ReadsAs (next : Piece × XmlMode) (l : Lexeme) (text : List Char) (mode : XmlMode) : Prop :=
  next.1.Reads l text ∧ next.2 = mode

/-- The piece has no token and leads to the mode. -/
def SkipsAs (next : Piece × XmlMode) (text : List Char) (mode : XmlMode) : Prop :=
  next.1.Skips text ∧ next.2 = mode

/-- A piece that is a token, for the scanner and for the classifier. -/
theorem yields_piece {c : Config} {ch : Char} {cs : List Char} (text : c.text = ch :: cs)
    (leaves : ∀ (n : Nat) (l : Location), c.mode.trailing? ⟨ch :: cs, n, l⟩ = none)
    {l : Lexeme} {text' : List Char} {mode : XmlMode} {stack : List Frame}
    (reads : ∀ (tags : List String) (n : Nat) (l₁ l₂ : Location),
      ReadsAs (Piece.next ⟨c.hints, c.fresh, tags⟩ c.mode.leave ch ⟨ch :: cs, n, l₁⟩
        ⟨cs, n + 1, l₂⟩) l text' mode)
    (notEnd : l.kind ≠ .eof) (passed : passWithin? l.kind c.stack = some stack) :
    c.Yields [l] ⟨text', mode, stack, l.kind == .eol⟩ := by
  intro s h
  obtain ⟨n, l₁, l₂, step⟩ := step_of_text h text leaves
  obtain ⟨piece, rfl⟩ := reads s.tags n l₁ l₂
  obtain ⟨t, token, rfl⟩ := Option.map_eq_some_iff.1 piece.token
  rw [token] at step
  have produced := produce_of_lex h (Scanner.lex_of_token step)
  refine ⟨s.produce.2, ?_, ?_⟩
  · refine .cons ?_ notEnd (.nil _)
    rw [produced]
  · rw [produced]
    exact (h.accept_token piece _).tell notEnd passed

theorem skips_piece {c : Config} {ch : Char} {cs : List Char} (text : c.text = ch :: cs)
    (leaves : ∀ (n : Nat) (l : Location), c.mode.trailing? ⟨ch :: cs, n, l⟩ = none)
    {text' : List Char} {mode : XmlMode}
    (skips : ∀ (tags : List String) (n : Nat) (l₁ l₂ : Location),
      SkipsAs (Piece.next ⟨c.hints, c.fresh, tags⟩ c.mode.leave ch ⟨ch :: cs, n, l₁⟩
        ⟨cs, n + 1, l₂⟩) text' mode) :
    c.Skips { c with text := text', mode } := by
  intro s h
  obtain ⟨n, l₁, l₂, step⟩ := step_of_text h text leaves
  obtain ⟨piece, rfl⟩ := skips s.tags n l₁ l₂
  rw [piece.token] at step
  have accepted := h.accept_silent piece
    (Piece.next ⟨c.hints, c.fresh, s.tags⟩ c.mode.leave ch ⟨ch :: cs, n, l₁⟩ ⟨cs, n + 1, l₂⟩).2
  refine ⟨_, accepted, ?_⟩
  rw [produce_of_lex h (Scanner.lex_of_silent step), produce_of_lex accepted rfl]

end Config

/-! ## Whole streams -/

/-- The tokens of a stream are those that its scanner produces up to the end marker. -/
theorem TokenStream.drainAfter_of_gives {s s' : Scanner Classifier} {ls : List Lexeme}
    (h : Scanner.Gives s ls s') (ends : s'.produce.1.isEof = true) (taken : Array Token)
    (current : Option Token) :
    ((TokenStream.mk s none current).drainAfter taken).1.toList.map Token.lexeme
        = taken.toList.map Token.lexeme ++ (ls ++ [s'.produce.1.lexeme])
      ∧ ((TokenStream.mk s none current).drainAfter taken).2.scanner = s'.produce.2 := by
  induction h generalizing taken current with
  | nil s =>
    rw [drainAfter]
    simp [next, ends]
  | @cons s s' l ls token notEnd rest ih =>
    rw [drainAfter]
    have more : s.produce.1.isEof = false := by
      subst token
      simpa [Token.isEof, Token.lexeme] using notEnd
    simp [next, more, ih ends, token]

end BasicLexis
