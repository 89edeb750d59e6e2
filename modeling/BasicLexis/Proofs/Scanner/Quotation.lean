import BasicLexis.Proofs.Piece.Alone
import BasicLexis.Proofs.Scanner.Twin

set_option autoImplicit false

/-! # Strings that are read back

A string is written between quotation marks, with the quotation marks inside of it doubled. Whether
a quotation mark ends the string is decided by the one character after it, so that a run of them is
paired off from its beginning: the doubled ones come in pairs, and the closing one is the one that
is left over. This is why what follows the string may start with anything but a quotation mark.

`readAt_spelled` is the induction on the text, for every kind of literal whose closing character is
doubled inside. The letter after the closing mark, which makes a character of the string, is looked
at only when the inside is complete. -/

namespace BasicLexis

open Reader

/-! ## The inside -/

namespace Enclosure

variable {e : Enclosure} {text rest : List Char}

/-- A text as it is written inside a literal: each closing character stands twice. -/
def spelled (e : Enclosure) (text : List Char) : List Char :=
  text.flatMap fun c => if c = e.close then [c, c] else [c]

/-- The inside of a literal is read to the closing character, and nothing is found in it. -/
theorem readAt_spelled (doubles : e.doubles = true)
    (inline : ∀ c ∈ text, Text.isLineEnd c = false) (ends : rest.head? ≠ some e.close)
    {r : Reader} (written : r.rest = e.spelled text ++ e.close :: rest) (content : List Char)
    (found : List Diagnostic) :
    ∃ stop : Reader, stop.rest = rest
      ∧ e.readAt r content found = ⟨content.reverse ++ text, true, found.reverse, stop⟩ := by
  induction text generalizing r content with
  | nil =>
    have ahead : r.peek = some e.close := by simp [peek, written, spelled]
    have after : r.skip.rest = rest := by simp [rest_skip, written, spelled]
    have single : r.skip.peek ≠ some e.close := by rwa [peek, after]
    refine ⟨r.skip, after, ?_⟩
    rw [readAt_eq]
    simp [ahead, single]
  | cons c cs ih =>
    simp only [List.forall_mem_cons] at inline
    by_cases close : c = e.close
    · have pair : r.rest = e.close :: e.close :: (e.spelled cs ++ e.close :: rest) := by
        simp [written, spelled, close]
      have ahead : r.peek = some e.close := by simp [peek, pair]
      have second : r.skip.peek = some e.close := by simp [peek, rest_skip, pair]
      obtain ⟨stop, after, read⟩ := ih (r := r.skip.skip) inline.2
        (by simp [rest_skip, pair]) (e.close :: content)
      refine ⟨stop, after, ?_⟩
      rw [readAt_eq]
      simp [ahead, second, doubles, read, close]
    · have single : r.rest = c :: (e.spelled cs ++ e.close :: rest) := by
        simp [written, spelled, close]
      have ahead : r.peek = some c := by simp [peek, single]
      have noLineEnd : r.skip.finishLineEnd? c = none := by
        simp only [Text.isLineEnd, Bool.or_eq_false_iff, beq_eq_false_iff_ne] at inline
        simp [finishLineEnd?, inline]
      obtain ⟨stop, after, read⟩ := ih (r := r.skip) inline.2
        (by simp [rest_skip, single]) (c :: content)
      refine ⟨stop, after, ?_⟩
      rw [readAt_eq]
      simp [ahead, close, noLineEnd, read]

end Enclosure

/-- A text as a string literal. -/
def quoted (text : List Char) : List Char := '"' :: (Enclosure.string.spelled text ++ ['"'])

/-! ## The literal -/

namespace Piece

variable {text rest : List Char}

/-- What is made of a quoted text, with or without the letter that makes a character of it. -/
theorem string_quoted (inline : ∀ c ∈ text, Text.isLineEnd c = false)
    (short : text.length ≤ Limits.maxStringSize) (ends : rest.head? ≠ some '"') {start : Reader}
    (written : start.rest = quoted text ++ rest) :
    ∃ stop : Reader, start.Reaches stop ∧ stop.rest = rest
      ∧ string start start.skip = if stop.peekIs isCharacterMark then
          character start stop.skip text []
        else
          literal .literalString start stop (.string (String.ofList text)) .stringLiteral [] := by
  have inside : start.skip.rest = Enclosure.string.spelled text ++ '"' :: rest := by
    simp [rest_skip, written, quoted]
  obtain ⟨stop, after, read⟩ := Enclosure.readAt_spelled rfl inline ends inside [] []
  have read : Enclosure.string.read start.skip = ⟨text, true, [], stop⟩ := read
  have reaches := start.reaches_skip.trans (Enclosure.string.reaches_read start.skip)
  rw [read] at reaches
  refine ⟨stop, reaches, after, ?_⟩
  unfold string
  simp only [read, Nat.not_lt.2 short, if_false, if_true, List.map_nil, List.append_nil,
    Bool.true_and]
  rfl

/-- A quotation mark outside of XML literals starts a string. -/
theorem next_quote {start : Reader} (ahead : start.peek = some '"') (s : Setting) {m : XmlMode}
    (outside : m.active = false) :
    next s m '"' start start.skip = (string start start.skip, m) := by
  have noNumber : Numeral.startsAt start = false := by
    simp only [Numeral.startsAt, ahead]
    rfl
  have piece : standard s m '"' start start.skip = (string start start.skip, m) := by
    rw [standard, if_neg (by simp), if_neg (by simp)]
    rfl
  simp [next, outside, noNumber, piece]

end Piece

/-- A section after a complete XML literal starts with markup. -/
theorem XmlMode.trailing?_of_quote {r : Reader} (ahead : r.peek = some '"') (m : XmlMode) :
    m.trailing? r = none := by
  have here : r.skipWhile Text.isMarkupBlank = r :=
    skipWhile_of_false (by simp [peekIs, ahead, Text.isMarkupBlank])
  unfold trailing?
  split
  · simp [here, eatText?, rest_of_peek ahead]
  · rfl

/-! ## The token -/

namespace Scanner

variable {σ : Type} [Steering σ]

/-- The next token of a scanner is this literal, from the place of the scanner to the place where it
    goes on, and nothing is reported about it. -/
structure ProducesLiteral (s : Scanner σ) (l : Lexeme) (rest : List Char) : Prop where
  lexeme : s.produce.1.lexeme = l
  start : s.produce.1.start = s.reader.location
  stop : s.produce.1.stop = s.produce.2.reader.location
  reaches : s.reader.Reaches s.produce.2.reader
  rest : s.produce.2.reader.rest = rest
  diagnostics : s.produce.2.journal.diagnostics = s.journal.diagnostics

theorem diagnostics_tell (s : Scanner σ) (t : Token) :
    (s.tell t).journal.diagnostics = s.journal.diagnostics := by
  obtain ⟨told, journal, aside⟩ := s.exists_aside_tell t
  have noProblem : told.filterMap Entry.diagnostic? = [] :=
    List.filterMap_eq_nil_iff.2 fun e mem => (aside e mem).1
  apply Array.toList_inj.1
  simp [Journal.diagnostics, journal, noProblem]

/-- The literal at the quotation mark that a scanner stands on is the next token. -/
theorem producesLiteral_of_string {s : Scanner σ} (running : s.ended = none)
    (noneWaits : s.queue = []) (outside : s.mode.leave.active = false)
    (ahead : s.reader.peek = some '"') {kind : TokenKind} {stop : Reader} {value : LiteralValue}
    {format : LiteralFormat} (reaches : s.reader.Reaches stop)
    (piece : Piece.string s.reader s.reader.skip
      = Piece.literal kind s.reader stop value format []) :
    s.ProducesLiteral ⟨kind, String.ofList (s.reader.textTo stop), value, format⟩ stop.rest := by
  have read : s.reader.read? = some ('"', s.reader.skip) := read?_of_peek ahead
  have step : s.step = (some (Numeral.literal s.reader stop kind value format),
      s.accept (Piece.literal kind s.reader stop value format []) s.mode.leave) := by
    simp only [Scanner.step, XmlMode.trailing?_of_quote ahead, read,
      Piece.next_quote ahead s.setting outside, piece]
    rfl
  have produced := produce_eq_of_nil running noneWaits
  rw [lex_of_token step] at produced
  refine ⟨?_, ?_, ?_, ?_, ?_, ?_⟩
  · rw [produced]; rfl
  · rw [produced]; rfl
  · rw [produced]; rfl
  · rw [produced]; exact reaches
  · rw [produced]; rfl
  · rw [produced, diagnostics_tell]
    simp [Scanner.accept, Piece.literal]

variable {s : Scanner σ} {text rest : List Char}

/-- **Strings are read back.** Whatever steers the scanner, where the next token is to be read
    outside of XML literals and a quoted text stands there that no further quotation mark follows,
    the next token is a string with this text, or a character if it is a single one and the letter
    follows. The token goes up to the closing mark or this letter, the scanner goes on right after
    it, and nothing is reported. -/
theorem quoted_read_back (running : s.ended = none) (noneWaits : s.queue = [])
    (outside : s.mode.leave.active = false) (written : s.reader.rest = quoted text ++ rest)
    (inline : ∀ c ∈ text, c ≠ '\n' ∧ c ≠ '\r') (short : text.length ≤ Limits.maxStringSize)
    (ends : rest.head? ≠ some '"') :
    (rest.head? ≠ some 'c' → rest.head? ≠ some 'C' →
      s.ProducesLiteral
        { kind := .literalString, text := String.ofList (quoted text)
          value := .string (String.ofList text), format := .stringLiteral } rest)
    ∧ ∀ (c mark : Char) (more : List Char), text = [c] → rest = mark :: more →
      mark = 'c' ∨ mark = 'C' →
      s.ProducesLiteral
        { kind := .literalCharacter, text := String.ofList (quoted text ++ [mark])
          value := .char c, format := .charLiteral } more := by
  have ahead : s.reader.peek = some '"' := by simp [peek, written, quoted]
  have noLineEnd : ∀ c ∈ text, Text.isLineEnd c = false := by
    intro c mem
    simp [Text.isLineEnd, inline c mem]
  obtain ⟨stop, reaches, after, piece⟩ := Piece.string_quoted noLineEnd short ends written
  refine ⟨fun noSmall noCapital => ?_, fun c mark more single follows letter => ?_⟩
  · have plain : ¬stop.peekIs Piece.isCharacterMark = true := by
      cases rest <;> simp_all [peekIs, peek, Piece.isCharacterMark]
    rw [if_neg plain] at piece
    have found := producesLiteral_of_string running noneWaits outside ahead reaches piece
    rwa [reaches.textTo_eq (by rw [written, after]), after] at found
  · have next : stop.peek = some mark := by simp [peek, after, follows]
    have marked : stop.peekIs Piece.isCharacterMark = true := by
      simpa [peekIs, next, Piece.isCharacterMark] using letter
    rw [if_pos marked, single] at piece
    have further := reaches.trans stop.reaches_skip
    have left : stop.skip.rest = more := by rw [rest_skip, after, follows, List.tail_cons]
    have found := producesLiteral_of_string running noneWaits outside ahead further piece
    rwa [further.textTo_eq (by rw [written, left, follows, List.append_cons]), left] at found

/-- Of four quotation marks the two inner ones are one, with the letter a character and without it a
    string; of six the four inner ones are two. -/
theorem quoted_read_back_marks :
    (Scanner.start (σ := Classifier) {} [] ['"', '"', '"', '"', 'c']).ProducesLiteral
        { kind := .literalCharacter, text := String.ofList ['"', '"', '"', '"', 'c']
          value := .char '"', format := .charLiteral } []
      ∧ (Scanner.start (σ := Classifier) {} [] ['"', '"', '"', '"', '"', '"', 'x']).ProducesLiteral
        { kind := .literalString, text := String.ofList ['"', '"', '"', '"', '"', '"']
          value := .string (String.ofList ['"', '"']), format := .stringLiteral } ['x'] := by
  have one := @quoted_read_back Classifier _ (Scanner.start {} [] ['"', '"', '"', '"', 'c']) ['"']
    ['c'] rfl rfl rfl rfl (by simp) (by decide) (by decide)
  have two := @quoted_read_back Classifier _
    (Scanner.start {} [] ['"', '"', '"', '"', '"', '"', 'x']) ['"', '"'] ['x'] rfl rfl rfl rfl
    (by simp) (by decide) (by decide)
  exact ⟨one.2 '"' 'c' [] rfl rfl (.inl rfl), two.1 (by decide) (by decide)⟩

end Scanner

end BasicLexis
