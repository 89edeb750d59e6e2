import BasicLexis.Proofs.Markup.Literal

set_option autoImplicit false

/-! # XML literals are read back

A variable is declared with an XML literal as its value. Whatever the literal is, the tokens of the
declaration are those that the structure of the element calls for, in order and with their texts and
values, and neither the scanner nor the classifier has anything to note about it. -/

namespace BasicLexis.Markup

open Classifier Config

/-- The declaration of a variable with a literal as its value, on a line of its own. -/
def declaration (e : Element) : List Char := "Dim x = ".toList ++ (e.print ++ ['\n'])

/-- The tokens of the declaration. -/
def declarationLexemes (e : Element) : List Lexeme :=
  .word (.keyword .Dim) ['D', 'i', 'm'] :: .word .identifier ['x'] :: .symbol .assign
    :: (e.lexemes ++ [.symbol .eol])

def variableName : Identifier where
  first := 'x'
  others := []
  starts := .inl (by decide)
  word := nofun
  noKeyword := by decide +kernel
  short := by decide

/-- The frames of a source outside of all declarations. -/
def ground : List Frame := [.declarations { scope := .unit }, .bottom]

theorem at_start (tags : List String) (text : List Char) :
    At ⟨text, {}, ground, true⟩ (Scanner.start ({} : Classifier) tags text) :=
  ⟨rfl, rfl, rfl, rfl, rfl, ⟨rfl, rfl, rfl⟩, rfl, rfl, rfl, rfl⟩

/-- The keyword that opens the declaration. -/
theorem yields_dim (cs : List Char) :
    Yields ⟨'D' :: 'i' :: 'm' :: ' ' :: cs, {}, ground, true⟩
      [.word (.keyword .Dim) ['D', 'i', 'm']]
      { text := ' ' :: cs, mode := {}, stack := .declarators .start :: ground } := by
  refine yields_piece rfl (fun _ _ => rfl) ?_ nofun rfl
  intro tags n l₁ l₂
  have keyword : Keyword.ofWord? ['D', 'i', 'm'] = some .Dim := by decide +kernel
  have stops : ∀ c, (' ' :: cs).head? = some c → Text.isWordChar c = false := by
    intro c hc
    cases hc
    decide
  have letters : ∀ c ∈ ['i', 'm'], Text.isWordChar c = true := List.all_eq_true.1 (by decide)
  obtain ⟨l₃, run⟩ := Reader.skipRun_append letters stops (n + 1) l₂
  have text := Reader.textTo_run 'D' ['i', 'm'] (' ' :: cs) n l₁ l₃
  show ReadsAs (Piece.next ⟨{}, true, tags⟩ ⟨false, []⟩ _ _ _) _ _ _
  rw [Piece.next_of_outside _ rfl, Piece.standard_of_plain _ (by decide) (by decide)]
  have word : Piece.plain ⟨{}, true, tags⟩ 'D' ⟨'D' :: 'i' :: 'm' :: ' ' :: cs, n, l₁⟩
      ⟨'i' :: 'm' :: ' ' :: cs, n + 1, l₂⟩
      = Piece.word (.keyword .Dim) ⟨'D' :: 'i' :: 'm' :: ' ' :: cs, n, l₁⟩
        ⟨' ' :: cs, n + 1 + 2, l₃⟩ ['D', 'i', 'm'] [] := by
    rw [Piece.plain_of_letter _ (by decide)]
    simp only [List.cons_append, List.nil_append, List.length_cons, List.length_nil] at run text
    simp only [Piece.letters, Bool.false_eq_true, if_false, Reader.skipWhile, run, text,
      Piece.wordEnd_space, keyword]
    rfl
  rw [word]
  exact ⟨Piece.reads_word _ _ _ _, rfl⟩

theorem yields_variable (cs : List Char) :
    Yields { text := 'x' :: ' ' :: cs, mode := {}, stack := .declarators .start :: ground }
      [.word .identifier ['x']]
      { text := ' ' :: cs, mode := {}, stack := .declarators .afterName :: ground } :=
  yields_piece rfl (fun _ _ => rfl)
    (fun tags n l₁ l₂ => Piece.readsAs_identifier ⟨{}, false, tags⟩ n l₁ l₂ variableName cs [] rfl)
    nofun rfl

/-- The equals sign, after which the classifier waits for an operand. -/
theorem yields_assign (cs : List Char) :
    Yields { text := '=' :: cs, mode := {}, stack := .declarators .afterName :: ground }
      [.symbol .assign] (operand [] false true (.declarators .afterName :: ground) cs) :=
  yields_piece rfl (fun _ _ => rfl) (fun _ _ _ _ => ⟨⟨rfl, rfl, rfl, rfl⟩, rfl⟩) nofun rfl

/-- The end of the line after the literal. The scanner leaves the literal, and the classifier ends
    all that the declaration opened. -/
theorem yields_lineEnd :
    (inside {} [] (.expression ⟨.suffix, true, true⟩ :: .declarators .afterName :: ground)
      ['\n']).Yields [.symbol .eol] ⟨[], {}, ground, true⟩ :=
  yields_piece rfl (fun _ _ => rfl)
    (fun tags n l₁ l₂ => Piece.readsAs_lineEnd ⟨_, false, tags⟩ n l₁ l₂ rfl) nofun rfl

theorem declaration_yields (e : Element) (nested : e.nesting < Limits.maxXmlNesting)
    (room : 5 + e.frames < Limits.maxFrameDepth) :
    Yields ⟨declaration e, {}, ground, true⟩ (declarationLexemes e) ⟨[], {}, ground, true⟩ := by
  have literal : (operand [] false true (.declarators .afterName :: ground)
      (e.print ++ ['\n'])).Yields e.lexemes
      (inside {} [] (.expression ⟨.suffix, true, true⟩ :: .declarators .afterName :: ground)
        ['\n']) := by
    refine yields_literal e (by decide) (by decide) (e.yields (Int.le_refl 0) ?_ ?_ _)
    · rw [List.length_nil, Nat.zero_add]
      exact nested
    · exact room
  have text : declaration e
      = 'D' :: 'i' :: 'm' :: ' ' :: 'x' :: ' ' :: '=' :: ' ' :: (e.print ++ ['\n']) := rfl
  rw [text]
  refine (yields_dim _).trans ?_
  refine .skipping (skips_between _ _ _) ((yields_variable _).trans ?_) nofun
  refine .skipping (skips_between _ _ _) ((yields_assign _).trans ?_) nofun
  exact .skipping (skips_between _ _ _) (literal.trans yields_lineEnd) (by simp)

/-! ## The end of the source -/

/-- Outside of all declarations, the classifier has nothing to say about the end of the source. -/
theorem inform_end {c : Classifier} (stack : c.stack = ground) (location : Location) :
    ((c.inform (some (.endMarker location))).state.inform none).state.errors = c.errors
      ∧ ((c.inform (some (.endMarker location))).state.inform none).state.stack = ground
      ∧ (c.inform (some (.endMarker location))).events = []
      ∧ ((c.inform (some (.endMarker location))).state.inform none).events = [] := by
  obtain ⟨frames, blocks, errors, pendingEnd, pendingNext, endStatement, lastLocation⟩ := c
  dsimp only at stack
  subst stack
  exact ⟨rfl, rfl, rfl, rfl⟩

/-- After a line end the end marker follows, and nothing is noted. -/
theorem produce_end {s : Scanner Classifier} (h : At ⟨[], {}, ground, true⟩ s)
    (last : s.last = some .eol) :
    s.produce.1.isEof = true ∧ s.produce.1.lexeme = .symbol .eof ∧ s.produce.2.journal = #[]
      ∧ s.produce.2.steering.errors = #[] ∧ s.produce.2.mode = {}
      ∧ s.produce.2.steering.stack = ground := by
  have read : s.reader.read? = none := by
    unfold Reader.read?
    rw [h.text]
  have step : s.step
      = (some (.endMarker s.reader.location), { s with mode := {}, freshLine := false }) := by
    have outside (r : Reader) : XmlMode.trailing? {} r = none := rfl
    have token : s.endToken = .endMarker s.reader.location := if_pos last
    unfold Scanner.step
    rw [h.mode, outside, read, token]
    rfl
  obtain ⟨same, grounded, silent, silent'⟩ := inform_end h.stack s.reader.location
  -- the same facts, in the terms of a scanner that does not know what steers it
  have taken : (Steering.inform s.steering (some (.endMarker s.reader.location))).events = [] :=
    silent
  have asked : (Steering.inform (Steering.inform s.steering
      (some (.endMarker s.reader.location))).state none).events = [] := silent'
  have noErrors : Steering.errors (Steering.inform (Steering.inform s.steering
      (some (.endMarker s.reader.location))).state none).state = #[] := same.trans h.errors
  rw [produce_of_lex h (Scanner.lex_of_token step)]
  refine ⟨rfl, rfl, ?_, noErrors, rfl, grounded⟩
  simp [Scanner.tell, Scanner.noteMisplaced, taken, asked, noErrors, h.journal]

/-- **Literals are read back.** If the nesting of the literals and the depth of the stack stay below
    their limits (the declaration and the outermost literal take five frames), the tokens of the
    declaration are the keyword, the variable, the equals sign, those of the element, the line end
    and the end marker, and nothing is noted. In the end the scanner is outside of all literals, and
    the classifier outside of all declarations. -/
theorem literal_read_back (e : Element) (tags : List String)
    (nested : e.nesting < Limits.maxXmlNesting) (room : 5 + e.frames < Limits.maxFrameDepth) :
    let read := (TokenStream.start ({} : Classifier) tags (declaration e)).drain
    read.1.toList.map Token.lexeme = declarationLexemes e ++ [.symbol .eof]
      ∧ read.2.scanner.journal = #[] ∧ read.2.scanner.steering.errors = #[]
      ∧ read.2.scanner.mode = {} ∧ read.2.scanner.steering.stack = ground := by
  obtain ⟨s, gives, stands⟩ :=
    declaration_yields e nested room _ (at_start tags (declaration e))
  have last : (declarationLexemes e).getLast? = some (.symbol .eol) := by
    simp only [declarationLexemes, ← List.cons_append, List.getLast?_concat]
  obtain ⟨ends, marker, journal, errors, mode, grounded⟩ := produce_end stands (gives.last last)
  obtain ⟨tokens, scanner⟩ := TokenStream.drainAfter_of_gives gives ends #[] none
  intro read
  have same : read.2.scanner = s.produce.2 := scanner
  rw [marker] at tokens
  refine ⟨tokens, ?_⟩
  rw [same]
  exact ⟨journal, errors, mode, grounded⟩

/-- A literal with all kinds of contents. -/
def sample : Element :=
  let inner : Element := .empty ⟨'b', ['1'], by decide, List.forall_mem_singleton.2 (by decide)⟩ []
  .full ⟨'a', [], by decide, nofun⟩
    [⟨⟨'k', [], by decide, nofun⟩, ['<'], List.forall_mem_singleton.2 (by decide),
      List.forall_mem_singleton.2 (by decide)⟩]
    (.cons (some ⟨'t', [], List.forall_mem_singleton.2 (by decide)⟩) (.element inner)
      (.cons none (.comment ['-', '<'] (by decide))
        (.cons none (.cdata [']', ']', 'd'] (by decide))
          (.cons none (.embedded (.element inner))
            (.cons (some ⟨'%', [], List.forall_mem_singleton.2 (by decide)⟩)
              (.embedded (.identifier variableName)) (.last none))))))
    ⟨'a', [], by decide, nofun⟩

theorem literal_read_back_sample :
    declaration sample =
        "Dim x = <a k=\"<\">t<b1/><!---<--><![CDATA[]]d]]><%= <b1/> %>%<%= x %></a>\n".toList
      ∧ (let read := (TokenStream.start ({} : Classifier) [] (declaration sample)).drain
        read.1.toList.map Token.lexeme = declarationLexemes sample ++ [.symbol .eof]
          ∧ read.2.scanner.journal = #[] ∧ read.2.scanner.steering.errors = #[]
          ∧ read.2.scanner.mode = {} ∧ read.2.scanner.steering.stack = ground) :=
  ⟨by decide +kernel, literal_read_back sample [] (by decide +kernel) (by decide +kernel)⟩

end BasicLexis.Markup
