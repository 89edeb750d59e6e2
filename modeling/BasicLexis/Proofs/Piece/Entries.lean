import BasicLexis.Proofs.Piece.Spans

set_option autoImplicit false

/-! # What pieces have to note

The entries of a piece come from many readers of tokens and trivia. `Entry.ArisesFrom` says of all of
them at once what they can be: a problem of the text, a blank line, a comment, a tag comment or a
directive with the span that it is recorded with, or the note that XML literals are nested too
deeply. A place looked at from an earlier one can only have the same entries. -/

namespace BasicLexis

open Reader

/-! ## Entries -/

/-- The problem lies in the text itself, not in the number of its tokens. -/
def Problem.IsOfText (p : Problem) : Prop := ∀ count, p ≠ .tooManyTokens count

/-- What a piece that starts at a place or after it can have to note. -/
inductive Entry.ArisesFrom (r : Reader) : Entry → Prop where
  | problem {d : Diagnostic} (ofText : d.problem.IsOfText) : ArisesFrom r (.problem d)
  | blankLine (l : Location) : ArisesFrom r (.trivia (.blankLine l))
  | comment {c : Comment} (spans : c.SpansText r) : ArisesFrom r (.trivia (.comment c))
  | directive {d : Directive} (spans : d.SpansLength r) : ArisesFrom r (.trivia (.directive d))
  | tagged {t : TagComment} (spans : t.SpansText r) : ArisesFrom r (.tagged t)
  | nesting {event : LogEvent} (depth : Nat) (note : .event event = Piece.nestingLimit depth) :
    ArisesFrom r (.event event)

section Reaches

variable {r r' : Reader}

theorem Comment.SpansText.of_reaches {c : Comment} (h : c.SpansText r') (reaches : r.Reaches r') :
    c.SpansText r := by
  obtain ⟨text, covers, quotes⟩ := h
  exact ⟨text, covers.of_reaches reaches, quotes⟩

theorem Directive.SpansLength.of_reaches {d : Directive} (h : d.SpansLength r')
    (reaches : r.Reaches r') : d.SpansLength r := by
  obtain ⟨whole, blanks, name, gap, spelled, length, same⟩ := h
  exact ⟨whole, blanks, name, gap, { spelled with covers := spelled.covers.of_reaches reaches },
    length, same⟩

theorem Entry.ArisesFrom.of_reaches {e : Entry} (h : e.ArisesFrom r') (reaches : r.Reaches r') :
    e.ArisesFrom r := by
  cases h with
  | problem ofText => exact .problem ofText
  | blankLine l => exact .blankLine l
  | comment spans => exact .comment (spans.of_reaches reaches)
  | directive spans => exact .directive (spans.of_reaches reaches)
  | tagged spans => exact .tagged (Span.Covers.of_reaches spans reaches)
  | nesting depth note => exact .nesting depth note

end Reaches

/-! ## Problems -/

namespace Numeral

variable {start stop r : Reader}

theorem ofText_integerSuffix (r : Reader) : ∀ d ∈ (integerSuffix r).2.2, d.problem.IsOfText := by
  unfold integerSuffix
  repeat' split
  any_goals exact List.forall_mem_nil _
  exact List.forall_mem_singleton.2 nofun

theorem ofText_integer (radix : Radix) (digits : List Char) (type : Option IntegerType)
    {diagnostics : List Diagnostic} (h : ∀ d ∈ diagnostics, d.problem.IsOfText) :
    ∀ d ∈ (integer start stop radix digits type diagnostics).diagnostics,
      d.problem.IsOfText := by
  unfold integer
  split
  · exact h
  · refine List.forall_mem_append.2 ⟨h, List.forall_mem_singleton.2 ?_⟩
    dsimp only
    split <;> nofun

theorem ofText_real (parts : Parts) (type : RealType) :
    ∀ d ∈ (real start stop parts type).diagnostics, d.problem.IsOfText := by
  have overflow (condition : Bool) : ∀ d ∈ (if condition then []
      else [⟨start.location, .numberOverflow parts.text⟩] : List Diagnostic),
      d.problem.IsOfText := by
    cases condition with
    | true => exact List.forall_mem_nil _
    | false => exact List.forall_mem_singleton.2 nofun
  unfold real
  cases type with
  | double => exact overflow _
  | single => exact overflow _
  | decimal =>
    dsimp only
    split
    · exact overflow _
    · exact List.forall_mem_singleton.2 nofun

theorem ofText_radixInteger (start r : Reader) :
    ∀ d ∈ (radixInteger start r).diagnostics, d.problem.IsOfText := by
  unfold radixInteger
  generalize (if r.peekIs fun c => c == 'H' || c == 'h' then Radix.hexadecimal else .octal) = radix
  dsimp only
  split
  · exact List.forall_mem_singleton.2 nofun
  · exact ofText_integer _ _ _ (ofText_integerSuffix _)

theorem ofText_tail (integral fraction : List Char) :
    ∀ d ∈ (tail start r integral fraction).diagnostics, d.problem.IsOfText := by
  unfold tail
  dsimp only
  split
  · exact ofText_real _ _
  · split
    · exact ofText_integer _ _ _ (ofText_integerSuffix _)
    · exact ofText_real _ _

theorem ofText_decimal (start : Reader) :
    ∀ d ∈ (decimal start).diagnostics, d.problem.IsOfText := by
  unfold decimal
  dsimp only
  split
  · split
    · exact ofText_tail _ _
    · split
      · exact ofText_integer _ _ _ nofun
      · exact ofText_tail _ _
  · exact ofText_tail _ _

theorem ofText_scan (start : Reader) : ∀ d ∈ (scan start).diagnostics, d.problem.IsOfText := by
  unfold scan
  split
  · exact ofText_radixInteger _ _
  · exact ofText_decimal _

end Numeral

theorem Enclosure.problem_readFrom (e : Enclosure) (cs : List Char) (n : Nat) (l : Location)
    (content : List Char) (found : List Diagnostic) :
    ∀ d ∈ (e.readFrom cs n l content found).found, d ∈ found ∨ d.problem = e.lineEnd := by
  fun_induction Enclosure.readFrom e cs n l content found with
  | case1 | case3 | case4 => exact fun d hd => .inl (List.mem_reverse.1 hd)
  | case2 _ _ _ _ _ _ _ ih => exact ih
  | case9 _ _ _ _ _ _ _ _ _ ih => exact ih
  | case5 _ _ _ _ _ _ ih | case6 _ _ _ _ _ _ _ _ ih | case7 _ _ _ _ _ ih
  | case8 _ _ _ _ _ _ _ ih =>
    intro d hd
    rcases ih d hd with older | here
    · rcases List.mem_cons.1 older with rfl | older
      · exact .inr rfl
      · exact .inl older
    · exact .inr here

/-- All that is noted inside of a literal is the line ends. -/
theorem Enclosure.problem_read (e : Enclosure) (r : Reader) :
    ∀ d ∈ (e.read r).found, d.problem = e.lineEnd := by
  intro d hd
  exact (e.problem_readFrom r.rest r.position r.location [] [] d hd).resolve_left (by simp)

theorem Enclosure.ofText_string : string.lineEnd.IsOfText :=
  (nofun : Problem.newlineInString.IsOfText)

theorem Enclosure.ofText_date : date.lineEnd.IsOfText :=
  (nofun : Problem.newlineInDate.IsOfText)

theorem Problem.isOfText_unterminatedString : Problem.unterminatedString.IsOfText :=
  nofun

/-! ## The entries of pieces -/

namespace Piece

variable {start r : Reader}

theorem arises_nil : ∀ e ∈ ([] : List Entry), e.ArisesFrom start := by simp

theorem arises_append {a b : List Entry} (ha : ∀ e ∈ a, e.ArisesFrom start)
    (hb : ∀ e ∈ b, e.ArisesFrom start) : ∀ e ∈ a ++ b, e.ArisesFrom start :=
  List.forall_mem_append.2 ⟨ha, hb⟩

theorem arises_problem (l : Location) {p : Problem} (ofText : p.IsOfText) :
    ∀ e ∈ [problem l p], e.ArisesFrom start :=
  List.forall_mem_singleton.2 (.problem ofText)

/-- A problem that is reported on a condition. -/
theorem arises_if {condition : Prop} [Decidable condition] (l : Location) {p : Problem}
    (ofText : p.IsOfText) :
    ∀ e ∈ if condition then [problem l p] else [], e.ArisesFrom start := by
  split
  · exact arises_problem l ofText
  · exact arises_nil

/-- A problem that is reported unless a condition holds. -/
theorem arises_unless {condition : Prop} [Decidable condition] (l : Location) {p : Problem}
    (ofText : p.IsOfText) :
    ∀ e ∈ if condition then [] else [problem l p], e.ArisesFrom start := by
  split
  · exact arises_nil
  · exact arises_problem l ofText

theorem arises_diagnostics {diagnostics : List Diagnostic}
    (h : ∀ d ∈ diagnostics, d.problem.IsOfText) :
    ∀ e ∈ diagnostics.map Entry.problem, e.ArisesFrom start := by
  intro e he
  obtain ⟨d, hd, rfl⟩ := List.mem_map.1 he
  exact .problem (h d hd)

theorem arises_inside (e : Enclosure) (ofText : e.lineEnd.IsOfText) (r : Reader) :
    ∀ entry ∈ (e.read r).found.map Entry.problem, entry.ArisesFrom start := by
  refine arises_diagnostics fun d hd => ?_
  rw [e.problem_read r d hd]
  exact ofText

theorem arises_checkNameLength (first : Reader) (name : List Char) :
    ∀ e ∈ checkNameLength first name, e.ArisesFrom start :=
  arises_if _ nofun

/-! ### Literals and directives -/

theorem arises_character (rest : Reader) (content : List Char) {entries : List Entry}
    (h : ∀ e ∈ entries, e.ArisesFrom start) :
    ∀ e ∈ (character start rest content entries).entries, e.ArisesFrom start := by
  unfold character
  split
  · exact h
  · exact arises_append h (arises_problem _ nofun)

theorem arises_string (start r : Reader) :
    ∀ e ∈ (string start r).entries, e.ArisesFrom start := by
  unfold string
  dsimp only
  split
  · exact arises_character _ _ (arises_append (arises_append (arises_inside _ Enclosure.ofText_string r)
      (arises_unless _ nofun)) (arises_if _ nofun))
  · exact arises_append (arises_append (arises_inside _ Enclosure.ofText_string r) (arises_unless _ nofun))
      (arises_if _ nofun)

theorem arises_date (start r : Reader) : ∀ e ∈ (date start r).entries, e.ArisesFrom start := by
  unfold date
  dsimp only
  split
  · exact arises_append (arises_inside _ Enclosure.ofText_date r) (arises_unless _ nofun)
  · exact arises_append (arises_append (arises_inside _ Enclosure.ofText_date r) (arises_unless _ nofun))
      (arises_problem _ nofun)

theorem arises_numberSign (s : Setting) (ahead : start.peek = some '#') :
    ∀ e ∈ (numberSign s start start.skip).entries, e.ArisesFrom start := by
  have blanks := Over.skipWhile Text.isInlineBlank start.skip
  unfold numberSign
  dsimp only
  split
  · exact arises_date _ _
  · obtain ⟨d, entries, spans⟩ := spansLength_directive s ahead blanks
    rw [entries]
    exact List.forall_mem_singleton.2 (.directive spans)

/-! ### Comments and words -/

theorem arises_comment {quoted : Bool} {mark : Option Token}
    (introduced : Comment.Introduced start quoted mark r) (s : Setting)
    (plain : quoted = false → start.peekIs Text.isCommentQuote = false) :
    ∀ e ∈ (comment s quoted start r).entries, e.ArisesFrom start := by
  obtain ⟨c, tagged, entries, tells, span, -, tags⟩ := entries_comment s quoted start r
  rw [entries]
  refine arises_append (arises_append ?_ (arises_if _ nofun)) ?_
  · intro e he
    obtain ⟨t, ht, rfl⟩ := List.mem_map.1 he
    obtain ⟨before, tells, span⟩ := tags t (Option.mem_toList.1 ht)
    exact .tagged (Span.Covers.of_reaches (tells.spansText span)
      (start.reaches_skip.trans introduced.reaches))
  · exact List.forall_mem_singleton.2 (.comment (spansText_comment introduced plain tells span))

theorem arises_name (s : Setting) (start r : Reader) :
    ∀ e ∈ (name s start r).entries, e.ArisesFrom start := by
  unfold name
  split
  · exact arises_nil
  · exact arises_checkNameLength _ _

theorem arises_letters (s : Setting) (noQuote : start.peekIs Text.isCommentQuote = false) :
    ∀ e ∈ (letters s start start.skip).entries, e.ArisesFrom start := by
  unfold letters
  split
  · exact arises_name _ _ _
  · have inner := reaches_skipWhile Text.isWordChar start.skip
    dsimp only
    split
    · next noMark spells =>
      -- the line of the comment starts after the exclamation mark, if one is read with the keyword
      cases shape_wordEnd (start.skip.skipWhile Text.isWordChar) with
      | plain rest mark access =>
        rw [rest]
        exact arises_comment (.keyword inner spells) s fun _ => noQuote
      | marked ahead rest mark access =>
        rw [mark] at noMark
        cases noMark
      | access ahead rest mark access =>
        rw [rest]
        exact arises_comment (.access inner spells ahead) s fun _ => noQuote
    · exact arises_nil
    · exact arises_name _ _ _

theorem arises_bracketed (start r : Reader) :
    ∀ e ∈ (bracketed start r).entries, e.ArisesFrom start := by
  refine arises_append (arises_append (arises_unless _ nofun) ?_) (arises_checkNameLength _ _)
  split
  · exact arises_nil
  · exact arises_problem _ nofun

/-! ### Layout and operators -/

theorem arises_blank (s : Setting) (c : Char) (start r : Reader) :
    ∀ e ∈ (blank s c start r).entries, e.ArisesFrom start := by
  unfold blank
  split
  · dsimp only [endOfLine]
    split
    · exact List.forall_mem_singleton.2 (.blankLine _)
    · exact arises_nil
  · exact arises_nil

theorem arises_continuation (r : Reader) :
    ∀ e ∈ (continuation r).entries, e.ArisesFrom start := by
  unfold continuation
  dsimp only
  split
  · exact arises_problem _ nofun
  · split
    · exact arises_nil
    · exact arises_problem _ nofun

theorem arises_underscore (s : Setting) (start r : Reader) :
    ∀ e ∈ (underscore s start r).entries, e.ArisesFrom start := by
  unfold underscore
  split
  · exact arises_name _ _ _
  · exact arises_continuation _

theorem arises_operator (c : Char) (start r : Reader) :
    ∀ e ∈ (operator c start r).entries, e.ArisesFrom start := by
  unfold operator
  split
  · exact arises_nil
  · exact arises_problem _ nofun

/-! ### XML literals -/

theorem arises_sectionTo (kind : TokenKind) (close : List Char) (first r : Reader) :
    ∀ e ∈ (sectionTo kind close first r).entries, e.ArisesFrom start := by
  unfold sectionTo
  split
  · exact arises_nil
  · exact arises_problem _ nofun

theorem arises_markupSection (first r : Reader) :
    ∀ e ∈ (markupSection first r).entries, e.ArisesFrom start := by
  unfold markupSection
  split
  · exact arises_sectionTo _ _ _ _
  · split
    · exact arises_sectionTo _ _ _ _
    · exact arises_problem _ nofun

theorem arises_afterAngle (f : MarkupFrame) (start r : Reader) :
    ∀ e ∈ (afterAngle f start r).piece.entries, e.ArisesFrom start := by
  unfold afterAngle
  split
  · exact arises_nil
  · exact arises_nil
  · exact arises_markupSection _ _
  · split
    · exact arises_nil
    · exact arises_nil

theorem arises_attributeFrom (quote : Char) (cs : List Char) (n : Nat) (l : Location)
    (content : List Char) {found : List Entry} (h : ∀ e ∈ found, e.ArisesFrom start) :
    ∀ e ∈ (attributeFrom quote cs n l content found).2.1, e.ArisesFrom start := by
  induction cs generalizing n l content found with
  | nil =>
    intro e he
    exact List.forall_mem_cons.2 ⟨.problem Problem.isOfText_unterminatedString, h⟩ e
      (List.mem_reverse.1 he)
  | cons c cs ih =>
    unfold attributeFrom
    dsimp only
    split
    · exact fun e he => h e (List.mem_reverse.1 he)
    · split
      · exact ih _ _ _ (List.forall_mem_cons.2 ⟨.problem Enclosure.ofText_string, h⟩)
      · exact ih _ _ _ h

theorem arises_inTag (f : MarkupFrame) (c : Char) (start r : Reader) :
    ∀ e ∈ (inTag f c start r).piece.entries, e.ArisesFrom start := by
  unfold inTag
  repeat' split
  any_goals exact arises_nil
  exact arises_attributeFrom _ _ _ _ _ arises_nil

theorem arises_read (m : XmlMode) (c : Char) (start r : Reader) :
    ∀ e ∈ (m.read c start r).1.entries, e.ArisesFrom start := by
  unfold XmlMode.read markup
  split
  · dsimp only
    split
    · exact arises_afterAngle _ _ _
    · split
      · exact arises_inTag _ _ _ _
      · exact arises_nil
  · exact arises_nil

/-! ### The next piece -/

theorem arises_plain (s : Setting) {c : Char} (ahead : start.peek = some c) :
    ∀ e ∈ (plain s c start start.skip).entries, e.ArisesFrom start := by
  unfold plain
  split
  · exact arises_blank _ _ _ _
  split
  · exact arises_underscore _ _ _
  split
  · next h => exact arises_numberSign s (by rw [ahead, h])
  split
  · exact arises_bracketed _ _
  split
  · exact arises_string _ _
  split
  · next quote => exact arises_comment (.quote ahead quote) s nofun
  split
  · next noQuote _ =>
    refine arises_letters s ?_
    rw [peekIs, ahead]
    exact Bool.eq_false_iff.2 noQuote
  · exact arises_operator _ _ _

theorem arises_standard (s : Setting) (m : XmlMode) {c : Char} (ahead : start.peek = some c) :
    ∀ e ∈ (standard s m c start start.skip).1.entries, e.ArisesFrom start := by
  unfold standard
  split
  · exact arises_nil
  split
  · split
    · exact arises_afterAngle _ _ _
    · exact List.forall_mem_cons.2 ⟨.nesting _ rfl, arises_operator _ _ _⟩
  · exact arises_plain s ahead

/-- What the next piece can have to note. -/
theorem arises_next {s : Setting} {m : XmlMode} {c : Char} {r : Reader}
    (h : start.read? = some (c, r)) : ∀ e ∈ (next s m c start r).1.entries, e.ArisesFrom start := by
  have ahead := peek_of_read? h
  rw [skip_eq_of_read? h]
  unfold next
  split
  · exact arises_read _ _ _ _
  split
  · exact arises_diagnostics (Numeral.ofText_scan start)
  · exact arises_standard s m ahead

end Piece

/-- What a section after a complete XML literal can have to note. -/
theorem XmlMode.arises_of_trailing? {m : XmlMode} {start : Reader} {p : Piece}
    (h : m.trailing? start = some p) : ∀ e ∈ p.entries, e.ArisesFrom start := by
  unfold trailing? at h
  split at h
  · obtain ⟨inside, -, rfl⟩ := Option.map_eq_some_iff.1 h
    exact Piece.arises_markupSection _ _
  · cases h

end BasicLexis
