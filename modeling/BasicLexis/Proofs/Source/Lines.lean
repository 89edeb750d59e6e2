import BasicLexis.Proofs.Source.Cut
import BasicLexis.Source.LineIndex

set_option autoImplicit false

/-! # The line of a location

A problem is shown under a line of a line index, and that line is looked up by the number that a
reader has counted. The two do not count alike: a line index cuts a text at its line feeds only,
while a reader also ends a line at a carriage return that stands by itself. In a text where every
carriage return is followed by a line feed, each place is shown on its own line; in any other text
there is a place that is not. -/

namespace BasicLexis

namespace Text

/-- There is one more part of a text than there are occurrences of `mark` in it. -/
theorem length_splitOn (mark : Char) (text : List Char) :
    (text.splitOn mark).length = text.count mark + 1 := by
  induction text with
  | nil => simp
  | cons c cs ih =>
    rw [List.splitOn_cons_eq_if_modifyHead]
    by_cases h : c = mark <;> simp [h, ih]

/-- The first part of a text goes up to the first occurrence of `mark`. -/
theorem head?_splitOn (mark : Char) (text : List Char) :
    (text.splitOn mark)[0]? = some (text.takeWhile (· != mark)) := by
  induction text with
  | nil => simp
  | cons c cs ih =>
    rw [List.splitOn_cons_eq_if_modifyHead, List.takeWhile_cons]
    by_cases h : c = mark
    · simp [h]
    · cases parts : cs.splitOn mark with
      | nil => simp [parts] at ih
      | cons part later =>
        rw [parts, List.getElem?_cons_zero, Option.some.injEq] at ih
        simp [h, ih]

/-- How many carriage returns of a text no line feed follows. -/
def loneReturns : List Char → Nat
  | [] => 0
  | c :: cs => (if c = '\r' ∧ cs.head? ≠ some '\n' then 1 else 0) + loneReturns cs

theorem loneReturns_append_le (text later : List Char) :
    loneReturns later ≤ loneReturns (text ++ later) := by
  induction text with
  | nil => exact Nat.le_refl _
  | cons c cs ih =>
    rw [List.cons_append, loneReturns]
    omega

/-- What stands before the first line feed is the line, up to carriage returns at its end. -/
theorem takeWhile_inline {text : List Char} (paired : loneReturns text = 0) :
    dropTrailingReturns (text.takeWhile (· != '\n')) = text.takeWhile (!isLineEnd ·) := by
  induction text with
  | nil => rfl
  | cons c cs ih =>
    simp only [loneReturns, Nat.add_eq_zero_iff] at paired
    have rest := ih paired.2
    by_cases ret : c = '\r'
    · -- the carriage return is part of the line end
      cases cs with
      | nil => simp [ret] at paired
      | cons d ds =>
        have feed : d = '\n' := by simpa [ret] using paired.1
        rw [ret, feed]
        rfl
    · by_cases feed : c = '\n'
      · rw [feed]
        rfl
      · have inline : isLineEnd c = false := by simp [isLineEnd, ret, feed]
        rw [List.takeWhile_cons_of_pos (by simpa using feed),
          List.takeWhile_cons_of_pos (by simp [inline]), ← rest]
        unfold dropTrailingReturns
        rw [List.reverse_cons, List.dropWhile_append]
        by_cases none_ : ((cs.takeWhile (· != '\n')).reverse.dropWhile (· == '\r')).isEmpty
        · rw [if_pos none_, List.isEmpty_iff.1 none_]
          simp [ret]
        · rw [if_neg none_]
          simp

end Text

namespace LineIndex

/-- A message under a line that is given. -/
def underline (line : String) (at_ : Location) (message : String) : String :=
  let number := toString at_.line
  let margin := "   " ++ blanks number.length
  "Error: " ++ message ++ "\n  --> " ++ at_.render ++ "\n"
    ++ margin ++ " |\n"
    ++ number ++ " | " ++ line ++ "\n"
    ++ margin ++ " | " ++ blanks (at_.column - 1) ++ "^\n"

theorem renderProblem_of_line {index : LineIndex} {at_ : Location} {line : String}
    (h : index.line? at_.line = some line) (message : String) :
    index.renderProblem at_ message = underline line at_ message := by
  unfold renderProblem underline
  rw [h]

theorem line?_ofText (text : String) (number : Nat) :
    (ofText text).line? (number + 1)
      = (text.toList.splitOn '\n')[number]?.map (String.ofList ∘ dropTrailingReturns) := by
  simp [line?, ofText]

end LineIndex

namespace Reader

variable {text : List Char} {a r : Reader}

theorem Reaches.loneReturns_le (h : r.Reaches a) :
    Text.loneReturns a.rest ≤ Text.loneReturns r.rest := by
  rw [← h.textTo_append]
  exact Text.loneReturns_append_le _ _

/-- The line of the source that `r` is on begins at `a`. -/
structure BeginsLine (text : List Char) (a r : Reader) : Prop where
  source : (ofText text).Reaches a
  reaches : a.Reaches r
  location : a.location = ⟨r.location.line, 1⟩

/-- The line that `r` is on begins at `a`, no line feed stands between the two, and what is left of
    the text at `a` is what is left of it when the lines before are taken away. -/
structure Within (text : List Char) (a r : Reader) : Prop extends BeginsLine text a r where
  inLine : Over (· != '\n') a r
  lines : ∃ n, r.location.line = n + 1 ∧ (text.splitOn '\n').drop n = a.rest.splitOn '\n'

/-- A line feed leads to the next line. -/
theorem Within.nextLine (h : Within text a r) (ahead : r.peek = some '\n') :
    Within text r.skip r.skip := by
  have location : r.skip.location = r.location.nextLine := by
    rw [skip_of_cons (rest_of_peek ahead), Location.after, if_pos (.inl rfl)]
  refine ⟨⟨h.source.trans (h.reaches.trans r.reaches_skip), .refl _, ?_⟩, .refl _ _, ?_⟩
  · rw [location]
    rfl
  · obtain ⟨n, line, lines⟩ := h.lines
    have noFeed : '\n' ∉ a.textTo r := fun feed => by
      have := h.inLine.forall_textTo _ feed
      simp at this
    refine ⟨n + 1, by rw [location, ← line]; rfl, ?_⟩
    rw [← List.drop_drop, lines, ← h.reaches.textTo_append, rest_of_peek ahead,
      List.splitOn_append_cons_self_of_not_mem noFeed]
    rfl

/-- A character that ends no line leads on within the line. -/
theorem Within.right {c : Char} (h : Within text a r) (ahead : r.peek = some c)
    (inline : c ≠ '\n') (location : r.skip.location = r.location.right 1) :
    Within text a r.skip := by
  have line : r.skip.location.line = r.location.line := by rw [location]; rfl
  refine ⟨⟨h.source, h.reaches.trans r.reaches_skip, ?_⟩, h.inLine.trans (.skip ahead ?_), ?_⟩
  · rw [h.location, line]
  · simpa using inline
  · rw [line]
    exact h.lines

/-- In a text where every carriage return is followed by a line feed, each place is on a line of the
    line index. -/
theorem Reaches.exists_within (h : (ofText text).Reaches r) (paired : Text.loneReturns text = 0) :
    ∃ a, Within text a r := by
  obtain ⟨n, rfl⟩ := h
  induction n with
  | zero => exact ⟨ofText text, ⟨.refl _, .refl _, rfl⟩, .refl _ _, 0, rfl, rfl⟩
  | succ n ih =>
    obtain ⟨a, here⟩ := ih
    rw [skipMany_add]
    generalize place : skipMany n (ofText text) = r at here
    change ∃ a, Within text a r.skip
    cases ahead : r.peek with
    | none =>
      rw [skip_of_nil (List.head?_eq_none_iff.1 ahead)]
      exact ⟨a, here⟩
    | some c =>
      have rest := rest_of_peek ahead
      by_cases feed : c = '\n'
      · rw [feed] at ahead
        exact ⟨r.skip, here.nextLine ahead⟩
      · refine ⟨a, here.right ahead feed ?_⟩
        have few := (here.source.trans here.reaches).loneReturns_le
        rw [rest, Text.loneReturns, ofText, paired] at few
        rw [skip_of_cons rest, Location.after, if_neg]
        rintro (feed' | lone)
        · exact feed feed'
        · simp [lone] at few

/-- Line feeds and carriage returns by themselves lead to further lines, and nothing else does. -/
theorem line_skipMany_length (r : Reader) :
    (skipMany r.rest.length r).location.line
      = r.location.line + r.rest.count '\n' + Text.loneReturns r.rest := by
  obtain ⟨rest, position, location⟩ := r
  induction rest generalizing position location with
  | nil => rfl
  | cons c cs ih =>
    have next := ih (position + 1) (location.after c cs.head?)
    simp only [List.length_cons, skipMany] at next ⊢
    rw [skip_of_cons (r := ⟨c :: cs, position, location⟩) rfl, next, Location.after,
      Text.loneReturns, List.count_cons]
    by_cases feed : c = '\n'
    · rw [if_pos (.inl feed), if_pos (by simpa using feed), if_neg (by simp [feed])]
      simp only [Location.nextLine]
      omega
    · by_cases lone : c = '\r' ∧ cs.head? ≠ some '\n'
      · rw [if_pos (.inr lone), if_pos lone, if_neg (by simpa using feed)]
        simp only [Location.nextLine]
        omega
      · rw [if_neg (by simp [feed, lone]), if_neg lone, if_neg (by simpa using feed)]
        simp only [Location.right]
        omega

end Reader

/-- The line index has the whole line that a place of the text is on, and shows it under every
    message about that place. -/
def ShowsLine (text : String) (r : Reader) : Prop :=
  ∃ a, Reader.BeginsLine text.toList a r ∧
    let line := String.ofList (a.readWhile (!Text.isLineEnd ·)).1
    (LineIndex.ofText text).line? r.location.line = some line ∧
      ∀ message, (LineIndex.ofText text).renderProblem r.location message
        = LineIndex.underline line r.location message

theorem Reader.Within.showsLine {text : String} {a r : Reader} (h : Within text.toList a r)
    (paired : Text.loneReturns text.toList = 0) : ShowsLine text r := by
  obtain ⟨n, line, lines⟩ := h.lines
  have few : Text.loneReturns a.rest = 0 :=
    Nat.eq_zero_of_le_zero (Nat.le_trans h.source.loneReturns_le (Nat.le_of_eq paired))
  have shown : (LineIndex.ofText text).line? r.location.line
      = some (String.ofList (a.readWhile (!Text.isLineEnd ·)).1) := by
    have first := Text.head?_splitOn '\n' a.rest
    rw [← lines, List.getElem?_drop, Nat.add_zero] at first
    rw [line, LineIndex.line?_ofText, first, Option.map_some, Function.comp_apply,
      Text.takeWhile_inline few, readWhile_eq_takeWhile]
  exact ⟨a, h.toBeginsLine, shown, LineIndex.renderProblem_of_line shown⟩

/-- All places of a text are shown on their lines exactly if no carriage return stands by itself.
    The end of a text with such a carriage return is on a line that the line index does not have. -/
theorem forall_showsLine_iff (text : String) :
    (∀ r, (Reader.ofText text.toList).Reaches r → ShowsLine text r)
      ↔ Text.loneReturns text.toList = 0 := by
  constructor
  · intro shown
    have last := Reader.line_skipMany_length (Reader.ofText text.toList)
    obtain ⟨a, -, line, -⟩ := shown _ (Reader.reaches_skipMany _ _)
    rw [last] at line
    simp only [Reader.ofText, Location.start] at line
    rw [Nat.add_assoc, Nat.add_comm 1, LineIndex.line?_ofText] at line
    obtain ⟨part, there, -⟩ := Option.map_eq_some_iff.1 line
    have inside := (List.getElem?_eq_some_iff.1 there).1
    rw [Text.length_splitOn] at inside
    omega
  · intro paired r reaches
    obtain ⟨a, within⟩ := reaches.exists_within paired
    exact within.showsLine paired

end BasicLexis
