import BasicLexis.Proofs.Piece.CommentLine
import BasicLexis.Proofs.Source.Lines
import BasicLexis.Scanner.Basic
import Mathlib.Data.List.TakeWhile

set_option autoImplicit false

/-! # What a comment says

Everything that is recorded of a comment follows from the characters between what introduces it and
the end of the line. They are its text, less the two quotes that make it documentation. If a tag
word stands among them, the first such word and what comes after it are recorded a second time.

A word is found while the characters are read one by one: the letters so far are kept, and only the
character after them tells that the word is over. `Text.WordIn` says what a word is without any of
this, and `outcome_findFrom?` is the induction that ties the two together. -/

namespace BasicLexis

/-! ## Words -/

namespace Text

/-- A word in a text, with what stands before and after it: a run of letters that cannot be extended
    in either direction. -/
structure WordIn (text before word after : List Char) : Prop where
  split : text = before ++ word ++ after
  nonempty : word ≠ []
  letters : ∀ c ∈ word, isAlphabetic c = true
  begins : ∀ c ∈ before.getLast?, isAlphabetic c = false
  ends : ∀ c ∈ after.head?, isAlphabetic c = false

namespace WordIn

variable {text before word after front rest : List Char} {c : Char}

/-- No word starts after letters only. -/
theorem before_eq_nil (h : WordIn text before word after) (letters : ∀ c ∈ front, isAlphabetic c = true)
    (within : before ⊆ front) : before = [] := by
  by_contra nonempty
  have last := letters _ (within (List.getLast_mem nonempty))
  rw [h.begins _ (List.getLast?_eq_some_getLast nonempty)] at last
  cases last

/-- The word at the start of a text. -/
theorem word_eq_takeWhile (h : WordIn text [] word after) : word = text.takeWhile isAlphabetic := by
  have ended : after.takeWhile isAlphabetic = [] := by
    cases after with
    | nil => rfl
    | cons c cs => simp [h.ends c rfl]
  rw [h.split, List.nil_append, List.takeWhile_append_of_pos h.letters, ended, List.append_nil]

/-- A text of letters has no other word than itself. -/
theorem of_letters (h : WordIn text before word after) (letters : ∀ c ∈ text, isAlphabetic c = true) :
    before = [] ∧ word = text ∧ after = [] := by
  have first : before = [] := h.before_eq_nil letters fun c hc => by rw [h.split]; simp [hc]
  subst first
  have all : word = text := by
    rw [h.word_eq_takeWhile, List.takeWhile_eq_self_iff]
    exact letters
  refine ⟨rfl, all, ?_⟩
  have split := h.split
  rw [all, List.nil_append] at split
  exact List.self_eq_append_right.1 split

theorem whole (nonempty : text ≠ []) (letters : ∀ c ∈ text, isAlphabetic c = true) :
    WordIn text [] text [] :=
  ⟨by simp, nonempty, letters, nofun, nofun⟩

/-- The words of a text that starts with letters and a character that is none: the letters, if there
    are any, and the words after that character. -/
theorem append_iff (letters : ∀ c ∈ front, isAlphabetic c = true) (stop : isAlphabetic c = false) :
    WordIn (front ++ c :: rest) before word after
      ↔ (front ≠ [] ∧ before = [] ∧ word = front ∧ after = c :: rest)
        ∨ ∃ later, before = front ++ c :: later ∧ WordIn rest later word after := by
  constructor
  · intro h
    have split := h.split
    rw [List.append_assoc] at split
    rcases List.append_eq_append_iff.1 split with ⟨skipped, longer, tail⟩ | ⟨skipped, shorter, tail⟩
    · cases skipped with
      | nil =>
        -- the text before the word consists of the letters
        rw [List.append_nil] at longer
        have none_ := h.before_eq_nil letters (by rw [longer]; exact List.Subset.refl _)
        cases word with
        | nil => exact absurd rfl h.nonempty
        | cons d ds =>
          obtain ⟨rfl, -⟩ := List.cons.inj tail
          rw [h.letters c (by simp)] at stop
          cases stop
      | cons d later =>
        obtain ⟨rfl, tail⟩ := List.cons.inj tail
        have inside : rest = later ++ word ++ after := by simpa using tail
        refine .inr ⟨later, longer, inside, h.nonempty, h.letters, ?_, h.ends⟩
        intro e last
        refine h.begins e ?_
        rw [longer]
        cases later with
        | nil => cases last
        | cons => simpa using last
    · have none_ := h.before_eq_nil letters (by rw [shorter]; exact List.subset_append_left _ _)
      subst none_
      have all := h.word_eq_takeWhile
      rw [List.takeWhile_append_of_pos letters, List.takeWhile_cons_of_neg (by simp [stop]),
        List.append_nil] at all
      subst all
      exact .inl ⟨h.nonempty, rfl, rfl, (List.append_cancel_left split).symm⟩
  · rintro (⟨nonempty, rfl, rfl, rfl⟩ | ⟨later, rfl, h⟩)
    · refine ⟨by simp, nonempty, letters, nofun, fun d first => ?_⟩
      cases first
      exact stop
    · refine ⟨by simp [h.split], h.nonempty, h.letters, fun d last => ?_, h.ends⟩
      cases later with
      | nil =>
        have same : c = d := by simpa using last
        rw [← same]
        exact stop
      | cons e es => exact h.begins d (by simpa using last)

end WordIn

end Text

/-! ## Tags -/

namespace FoundTag

variable {counts : List Char → Bool}

/-- What the search for a tag comes to in a text that `base` characters precede: the first word that
    is one, or no word is. -/
def Outcome (counts : List Char → Bool) (text : List Char) (base : Nat) : Option FoundTag → Prop
  | some found => ∃ before, Text.WordIn text before found.tag found.text ∧ counts found.tag = true
      ∧ found.offset = base + before.length
      ∧ ∀ before' word after, Text.WordIn text before' word after → counts word = true →
        before.length ≤ before'.length
  | none => ∀ before word after, Text.WordIn text before word after → counts word = false

/-- The search goes on after letters that are no tag and a character that ends them. -/
theorem Outcome.append {front rest : List Char} {c : Char} {base : Nat} {found? : Option FoundTag}
    (letters : ∀ c ∈ front, Text.isAlphabetic c = true) (stop : Text.isAlphabetic c = false)
    (noTag : counts front = false) (h : Outcome counts rest (base + front.length + 1) found?) :
    Outcome counts (front ++ c :: rest) base found? := by
  cases found? with
  | none =>
    intro before word after there
    rcases (Text.WordIn.append_iff letters stop).1 there with ⟨-, -, rfl, -⟩ | ⟨later, -, there⟩
    · exact noTag
    · exact h later word after there
  | some found =>
    obtain ⟨before, there, tag, offset, first⟩ := h
    refine ⟨front ++ c :: before, (Text.WordIn.append_iff letters stop).2 (.inr ⟨_, rfl, there⟩), tag,
      ?_, ?_⟩
    · rw [offset, List.length_append, List.length_cons]
      omega
    · intro before' word after there' tag'
      rcases (Text.WordIn.append_iff letters stop).1 there' with ⟨-, -, rfl, -⟩ | ⟨later, rfl, inner⟩
      · rw [noTag] at tag'
        cases tag'
      · have := first later word after inner tag'
        simp only [List.length_append, List.length_cons]
        omega

/-- The search, in the middle of a text: `word` holds the letters just before the place at hand. -/
theorem outcome_findFrom? (noEmpty : counts [] = false) (cs : List Char) (offset : Nat)
    (word : List Char) (letters : ∀ c ∈ word, Text.isAlphabetic c = true)
    (room : word.length ≤ offset) :
    Outcome counts (word.reverse ++ cs) (offset - word.length) (findFrom? counts cs offset word) := by
  induction cs generalizing offset word with
  | nil =>
    have all : ∀ c ∈ word.reverse, Text.isAlphabetic c = true := by simpa using letters
    rw [List.append_nil, findFrom?]
    split
    · next tag =>
      refine ⟨[], .whole ?_ all, tag, rfl, fun _ _ _ _ _ => Nat.zero_le _⟩
      intro empty
      rw [empty, noEmpty] at tag
      cases tag
    · next noTag =>
      intro before found after there
      rw [(there.of_letters all).2.1]
      exact Bool.eq_false_iff.2 noTag
  | cons c cs ih =>
    have all : ∀ c ∈ word.reverse, Text.isAlphabetic c = true := by simpa using letters
    unfold findFrom?
    split
    · next letter =>
      have longer := ih (offset + 1) (c :: word) (List.forall_mem_cons.2 ⟨letter, letters⟩)
        (Nat.succ_le_succ room)
      simpa using longer
    · next stop =>
      have stop : Text.isAlphabetic c = false := Bool.eq_false_iff.2 stop
      split
      · next tag =>
        refine ⟨[], (Text.WordIn.append_iff all stop).2 (.inl ⟨?_, rfl, rfl, rfl⟩), tag, rfl,
          fun _ _ _ _ _ => Nat.zero_le _⟩
        intro empty
        rw [empty, noEmpty] at tag
        cases tag
      · next noTag =>
        refine .append all stop (Bool.eq_false_iff.2 noTag) ?_
        have fresh := ih (offset + 1) [] (by simp) (Nat.zero_le _)
        rw [List.length_reverse, Nat.sub_add_cancel room]
        simpa using fresh

theorem isTag_iff {tags : List String} {text before word after : List Char}
    (h : Text.WordIn text before word after) : TagSearch.isTag tags word = true ↔ String.ofList word ∈ tags := by
  simp [TagSearch.isTag, h.nonempty]

theorem outcome_find? (tags : List String) (text : List Char) :
    Outcome (TagSearch.isTag tags) text 0 (find? tags text) :=
  outcome_findFrom? rfl text 0 [] (by simp) (Nat.zero_le _)

/-- The tag that is found is the first word of the text that is one. -/
theorem find?_eq_some {tags : List String} {text : List Char} {found : FoundTag}
    (h : find? tags text = some found) :
    ∃ before, Text.WordIn text before found.tag found.text ∧ String.ofList found.tag ∈ tags
      ∧ found.offset = before.length
      ∧ ∀ before' word after, Text.WordIn text before' word after → String.ofList word ∈ tags →
        before.length ≤ before'.length := by
  have outcome := outcome_find? tags text
  rw [h] at outcome
  obtain ⟨before, there, tag, offset, first⟩ := outcome
  refine ⟨before, there, (isTag_iff there).1 tag, by simpa using offset, ?_⟩
  intro before' word after there' tag'
  exact first before' word after there' ((isTag_iff there').2 tag')

/-- A tag is found exactly if some word of the text is one. -/
theorem find?_isSome {tags : List String} {text : List Char} :
    (find? tags text).isSome = true
      ↔ ∃ before word after, Text.WordIn text before word after ∧ String.ofList word ∈ tags := by
  have outcome := outcome_find? tags text
  cases found? : find? tags text with
  | some found =>
    obtain ⟨before, there, tag, -⟩ := find?_eq_some found?
    exact iff_of_true rfl ⟨before, _, _, there, tag⟩
  | none =>
    rw [found?] at outcome
    refine iff_of_false nofun ?_
    rintro ⟨before, word, after, there, tag⟩
    have noTag := outcome before word after there
    rw [(isTag_iff there).2 tag] at noTag
    cases noTag

end FoundTag

/-! ## The end of the line -/

namespace Text

/-- How many characters the line end has that a text starts with. -/
def lineEndLength : List Char → Nat
  | '\r' :: '\n' :: _ => 2
  | '\r' :: _ => 1
  | '\n' :: _ => 1
  | _ => 0

end Text

namespace Reader

theorem skipLineEnd_eq_skipMany (r : Reader) :
    r.skipLineEnd = r.skipMany (Text.lineEndLength r.rest) := by
  obtain ⟨rest, position, location⟩ := r
  fun_cases Text.lineEndLength rest with
  | case1 cs => rfl
  | case2 cs unpaired =>
    cases cs with
    | nil => rfl
    | cons d ds =>
      have plain : d ≠ '\n' := fun feed => unpaired ds (by rw [feed])
      simp [skipLineEnd, read?, finishLineEnd?, eatOptional, eat?, peek, plain, skipMany, skip]
  | case3 cs => rfl
  | case4 _ _ noReturn noFeed =>
    cases rest with
    | nil => rfl
    | cons c cs =>
      have ret : c ≠ '\r' := fun same => noReturn cs (by rw [same])
      have feed : c ≠ '\n' := fun same => noFeed cs (by rw [same])
      simp [skipLineEnd, read?, finishLineEnd?, ret, feed, skipMany]

theorem skipWhile_eq_skipMany (p : Char → Bool) (r : Reader) :
    r.skipWhile p = r.skipMany (r.rest.takeWhile p).length := by
  have reaches := reaches_skipWhile p r
  obtain ⟨n, -, place, position⟩ := reaches.exists_position
  have length : (r.rest.takeWhile p).length = n := by
    rw [← textTo_skipWhile, reaches.length_textTo, position, Nat.add_sub_cancel_left]
  rw [length, place]

end Reader

/-! ## The record of a comment -/

/-- The characters up to the next line end. -/
def Reader.line (r : Reader) : List Char := r.rest.takeWhile (!Text.isLineEnd ·)

theorem Reader.textTo_skipLine (r : Reader) : r.textTo (r.skipWhile (!Text.isLineEnd ·)) = r.line :=
  r.textTo_skipWhile _

/-- The comment whose introducing quote or keyword is followed by the given line. -/
structure Comment.Tells (c : Comment) (quoted : Bool) (line : List Char) : Prop where
  style : c.style = .documentation
    ↔ quoted = true ∧ ∃ a b text, line = a :: b :: text ∧ Text.isCommentQuote a = true
      ∧ Text.isCommentQuote b = true
  text : c.text.toList = if c.style = .documentation then line.drop 2 else line

/-- The tag comment for a line: it is about the first word of the line that is a tag. -/
structure TagComment.Tells (t : TagComment) (tags : List String) (line before : List Char) :
    Prop where
  tag : t.tag ∈ tags
  word : Text.WordIn line before t.tag.toList t.text.toList
  first : ∀ before' word after, Text.WordIn line before' word after → String.ofList word ∈ tags →
    before.length ≤ before'.length

namespace Piece

open Reader

theorem documentationText?_eq_some {line text : List Char} :
    documentationText? line = some text
      ↔ ∃ a b, line = a :: b :: text ∧ Text.isCommentQuote a = true
        ∧ Text.isCommentQuote b = true := by
  unfold documentationText?
  split
  · next a b rest =>
    by_cases quotes : Text.isCommentQuote a = true ∧ Text.isCommentQuote b = true
    · obtain ⟨first, second⟩ := quotes
      rw [first, second]
      constructor
      · intro same
        cases same
        exact ⟨a, b, rfl, first, second⟩
      · rintro ⟨c, d, same, -⟩
        cases same
        rfl
    · simp only [Bool.and_eq_true, if_neg quotes, reduceCtorEq, false_iff]
      rintro ⟨c, d, same, first, second⟩
      cases same
      exact quotes ⟨first, second⟩
  · next short =>
    refine iff_of_false nofun ?_
    rintro ⟨a, b, rfl, -⟩
    exact short a b text rfl

/-- The comment with a line after what introduces it. -/
def commentOf (quoted startsLine : Bool) (line : List Char) (span : Span) : Comment :=
  let documentation? := if quoted then documentationText? line else none
  { style := if documentation?.isSome then .documentation else .singleLine
    text := String.ofList (documentation?.getD line), startsLine, span }

theorem tells_commentOf (quoted startsLine : Bool) (line : List Char) (span : Span) :
    (commentOf quoted startsLine line span).Tells quoted line := by
  cases quoted with
  | false => exact ⟨iff_of_false nofun nofun, by simp [commentOf]⟩
  | true =>
    cases found : documentationText? line with
    | some text =>
      obtain ⟨a, b, rfl, quotes⟩ := documentationText?_eq_some.1 found
      exact ⟨iff_of_true (by simp [commentOf, found]) ⟨rfl, a, b, text, rfl, quotes⟩,
        by simp [commentOf, found]⟩
    | none =>
      refine ⟨iff_of_false (by simp [commentOf, found]) ?_, by simp [commentOf, found]⟩
      rintro ⟨-, a, b, text, same⟩
      cases (documentationText?_eq_some.2 ⟨a, b, same⟩).symm.trans found

/-- What there is to note about a comment: a tag comment, if a word of its line is a tag; its length,
    if it is too long; and the comment. -/
theorem entries_comment (s : Setting) (quoted : Bool) (start r : Reader) :
    ∃ (c : Comment) (tagged : Option TagComment),
      (comment s quoted start r).entries = tagged.toList.map .tagged
        ++ (if Limits.maxCommentLength < c.text.length then
            [problem start.location (.commentTooLong c.text.length)] else [])
        ++ [.trivia (.comment c)]
      ∧ c.Tells quoted r.line ∧ c.span = ⟨start.location, (r.skipMany r.line.length).location⟩
      ∧ (tagged.isSome = true
        ↔ ∃ before word after, Text.WordIn r.line before word after ∧ String.ofList word ∈ s.tags)
      ∧ ∀ t ∈ tagged, ∃ before, t.Tells s.tags r.line before
        ∧ t.span = ⟨r.location.right before.length, (r.skipMany r.line.length).location⟩ := by
  have line := r.textTo_skipLine
  have stop : r.skipWhile (!Text.isLineEnd ·) = r.skipMany r.line.length := skipWhile_eq_skipMany _ r
  let c := commentOf quoted s.freshLine r.line ⟨start.location, (r.skipMany r.line.length).location⟩
  let tagged : Option TagComment := (FoundTag.find? s.tags r.line).map fun found =>
    { tag := String.ofList found.tag
      text := String.ofList found.text
      startsLine := s.freshLine
      span := ⟨r.location.right found.offset, (r.skipMany r.line.length).location⟩ }
  refine ⟨c, tagged, ?_, tells_commentOf quoted s.freshLine r.line _, rfl, ?_, ?_⟩
  · rw [comment_eq]
    unfold commentOfLine
    dsimp only
    rw [stop] at line ⊢
    rw [line]
    simp only [c, tagged, commentOf, endOfLine, String.length_ofList]
    cases FoundTag.find? s.tags r.line <;> rfl
  · simp only [tagged, Option.isSome_map]
    exact FoundTag.find?_isSome
  · intro t ht
    obtain ⟨found, found?, rfl⟩ := Option.map_eq_some_iff.1 ht
    obtain ⟨before, there, tag, offset, first⟩ := FoundTag.find?_eq_some found?
    exact ⟨before, ⟨tag, by simpa using there, first⟩, by rw [offset]⟩

theorem rest_comment (s : Setting) (quoted : Bool) (start r : Reader) :
    (comment s quoted start r).rest
      = r.skipMany (r.line.length + Text.lineEndLength (r.rest.drop r.line.length)) := by
  rw [rest_comment_of_line, skipLineEnd_eq_skipMany, skipWhile_eq_skipMany, skipMany_add, rest_skipMany]
  rfl

end Piece

namespace Scanner

open Reader Piece

variable {σ : Type}

/-- **A comment is recorded as its line says.** Whatever the state of the scanner, let the line be the
    characters up to the next line end. The scanner goes on right after that line end. One comment is
    recorded. It is documentation exactly if a quote introduced it and two further quotes follow, and
    its text is the line without these two. A tag comment is recorded exactly if some word of the
    line is a tag, and it is about the first such word and all that comes after it. The length is
    reported exactly if the text is longer than the limit. -/
theorem comment_recorded (s : Scanner σ) (mode : XmlMode) (quoted : Bool) (queued : Option Token)
    (start r : Reader) :
    let line := r.line
    let s' := s.accept { comment s.setting quoted start r with queued } mode
    ∃ (c : Comment) (tagged : Option TagComment),
      s'.reader = r.skipMany (line.length + Text.lineEndLength (r.rest.drop line.length))
      ∧ s'.journal.trivia.toList = s.journal.trivia.toList ++ [.comment c] ∧ c.Tells quoted line
      ∧ s'.journal.tagComments.toList = s.journal.tagComments.toList ++ tagged.toList
      ∧ (tagged.isSome = true
        ↔ ∃ before word after, Text.WordIn line before word after ∧ String.ofList word ∈ s.tags)
      ∧ (∀ t ∈ tagged, ∃ before, t.Tells s.tags line before)
      ∧ s'.journal.diagnostics.toList = s.journal.diagnostics.toList
        ++ (if Limits.maxCommentLength < c.text.length then
            [⟨start.location, .commentTooLong c.text.length⟩] else []) := by
  intro line s'
  obtain ⟨c, tagged, entries, tells, -, found, first⟩ := entries_comment s.setting quoted start r
  have journal : s'.journal.toList = s.journal.toList ++ (tagged.toList.map Entry.tagged
      ++ (if Limits.maxCommentLength < c.text.length then
          [problem start.location (.commentTooLong c.text.length)] else [])
      ++ [.trivia (.comment c)]) := by
    rw [← entries]
    exact Array.toList_appendList
  refine ⟨c, tagged, rest_comment s.setting quoted start r, ?_, tells, ?_, found,
    fun t ht => ?_, ?_⟩
  · simp only [Journal.trivia, Array.toList_filterMap, journal, List.filterMap_append]
    cases tagged <;> split <;> rfl
  · simp only [Journal.tagComments, Array.toList_filterMap, journal, List.filterMap_append]
    cases tagged <;> split <;> rfl
  · obtain ⟨before, tells, -⟩ := first t ht
    exact ⟨before, tells⟩
  · simp only [Journal.diagnostics, Array.toList_filterMap, journal, List.filterMap_append]
    cases tagged <;> split <;> rfl

end Scanner

end BasicLexis
