import BasicLexis.Piece.Comment
import BasicLexis.Source.Reach

set_option autoImplicit false

/-! # Comments, line by line

A comment is read character by character, with two further quotes counted down and a word kept that
may turn out to be a tag. `Piece.commentOfLine` says what comes of it in terms of the whole line: the
line starts with two quotes or does not, and the first of its words that is a tag is found or there
is none. `Piece.comment_eq` is the induction over the line that ties the two together. -/

namespace BasicLexis

open Reader (foldText)

/-! ## The text -/

namespace Piece

/-- The text after a documentation comment's second and third quote; `none` for other comments. -/
def documentationText? : List Char → Option (List Char)
  | c :: d :: text => if Text.isCommentQuote c && Text.isCommentQuote d then some text else none
  | _ => none

end Piece

namespace CommentText

variable {c : Char} {style : CommentStyle} {text : List Char} {missing : Nat}

theorem push_of_none : push ⟨0, style, text⟩ c = ⟨0, style, c :: text⟩ := rfl

theorem push_other (h : Text.isCommentQuote c = false) :
    push ⟨missing + 1, style, text⟩ c = ⟨0, style, c :: text⟩ := by
  simp [push, h]

theorem push_quote (h : Text.isCommentQuote c = true) :
    push ⟨missing + 2, style, text⟩ c = ⟨missing + 1, style, c :: text⟩ := by
  simp [push, h]

theorem push_lastQuote (h : Text.isCommentQuote c = true) :
    push ⟨1, style, text⟩ c = ⟨0, .documentation, []⟩ := by
  simp [push, h]

/-- Once no quote is missing, all characters belong to the text. -/
theorem foldText_of_none (cs : List Char) (l : Location) :
    foldText (fun t _ c => push t c) cs l ⟨0, style, text⟩ = ⟨0, style, cs.reverse ++ text⟩ := by
  induction cs generalizing l text with
  | nil => rfl
  | cons c cs ih => simp only [foldText, push_of_none, ih, List.reverse_cons, List.append_assoc,
      List.singleton_append]

/-- The text of a line, and whether it is documentation. -/
theorem foldText_new (quoted : Bool) (line : List Char) (l : Location) :
    let documentation? := if quoted then Piece.documentationText? line else none
    let body := foldText (fun t _ c => push t c) line l (new quoted)
    body.text.reverse = documentation?.getD line
      ∧ body.style = if documentation?.isSome then .documentation else .singleLine := by
  cases quoted with
  | false =>
    have none_ : new false = ⟨0, .singleLine, []⟩ := rfl
    simp [none_, foldText_of_none]
  | true =>
    have two : new true = ⟨0 + 2, .singleLine, []⟩ := rfl
    dsimp only
    rw [two]
    match line with
    | [] => exact ⟨rfl, rfl⟩
    | [c] =>
      cases first : Text.isCommentQuote c with
      | false => simp [foldText, push_other first, Piece.documentationText?]
      | true => simp [foldText, push_quote first, Piece.documentationText?]
    | c :: d :: text =>
      cases first : Text.isCommentQuote c with
      | false =>
        simp [foldText, push_other first, push_of_none, foldText_of_none, first,
          Piece.documentationText?]
      | true =>
        cases second : Text.isCommentQuote d with
        | false =>
          simp [foldText, push_quote first, push_other second, foldText_of_none, first, second,
            Piece.documentationText?]
        | true =>
          simp [foldText, push_quote first, push_lastQuote second, foldText_of_none, first, second,
            Piece.documentationText?]

end CommentText

/-! ## The tag -/

/-- A tag word that was found in a comment. -/
structure FoundTag where
  /-- The word. -/
  tag : List Char
  /-- How many characters of the comment precede it. -/
  offset : Nat
  /-- The text after the word. -/
  text : List Char
  deriving DecidableEq, Repr

namespace FoundTag

/-- Looks for the first tag word. A word is a run of letters that cannot be extended; `word` holds
    the letters just before the text at hand, in reverse, and `offset` counts all characters before
    it. -/
def findFrom? (isTag : List Char → Bool) : List Char → Nat → List Char → Option FoundTag
  | [], offset, word =>
    if isTag word.reverse then some ⟨word.reverse, offset - word.length, []⟩ else none
  | c :: cs, offset, word =>
    if Text.isAlphabetic c then findFrom? isTag cs (offset + 1) (c :: word)
    else if isTag word.reverse then some ⟨word.reverse, offset - word.length, c :: cs⟩
    else findFrom? isTag cs (offset + 1) []

/-- The first word of a text that is a tag. No empty word is one. -/
def find? (tags : List String) (text : List Char) : Option FoundTag :=
  findFrom? (TagSearch.isTag tags) text 0 []

/-- The tag in a comment that starts at a location. -/
def toOpenTag (first : Location) (found : FoundTag) : OpenTag :=
  ⟨found.tag, first.right found.offset, found.text.reverse⟩

end FoundTag

namespace TagSearch

variable (tags : List String)

/-- After a tag, all characters belong to its text. -/
theorem foldText_of_found (cs : List Char) (l : Location) (word : List Char)
    (wordStart : Location) (tag : OpenTag) :
    foldText (push tags) cs l ⟨word, wordStart, some tag⟩
      = ⟨word, wordStart, some { tag with text := cs.reverse ++ tag.text }⟩ := by
  induction cs generalizing l tag with
  | nil => rfl
  | cons c cs ih => simp [foldText, push, ih]

/-- The search, in the middle of a comment that starts at the location `first`. -/
theorem finish_foldText (first : Location) (cs : List Char) (offset : Nat) (word : List Char)
    (wordStart : Location) (room : word.length ≤ offset)
    (place : word ≠ [] → wordStart = first.right (offset - word.length)) :
    (foldText (push tags) cs (first.right offset) ⟨word, wordStart, none⟩).finish tags
      = (FoundTag.findFrom? (isTag tags) cs offset word).map (FoundTag.toOpenTag first) := by
  have placed : isTag tags word.reverse = true →
      wordStart = first.right (offset - word.length) := by
    intro tag
    refine place fun empty => ?_
    rw [empty] at tag
    cases tag
  have next : (first.right offset).right 1 = first.right (offset + 1) := rfl
  induction cs generalizing offset word wordStart with
  | nil =>
    by_cases tag : isTag tags word.reverse = true
    · simp [foldText, finish, FoundTag.findFrom?, FoundTag.toOpenTag, tag, placed tag]
    · simp [foldText, finish, FoundTag.findFrom?, tag]
  | cons c cs ih =>
    by_cases letter : Text.isAlphabetic c = true
    · have start : (if word.isEmpty then first.right offset else wordStart)
          = first.right (offset - word.length) := by
        cases word with
        | nil => rfl
        | cons d ds => exact place (List.cons_ne_nil d ds)
      have longer := ih (offset + 1) (c :: word) (first.right (offset - word.length))
        (Nat.succ_le_succ room)
      simp only [foldText, push, letter, if_true, start, next, FoundTag.findFrom?]
      refine longer ?_ ?_ rfl
      · simp
      · simp
    · by_cases tag : isTag tags word.reverse = true
      · simp [foldText, push, FoundTag.findFrom?, FoundTag.toOpenTag, letter, tag, placed tag,
          foldText_of_found, finish]
      · have fresh := ih (offset + 1) [] wordStart (Nat.zero_le _) (absurd rfl)
          (absurd · Bool.false_ne_true) rfl
        simpa [foldText, push, FoundTag.findFrom?, letter, tag, next] using fresh

/-- The tag of a line is the first of its words that is one. -/
theorem finish_foldText_line (first wordStart : Location) (line : List Char) :
    (foldText (push tags) line first { wordStart }).finish tags
      = (FoundTag.find? tags line).map (FoundTag.toOpenTag first) :=
  finish_foldText tags first line 0 [] wordStart (Nat.zero_le _) (absurd rfl)

end TagSearch

/-! ## The comment -/

namespace Piece

open Reader

theorem foldText_pair {σ τ : Type} (f : σ → Location → Char → σ) (g : τ → Location → Char → τ)
    (cs : List Char) (l : Location) (a : σ) (b : τ) :
    foldText (fun (p : σ × τ) here c => (f p.1 here c, g p.2 here c)) cs l (a, b)
      = (foldText f cs l a, foldText g cs l b) := by
  induction cs generalizing l a b with
  | nil => rfl
  | cons c cs ih => exact ih _ _ _

/-- The comment whose line is what is left of the text before the next line end. -/
def commentOfLine (s : Setting) (quoted : Bool) (start r : Reader) : Piece :=
  let stop := r.skipWhile (!Text.isLineEnd ·)
  let line := r.textTo stop
  let documentation? := if quoted then documentationText? line else none
  let text := documentation?.getD line
  let style := if documentation?.isSome then CommentStyle.documentation else .singleLine
  let tagged := (FoundTag.find? s.tags line).toList.map fun found =>
    Entry.tagged {
      tag := String.ofList found.tag
      text := String.ofList found.text
      startsLine := s.freshLine
      span := ⟨r.location.right found.offset, stop.location⟩ }
  let tooLong :=
    if Limits.maxCommentLength < text.length then
      [problem start.location (.commentTooLong text.length)]
    else []
  let comment := Entry.trivia (.comment
    { style, text := String.ofList text, startsLine := s.freshLine
      span := ⟨start.location, stop.location⟩ })
  endOfLine s.freshLine stop.location stop.skipLineEnd (tagged ++ tooLong ++ [comment])

theorem skipLineEnd_of_done {r : Reader} (h : r.rest = []) : r.skipLineEnd = r := by
  simp [skipLineEnd, read?, h]

/-- **A comment is its line.** What is read character by character is the comment of the line. -/
theorem comment_eq (s : Setting) (quoted : Bool) (start r : Reader) :
    comment s quoted start r = commentOfLine s quoted start r := by
  let stop := r.skipWhile (!Text.isLineEnd ·)
  let line := r.textTo stop
  have scanned : foldLine
      (fun (scan : CommentText × TagSearch) here c =>
        (scan.1.push c, scan.2.push s.tags here c))
      r.rest r.position r.location (.new quoted, { wordStart := start.location })
      = ((foldText (fun t _ c => t.push c) line r.location (.new quoted),
          foldText (TagSearch.push s.tags) line r.location { wordStart := start.location }),
        if stop.rest = [] then none else some stop.location, stop.skipLineEnd) := by
    have whole : line = r.rest.takeWhile (!Text.isLineEnd ·) := r.textTo_skipWhile _
    have pair := foldText_pair (fun (t : CommentText) _ c => t.push c) (TagSearch.push s.tags)
    rw [foldLine_eq, whole]
    exact Prod.ext (pair _ _ _ _) rfl
  have place : (if stop.rest = [] then none else some stop.location).getD stop.skipLineEnd.location
      = stop.location := by
    split
    · next done => rw [Option.getD_none, skipLineEnd_of_done done]
    · rfl
  obtain ⟨text, style⟩ := CommentText.foldText_new quoted line r.location
  have tag := TagSearch.finish_foldText_line s.tags r.location start.location line
  unfold comment commentOfLine
  rw [scanned]
  dsimp only at text style ⊢
  rw [place, text, style, tag]
  cases FoundTag.find? s.tags line with
  | none => rfl
  | some found => simp [FoundTag.toOpenTag, line, stop]

end Piece

end BasicLexis
