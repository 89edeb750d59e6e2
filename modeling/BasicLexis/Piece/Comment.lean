import BasicLexis.Piece.Basic

set_option autoImplicit false

/-! # Comments

A comment goes from its introducing quote or keyword to the end of the line. Two further quotes
right after the first make it a documentation comment. A comment in which a tag word stands by
itself is recorded a second time, as a tag comment, from the first such word on.

A comment is read character by character. Its text and the search for a tag word go their own ways:
`CommentText` and `TagSearch` are what is known of either after the characters so far. -/

namespace BasicLexis

/-- The text of a comment, as far as it was read. -/
structure CommentText where
  /-- How many further quotes make the comment documentation. None do once another character
      came. -/
  missingQuotes : Nat
  /-- The style so far. -/
  style : CommentStyle := .singleLine
  /-- The text so far, in reverse. -/
  text : List Char := []

namespace CommentText

/-- Nothing was read. Only a quote introduces documentation. -/
def new (quoted : Bool) : CommentText := { missingQuotes := if quoted then 2 else 0 }

/-- Takes the next character. The text of documentation starts anew after the last quote. -/
def push (t : CommentText) (c : Char) : CommentText :=
  match t.missingQuotes with
  | 0 => { t with text := c :: t.text }
  | missing + 1 =>
    if Text.isCommentQuote c then
      if missing = 0 then { missingQuotes := 0, style := .documentation, text := [] }
      else { t with missingQuotes := missing, text := c :: t.text }
    else { t with missingQuotes := 0, text := c :: t.text }

end CommentText

/-- A tag word that was found in a comment. -/
structure OpenTag where
  /-- The word. -/
  word : List Char
  /-- Where the word starts. -/
  start : Location
  /-- The text after the word so far, in reverse. -/
  text : List Char

/-- The search for a tag word in a comment. -/
structure TagSearch where
  /-- The letters right before the place at hand, in reverse. -/
  word : List Char := []
  /-- Where these letters start. -/
  wordStart : Location
  /-- The first tag word, once it was found. -/
  found : Option OpenTag := none

namespace TagSearch

/-- Whether a word is among the tags. No empty word is one. -/
def isTag (tags : List String) (word : List Char) : Bool :=
  !word.isEmpty && tags.contains (String.ofList word)

/-- Takes the next character. After a tag word it belongs to the text of the tag; otherwise a letter
    belongs to the word at hand, and another character ends it. -/
def push (tags : List String) (t : TagSearch) (here : Location) (c : Char) : TagSearch :=
  match t.found with
  | some tag => { t with found := some { tag with text := c :: tag.text } }
  | none =>
    if Text.isAlphabetic c then
      { t with
        wordStart := if t.word.isEmpty then here else t.wordStart
        word := c :: t.word }
    else if isTag tags t.word.reverse then
      { t with word := [], found := some ⟨t.word.reverse, t.wordStart, [c]⟩ }
    else { t with word := [] }

/-- The tag word, which may also be the last word of the comment. -/
def finish (tags : List String) (t : TagSearch) : Option OpenTag :=
  match t.found with
  | some tag => some tag
  | none =>
    if isTag tags t.word.reverse then some ⟨t.word.reverse, t.wordStart, []⟩ else none

end TagSearch

namespace Piece

/-- A comment. The reader `r` stands after the quote or keyword that introduces it. -/
def comment (s : Setting) (quoted : Bool) (start r : Reader) : Piece :=
  let ((body, search), lineBreak, rest) :=
    Reader.foldLine (fun scan here c => (scan.1.push c, scan.2.push s.tags here c))
      r.rest r.position r.location
      (CommentText.new quoted, { wordStart := start.location : TagSearch })
  let stop := lineBreak.getD rest.location
  let text := body.text.reverse
  let tagged := (search.finish s.tags).toList.map fun tag =>
    Entry.tagged {
      tag := String.ofList tag.word
      text := String.ofList tag.text.reverse
      startsLine := s.freshLine
      span := ⟨tag.start, stop⟩ }
  let tooLong :=
    if Limits.maxCommentLength < text.length then
      [problem start.location (.commentTooLong text.length)]
    else []
  let comment := Entry.trivia (.comment
    { style := body.style, text := String.ofList text, startsLine := s.freshLine
      span := ⟨start.location, stop⟩ })
  endOfLine s.freshLine stop rest (tagged ++ tooLong ++ [comment])

end Piece

end BasicLexis
