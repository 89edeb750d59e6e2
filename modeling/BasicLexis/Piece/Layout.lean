import BasicLexis.Piece.Word

set_option autoImplicit false

/-! # Whitespace and line continuations

Line ends are tokens when tokens precede them on the line, and blank lines otherwise. An underscore
before whitespace continues the line. -/

namespace BasicLexis.Piece

/-- Whitespace: the character `c` was read, and `r` is the place after it. -/
def blank (s : Setting) (c : Char) (start r : Reader) : Piece :=
  match r.finishLineEnd? c with
  | some rest =>
    endOfLine s.freshLine start.location rest
      (if s.freshLine then [.trivia (.blankLine start.location)] else [])
  | none => { rest := r }

/-- The line end that has to follow the whitespace after an underscore. -/
def continuation (r : Reader) : Piece :=
  let stop := r.skipWhile Text.isInlineBlank
  match stop.peek with
  | none => { rest := stop, entries := [problem stop.location .eofAfterLineContinuation] }
  | some c =>
    if Text.isLineEnd c then { rest := stop.skipLineEnd }
    else { rest := stop, entries := [problem stop.location .returnExpected] }

/-- An underscore, which continues a line or starts a name; `r` is the place after it. -/
def underscore (s : Setting) (start r : Reader) : Piece :=
  if r.peekIs (!Text.isBlank ·) then name s start r else continuation r

end BasicLexis.Piece
