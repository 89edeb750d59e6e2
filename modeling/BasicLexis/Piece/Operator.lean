import BasicLexis.Piece.Basic

set_option autoImplicit false

/-! # Operators and punctuation

Of two operators of which one starts with the other, the longer one is read. -/

namespace BasicLexis.Piece

/-- The assignment form of an operator if an equals sign follows, and its plain form otherwise. -/
def orAssign (r : Reader) (plain assigning : TokenKind) : TokenKind × Reader :=
  match r.eat? '=' with
  | some r => (assigning, r)
  | none => (plain, r)

/-- The operator that starts with a less-than sign. -/
def afterLess (r : Reader) : TokenKind × Reader :=
  match r.peek with
  | some '>' => (.notEqual, r.skip)
  | some '=' => (.lessEqual, r.skip)
  | some '<' => orAssign r.skip .shiftLeft .shiftLeftAssign
  | _ => (.less, r)

/-- The operator that starts with a greater-than sign. -/
def afterGreater (r : Reader) : TokenKind × Reader :=
  match r.peek with
  | some '=' => (.greaterEqual, r.skip)
  | some '>' => orAssign r.skip .shiftRight .shiftRightAssign
  | _ => (.greater, r)

/-- The operator that starts with a dot. -/
def afterDot (r : Reader) : TokenKind × Reader :=
  if r.peek = some '@' then (.dotAt, r.skip)
  else if r.peek = some '.' ∧ r.peekAt 1 = some '.' then (.tripleDot, r.skip.skip)
  else (.dot, r)

/-- The operator or punctuation that starts with a character, and the place after it. `none` if no
    token starts with the character. -/
def operatorKind? (c : Char) (r : Reader) : Option (TokenKind × Reader) :=
  match c with
  | '+' => some (orAssign r .plus .plusAssign)
  | '-' => some (orAssign r .minus .minusAssign)
  | '*' => some (orAssign r .times .timesAssign)
  | '/' => some (orAssign r .divide .divideAssign)
  | '\\' => some (orAssign r .integerDivide .integerDivideAssign)
  | '&' => some (orAssign r .concat .concatAssign)
  | '^' => some (orAssign r .power .powerAssign)
  | ':' => some (orAssign r .colon .colonAssign)
  | '=' => some (.assign, r)
  | '<' => some (afterLess r)
  | '>' => some (afterGreater r)
  | '.' => some (afterDot r)
  | ',' => some (.comma, r)
  | '!' => some (.exclamation, r)
  | '?' => some (.question, r)
  | '(' => some (.openParen, r)
  | ')' => some (.closeParen, r)
  | '\x7b' => some (.openBrace, r)
  | '\x7d' => some (.closeBrace, r)
  | _ => none

/-- An operator or punctuation. A character that no token starts with is reported and left out. -/
def operator (c : Char) (start r : Reader) : Piece :=
  match operatorKind? c r with
  | some (kind, rest) => symbol kind start rest
  | none => { rest := r, entries := [problem start.location (.unknownCharacter c)] }

end BasicLexis.Piece
