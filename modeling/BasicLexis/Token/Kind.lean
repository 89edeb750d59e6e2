import BasicLexis.Token.Keyword

set_option autoImplicit false

/-! # Kinds of tokens

A token is of one of these kinds: the ends of lines and of the source, names, literals, the markup
of XML literals, punctuation and operators, and the keywords. -/

namespace BasicLexis

/-- What a token is. -/
inductive TokenKind where
  -- Structure and names
  | eof | eol | identifier
  -- Literals
  | literalInteger | literalString | literalCharacter | literalDecimal | literalSingle
  | literalDouble | literalDate
  -- The markup of XML literals
  | xmlOpenTag | xmlCloseTag | xmlOpenEndTag | xmlCloseEmptyTag | xmlExpressionStart
  | xmlExpressionEnd | xmlContent | xmlComment | xmlCData | xmlInstructionStart
  | xmlInstructionEnd
  -- Punctuation
  | dot | comma | colon | exclamation | question | openParen | closeParen | openBrace
  | closeBrace
  -- Operators
  | plus | minus | times | divide | integerDivide | concat | power | assign | less | greater
  | lessEqual | greaterEqual | notEqual | shiftLeft | shiftRight | plusAssign | minusAssign
  | timesAssign | divideAssign | integerDivideAssign | concatAssign | powerAssign
  | shiftLeftAssign | shiftRightAssign | colonAssign | dotAt | tripleDot
  -- Keywords
  | keyword (word : Keyword)
  deriving DecidableEq, Repr

namespace TokenKind

/-- The kinds that are not keywords, under their names. -/
def named : List (String × TokenKind) := [
  ("Eof", .eof),
  ("Eol", .eol),
  ("Identifier", .identifier),
  ("LiteralInteger", .literalInteger),
  ("LiteralString", .literalString),
  ("LiteralCharacter", .literalCharacter),
  ("LiteralDecimal", .literalDecimal),
  ("LiteralSingle", .literalSingle),
  ("LiteralDouble", .literalDouble),
  ("LiteralDate", .literalDate),
  ("XmlOpenTag", .xmlOpenTag),
  ("XmlCloseTag", .xmlCloseTag),
  ("XmlOpenEndTag", .xmlOpenEndTag),
  ("XmlCloseTagEmptyElement", .xmlCloseEmptyTag),
  ("XmlStartInlineVB", .xmlExpressionStart),
  ("XmlEndInlineVB", .xmlExpressionEnd),
  ("XmlContent", .xmlContent),
  ("XmlComment", .xmlComment),
  ("XmlCData", .xmlCData),
  ("XmlProcessingInstructionStart", .xmlInstructionStart),
  ("XmlProcessingInstructionEnd", .xmlInstructionEnd),
  ("Dot", .dot),
  ("Comma", .comma),
  ("Colon", .colon),
  ("ExclamationMark", .exclamation),
  ("QuestionMark", .question),
  ("OpenParenthesis", .openParen),
  ("CloseParenthesis", .closeParen),
  ("OpenCurlyBrace", .openBrace),
  ("CloseCurlyBrace", .closeBrace),
  ("Plus", .plus),
  ("Minus", .minus),
  ("Times", .times),
  ("Div", .divide),
  ("DivInteger", .integerDivide),
  ("ConcatString", .concat),
  ("Power", .power),
  ("Assign", .assign),
  ("LessThan", .less),
  ("GreaterThan", .greater),
  ("LessEqual", .lessEqual),
  ("GreaterEqual", .greaterEqual),
  ("NotEqual", .notEqual),
  ("ShiftLeft", .shiftLeft),
  ("ShiftRight", .shiftRight),
  ("PlusAssign", .plusAssign),
  ("MinusAssign", .minusAssign),
  ("TimesAssign", .timesAssign),
  ("DivAssign", .divideAssign),
  ("DivIntegerAssign", .integerDivideAssign),
  ("ConcatStringAssign", .concatAssign),
  ("PowerAssign", .powerAssign),
  ("ShiftLeftAssign", .shiftLeftAssign),
  ("ShiftRightAssign", .shiftRightAssign),
  ("ColonAssign", .colonAssign),
  ("DotAt", .dotAt),
  ("TripleDot", .tripleDot)]

/-- The name of a kind. All keywords share one. -/
def name : TokenKind → String
  | .eof => "Eof"
  | .eol => "Eol"
  | .identifier => "Identifier"
  | .literalInteger => "LiteralInteger"
  | .literalString => "LiteralString"
  | .literalCharacter => "LiteralCharacter"
  | .literalDecimal => "LiteralDecimal"
  | .literalSingle => "LiteralSingle"
  | .literalDouble => "LiteralDouble"
  | .literalDate => "LiteralDate"
  | .xmlOpenTag => "XmlOpenTag"
  | .xmlCloseTag => "XmlCloseTag"
  | .xmlOpenEndTag => "XmlOpenEndTag"
  | .xmlCloseEmptyTag => "XmlCloseTagEmptyElement"
  | .xmlExpressionStart => "XmlStartInlineVB"
  | .xmlExpressionEnd => "XmlEndInlineVB"
  | .xmlContent => "XmlContent"
  | .xmlComment => "XmlComment"
  | .xmlCData => "XmlCData"
  | .xmlInstructionStart => "XmlProcessingInstructionStart"
  | .xmlInstructionEnd => "XmlProcessingInstructionEnd"
  | .dot => "Dot"
  | .comma => "Comma"
  | .colon => "Colon"
  | .exclamation => "ExclamationMark"
  | .question => "QuestionMark"
  | .openParen => "OpenParenthesis"
  | .closeParen => "CloseParenthesis"
  | .openBrace => "OpenCurlyBrace"
  | .closeBrace => "CloseCurlyBrace"
  | .plus => "Plus"
  | .minus => "Minus"
  | .times => "Times"
  | .divide => "Div"
  | .integerDivide => "DivInteger"
  | .concat => "ConcatString"
  | .power => "Power"
  | .assign => "Assign"
  | .less => "LessThan"
  | .greater => "GreaterThan"
  | .lessEqual => "LessEqual"
  | .greaterEqual => "GreaterEqual"
  | .notEqual => "NotEqual"
  | .shiftLeft => "ShiftLeft"
  | .shiftRight => "ShiftRight"
  | .plusAssign => "PlusAssign"
  | .minusAssign => "MinusAssign"
  | .timesAssign => "TimesAssign"
  | .divideAssign => "DivAssign"
  | .integerDivideAssign => "DivIntegerAssign"
  | .concatAssign => "ConcatStringAssign"
  | .powerAssign => "PowerAssign"
  | .shiftLeftAssign => "ShiftLeftAssign"
  | .shiftRightAssign => "ShiftRightAssign"
  | .colonAssign => "ColonAssign"
  | .dotAt => "DotAt"
  | .tripleDot => "TripleDot"
  | .keyword _ => "Keyword"

/-- A kind as reports show it: its name, with the spelling of a keyword in parentheses. -/
def render : TokenKind → String
  | .keyword word => "Keyword(" ++ word.spelling ++ ")"
  | kind => kind.name

/-- The kind that a name stands for: the name of a kind exactly, or else a keyword in any case. -/
def ofName? (text : String) : Option TokenKind :=
  match named.lookup text with
  | some kind => some kind
  | none => (Keyword.ofWord? text.toList).map .keyword

/-- The fixed spelling of punctuation, operators, markup and keywords; `none` for the kinds whose
    text varies. -/
def symbol? : TokenKind → Option String
  | .xmlOpenTag => some "<"
  | .xmlCloseTag => some ">"
  | .xmlOpenEndTag => some "</"
  | .xmlCloseEmptyTag => some "/>"
  | .xmlExpressionStart => some "<%="
  | .xmlExpressionEnd => some "%>"
  | .xmlInstructionStart => some "<?"
  | .xmlInstructionEnd => some "?>"
  | .dot => some "."
  | .comma => some ","
  | .colon => some ":"
  | .exclamation => some "!"
  | .question => some "?"
  | .openParen => some "("
  | .closeParen => some ")"
  | .openBrace => some "\x7b"
  | .closeBrace => some "\x7d"
  | .plus => some "+"
  | .minus => some "-"
  | .times => some "*"
  | .divide => some "/"
  | .integerDivide => some "\\"
  | .concat => some "&"
  | .power => some "^"
  | .assign => some "="
  | .less => some "<"
  | .greater => some ">"
  | .lessEqual => some "<="
  | .greaterEqual => some ">="
  | .notEqual => some "<>"
  | .shiftLeft => some "<<"
  | .shiftRight => some ">>"
  | .plusAssign => some "+="
  | .minusAssign => some "-="
  | .timesAssign => some "*="
  | .divideAssign => some "/="
  | .integerDivideAssign => some "\\="
  | .concatAssign => some "&="
  | .powerAssign => some "^="
  | .shiftLeftAssign => some "<<="
  | .shiftRightAssign => some ">>="
  | .colonAssign => some ":="
  | .dotAt => some ".@"
  | .tripleDot => some "..."
  | .keyword word => some word.spelling
  | _ => none

/-- Literals of all types. -/
def isLiteral : TokenKind → Bool
  | .literalInteger | .literalString | .literalCharacter | .literalDecimal
  | .literalSingle | .literalDouble | .literalDate => true
  | _ => false

/-- The markup of XML literals. -/
def isXml : TokenKind → Bool
  | .xmlOpenTag | .xmlCloseTag | .xmlOpenEndTag | .xmlCloseEmptyTag | .xmlExpressionStart
  | .xmlExpressionEnd | .xmlContent | .xmlComment | .xmlCData | .xmlInstructionStart
  | .xmlInstructionEnd => true
  | _ => false

/-- The operators between two operands. An expression continues after them, if need be on the next
    line. -/
def isBinaryOperator : TokenKind → Bool
  | .plus | .minus | .times | .divide | .integerDivide | .concat | .power | .assign
  | .less | .greater | .lessEqual | .greaterEqual | .notEqual | .shiftLeft | .shiftRight => true
  | .keyword .Mod | .keyword .And | .keyword .AndAlso | .keyword .Or | .keyword .OrElse => true
  | .keyword .Xor | .keyword .Is | .keyword .IsNot | .keyword .Like => true
  | _ => false

/-- Assignment, plain or combined with an operation. -/
def isAssignment : TokenKind → Bool
  | .assign | .plusAssign | .minusAssign | .timesAssign | .divideAssign
  | .integerDivideAssign | .concatAssign | .powerAssign | .shiftLeftAssign
  | .shiftRightAssign => true
  | _ => false

/-- The kinds that end a statement. -/
def isTerminator : TokenKind → Bool
  | .eol | .colon | .eof => true
  | _ => false

/-- The keyword of a kind, if it is one. -/
def keyword? : TokenKind → Option Keyword
  | .keyword word => some word
  | _ => none

/-- An identifier, or a contextual keyword that serves as one. -/
def isName : TokenKind → Bool
  | .identifier => true
  | .keyword word => word.isContextual
  | _ => false

/-- Anything that may follow a dot in a qualified name: an identifier or any keyword. -/
def isMemberName : TokenKind → Bool
  | .identifier | .keyword _ => true
  | _ => false

end TokenKind

end BasicLexis
