import BasicLexis.Proofs.Scanner.Lockstep

set_option autoImplicit false

/-! # The syntax of XML literals

An XML literal is an element with its attributes and contents. Contents are character data,
elements, comments, character data sections and embedded expressions, which are elements again or
names. The parts carry what makes them readable: a name consists of name characters, an attribute
value holds no quote, a comment does not hold the mark that closes it. Character data stands only
between other contents, so that two stretches of it are never adjacent.

`Element.print` writes an element down, and `Element.lexemes` lists its tokens. -/

namespace BasicLexis.Markup

/-! ## Parts -/

/-- The name of an element or attribute. -/
structure Name where
  first : Char
  others : List Char
  alphabetic : Text.isAlphabetic first = true
  named : ∀ c ∈ others, Text.isMarkupNameChar c = true

def Name.chars (n : Name) : List Char := n.first :: n.others

/-- An attribute. -/
structure Attribute where
  name : Name
  value : List Char
  unquoted : ∀ c ∈ value, c ≠ '\x22'
  oneLine : ∀ c ∈ value, Text.isLineEnd c = false

/-- The attribute with the space before it. -/
def Attribute.print (a : Attribute) : List Char :=
  ' ' :: (a.name.chars ++ '=' :: '\x22' :: (a.value ++ ['\x22']))

def Attribute.lexemes (a : Attribute) : List Lexeme :=
  [.word .identifier a.name.chars, .symbol .assign,
    { kind := .literalString, text := String.ofList ('\x22' :: (a.value ++ ['\x22']))
      value := .string (String.ofList a.value), format := .stringLiteral }]

/-- A stretch of character data. -/
structure CharacterData where
  first : Char
  others : List Char
  free : ∀ c ∈ first :: others, c ≠ '<'

def CharacterData.chars (d : CharacterData) : List Char := d.first :: d.others

/-- The mark that closes a comment. -/
def commentEnd : List Char := ['-', '-', '>']

/-- The mark that closes a character data section. -/
def cdataEnd : List Char := [']', ']', '>']

/-- A name that is no keyword. A low line alone would continue the line. -/
structure Identifier where
  first : Char
  others : List Char
  starts : Text.isAlphabetic first = true ∨ first = '_' ∧ others ≠ []
  word : ∀ c ∈ others, Text.isWordChar c = true
  noKeyword : Keyword.ofWord? (first :: others) = none
  short : (first :: others).length ≤ Limits.maxIdentifierLength

def Identifier.chars (i : Identifier) : List Char := i.first :: i.others

/-! ## Elements -/

mutual

/-- An element. -/
inductive Element where
  /-- `<name .../>` -/
  | empty (name : Name) (attributes : List Attribute)
  /-- `<name ...>...</closing>` -/
  | full (name : Name) (attributes : List Attribute) (contents : Contents) (closing : Name)

/-- The contents of an element, with or without character data before each item and at the end. -/
inductive Contents where
  | last (data : Option CharacterData)
  | cons (data : Option CharacterData) (item : Item) (others : Contents)

/-- An item of the contents. -/
inductive Item where
  | element (e : Element)
  | comment (body : List Char) (h : ¬commentEnd <:+: body)
  | cdata (body : List Char) (h : ¬cdataEnd <:+: body)
  | embedded (x : Embedded)

/-- An embedded expression. -/
inductive Embedded where
  | element (e : Element)
  | identifier (i : Identifier)

end

/-! ## Writing -/

/-- The characters of character data that may be absent. -/
def printData : Option CharacterData → List Char
  | none => []
  | some d => d.chars

mutual

/-- The text of an element. -/
def Element.print : Element → List Char
  | .empty name attributes =>
    '<' :: (name.chars ++ (attributes.flatMap Attribute.print ++ ['/', '>']))
  | .full name attributes contents closing =>
    '<' :: (name.chars ++ (attributes.flatMap Attribute.print ++ '>' :: (contents.print
      ++ '<' :: '/' :: (closing.chars ++ ['>']))))

def Contents.print : Contents → List Char
  | .last data => printData data
  | .cons data item others => printData data ++ (item.print ++ others.print)

def Item.print : Item → List Char
  | .element e => e.print
  | .comment body _ => '<' :: '!' :: '-' :: '-' :: (body ++ commentEnd)
  | .cdata body _ =>
    '<' :: '!' :: '[' :: 'C' :: 'D' :: 'A' :: 'T' :: 'A' :: '[' :: (body ++ cdataEnd)
  | .embedded x => '<' :: '%' :: '=' :: ' ' :: (x.print ++ [' ', '%', '>'])

def Embedded.print : Embedded → List Char
  | .element e => e.print
  | .identifier i => i.chars

end

/-- The tokens of character data that may be absent. -/
def dataLexemes : Option CharacterData → List Lexeme
  | none => []
  | some d => [.word .xmlContent d.chars]

mutual

/-- The tokens of an element. -/
def Element.lexemes : Element → List Lexeme
  | .empty name attributes =>
    .symbol .xmlOpenTag :: .word .identifier name.chars
      :: (attributes.flatMap Attribute.lexemes ++ [.symbol .xmlCloseEmptyTag])
  | .full name attributes contents closing =>
    .symbol .xmlOpenTag :: .word .identifier name.chars
      :: (attributes.flatMap Attribute.lexemes ++ .symbol .xmlCloseTag :: (contents.lexemes
        ++ [.symbol .xmlOpenEndTag, .word .identifier closing.chars, .symbol .xmlCloseTag]))

def Contents.lexemes : Contents → List Lexeme
  | .last data => dataLexemes data
  | .cons data item others => dataLexemes data ++ (item.lexemes ++ others.lexemes)

def Item.lexemes : Item → List Lexeme
  | .element e => e.lexemes
  | .comment body _ => [.word .xmlComment body]
  | .cdata body _ => [.word .xmlCData body]
  | .embedded x => .symbol .xmlExpressionStart :: (x.lexemes ++ [.symbol .xmlExpressionEnd])

def Embedded.lexemes : Embedded → List Lexeme
  | .element e => e.lexemes
  | .identifier i => [.word .identifier i.chars]

end

/-! ## Depth -/

mutual

/-- How many literals are open around the innermost one. -/
def Element.nesting : Element → Nat
  | .empty _ _ => 0
  | .full _ _ contents _ => contents.nesting

def Contents.nesting : Contents → Nat
  | .last _ => 0
  | .cons _ item others => max item.nesting others.nesting

def Item.nesting : Item → Nat
  | .element e => e.nesting
  | .comment _ _ | .cdata _ _ => 0
  | .embedded x => x.nesting

def Embedded.nesting : Embedded → Nat
  -- the scanner suspends the literal around the expression
  | .element e => e.nesting + 1
  | .identifier _ => 0

end

mutual

/-- How many frames the embedded expressions of an element need on top of that of the literal: one
    for each expression, and one for the literal that it may be. -/
def Element.frames : Element → Nat
  | .empty _ _ => 0
  | .full _ _ contents _ => contents.frames

def Contents.frames : Contents → Nat
  | .last _ => 0
  | .cons _ item others => max item.frames others.frames

def Item.frames : Item → Nat
  | .element e => e.frames
  | .comment _ _ | .cdata _ _ => 0
  | .embedded x => x.frames

def Embedded.frames : Embedded → Nat
  | .element e => e.frames + 2
  | .identifier _ => 1

end

end BasicLexis.Markup
