import BasicLexis.Toml.Scalar

set_option autoImplicit false

/-! # TOML documents

A document is a list of lines: keys with values, headers of tables, comments. Values may nest; how
deep they may is bounded. -/

namespace BasicLexis.Toml

/-- Arrays and tables in braces may not nest this deep, nor may a dotted key have so many parts. -/
def nestingLimit : Nat := 80

/-- The characters after a comment, if one is at hand. -/
def skipComment? (cs : List Char) : Option (List Char) :=
  match cs with
  | '#' :: rest =>
    let rest := rest.dropWhile isPlain
    if rest.isEmpty || (newline? rest).isSome then some rest else none
  | cs => some cs

/-- The characters after blanks, line ends and comments. -/
def skipLines? : Nat → List Char → Option (List Char)
  | 0, _ => none
  | fuel + 1, cs =>
    match skipBlanks cs with
    | '#' :: rest =>
      match skipComment? ('#' :: rest) with
      | some rest =>
        match newline? rest with
        | some rest => skipLines? fuel rest
        | none => none
      | none => none
    | cs =>
      match newline? cs with
      | some rest => skipLines? fuel rest
      | none => some cs

/-! ## Keys -/

/-- A character of a key without quotes. -/
def isKeyChar (c : Char) : Bool :=
  ('a' ≤ c && c ≤ 'z') || ('A' ≤ c && c ≤ 'Z') || Text.isDigit c || c == '_' || c == '-'

/-- Reads one part of a key: in quotes on one line, or without quotes. -/
def keyPart? (cs : List Char) : Option (String × List Char) :=
  match cs with
  | c :: rest =>
    if c = '\x22' ∨ c = '\x27' then
      (line? c cs.length [] rest).map fun (s, r) => (String.ofList s, r)
    else
      let part := cs.takeWhile isKeyChar
      if part.isEmpty then none else some (String.ofList part, cs.dropWhile isKeyChar)
  | [] => none

/-- Reads the parts of a key, separated by dots, with blanks around them. -/
def keyParts? : Nat → List Char → Option (List String × List Char)
  | 0, _ => none
  | fuel + 1, cs => do
    let (part, rest) ← keyPart? (skipBlanks cs)
    match skipBlanks rest with
    | '.' :: rest =>
      let (parts, rest) ← keyParts? fuel rest
      return (part :: parts, rest)
    | rest => return ([part], rest)

/-- Reads a key: the path to a table and the key in it. -/
def key? (cs : List Char) : Option ((List String × String) × List Char) := do
  let (parts, rest) ← keyParts? (nestingLimit - 1) cs
  let last ← parts.getLast?
  return ((parts.dropLast, last), rest)

/-! ## Values -/

/-- Reads a value that starts with a sign or digit. -/
def numeric? (cs : List Char) : Option (Value × List Char) :=
  ((moment? cs).or (finite? cs)).or ((special? cs).or (integer? cs))

mutual

/-- Reads a value. `depth` counts the arrays and braces around it, and one unit of fuel pays for one
    value or separator. -/
def value? : Nat → Nat → List Char → Option (Value × List Char)
  | 0, _, _ => none
  | fuel + 1, depth, cs =>
    match cs with
    | '[' :: rest => if depth + 1 < nestingLimit then items? fuel (depth + 1) [] rest else none
    | '\x7b' :: rest =>
      if depth + 1 < nestingLimit then pairs? fuel (depth + 1) true [] rest else none
    | 't' :: 'r' :: 'u' :: 'e' :: rest => some (.boolean true, rest)
    | 'f' :: 'a' :: 'l' :: 's' :: 'e' :: rest => some (.boolean false, rest)
    | cs =>
      match string? cs with
      | some (s, rest) => some (.string s, rest)
      | none => numeric? cs

/-- Reads the items of an array up to its closing bracket. The items read so far are in reverse. -/
def items? : Nat → Nat → List Value → List Char → Option (Value × List Char)
  | 0, _, _, _ => none
  | fuel + 1, depth, items, cs =>
    match skipLines? (cs.length + 1) cs with
    | some (']' :: rest) => some (.array items.reverse, rest)
    | some cs =>
      match value? fuel depth cs with
      | some (item, rest) =>
        match skipLines? (rest.length + 1) rest with
        | some (',' :: rest) => items? fuel depth (item :: items) rest
        | some (']' :: rest) => some (.array (item :: items).reverse, rest)
        | _ => none
      | none => none
    | none => none

/-- Reads the pairs of a table in braces up to the closing brace, all on one line. Only a table
    without pairs may close at once. -/
def pairs? : Nat → Nat → Bool → Entries → List Char → Option (Value × List Char)
  | 0, _, _, _, _ => none
  | fuel + 1, depth, first, entries, cs =>
    match skipBlanks cs with
    | '\x7d' :: rest => if first then some (.table .inline entries, rest) else none
    | cs =>
      match key? cs with
      | some ((path, key), '=' :: rest) =>
        match value? fuel depth (skipBlanks rest) with
        | some (value, rest) =>
          match entries.insert? path key value .header with
          | some entries =>
            match skipBlanks rest with
            | ',' :: rest => pairs? fuel depth false entries rest
            | '\x7d' :: rest => some (.table .inline entries, rest)
            | _ => none
          | none => none
        | none => none
      | _ => none

end

/-! ## Lines -/

/-- The characters after the rest of a line: blanks, a comment, and the line end or the end of the
    document. -/
def endLine? (cs : List Char) : Option (List Char) := do
  let rest ← skipComment? (skipBlanks cs)
  if rest.isEmpty then some [] else newline? rest

/-- A document that is being read: its entries, and the path of the table that lines are added to. -/
structure Draft where
  /-- The entries so far. -/
  entries : Entries := []
  /-- The table of the latest header. -/
  current : List String := []

namespace Draft

/-- Reads the header of a table, after its opening brackets. -/
def header? (draft : Draft) (isArray : Bool) (cs : List Char) : Option (Draft × List Char) := do
  let ((path, key), rest) ← key? cs
  let rest ← char? ']' rest
  let rest ← if isArray then char? ']' rest else some rest
  let entries ←
    if isArray then draft.entries.openItem? path key else draft.entries.openTable? path key
  return ({ entries, current := path ++ [key] }, rest)

/-- Reads a key with its value. -/
def pair? (draft : Draft) (cs : List Char) : Option (Draft × List Char) := do
  let ((path, key), rest) ← key? cs
  let rest ← char? '=' rest
  let (value, rest) ← value? (rest.length + 1) 0 (skipBlanks rest)
  let entries ← draft.entries.descend? .implied (fun here entries =>
    entries.insert? path key value here) draft.current .header
  return ({ draft with entries }, rest)

/-- Reads the lines of a document. One unit of fuel pays for one line. -/
def lines? : Nat → Draft → List Char → Option Draft
  | 0, _, _ => none
  | fuel + 1, draft, cs =>
    match skipBlanks cs with
    | [] => some draft
    | '[' :: '[' :: rest => do
      let (draft, rest) ← draft.header? true rest
      lines? fuel draft (← endLine? rest)
    | '[' :: rest => do
      let (draft, rest) ← draft.header? false rest
      lines? fuel draft (← endLine? rest)
    | c :: rest =>
      if c = '#' ∨ c = '\n' ∨ c = '\r' then do
        lines? fuel draft (← endLine? (c :: rest))
      else do
        let (draft, rest) ← draft.pair? (c :: rest)
        lines? fuel draft (← endLine? rest)

end Draft

/-- The entries of a document; `none` if it is malformed. A byte order mark before it is left out. -/
def parse? (text : List Char) : Option Entries :=
  let text :=
    match text with
    | '\uFEFF' :: rest => rest
    | text => text
  (Draft.lines? (text.length + 1) {} text).map (·.entries)

end BasicLexis.Toml
