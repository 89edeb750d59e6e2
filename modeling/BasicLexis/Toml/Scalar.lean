import BasicLexis.Calendar.Moment
import BasicLexis.Number.Binary
import BasicLexis.Text.Character
import BasicLexis.Toml.Value

set_option autoImplicit false

/-! # TOML strings, numbers and moments

Each reader takes the upcoming characters and gives a value with the characters after it, or `none`
if the characters do not start with such a value. -/

namespace BasicLexis.Toml

/-- A reader of one kind of thing. -/
abbrev Parse (α : Type) := List Char → Option (α × List Char)

/-- A character that may stand as itself in a comment or string: no control character but the tab. -/
def isPlain (c : Char) : Bool := c == '\t' || (0x20 ≤ c.toNat && c.toNat != 0x7F)

/-- A blank or a tab. -/
def isBlank (c : Char) : Bool := c == ' ' || c == '\t'

/-- The characters after the blanks at hand. -/
def skipBlanks (cs : List Char) : List Char := cs.dropWhile isBlank

/-- The characters after a line end. -/
def newline? : List Char → Option (List Char)
  | '\n' :: rest => some rest
  | '\r' :: '\n' :: rest => some rest
  | _ => none

/-! ## Strings -/

/-- The character with the given hexadecimal code point. -/
def codePoint? (digits : List Char) : Option Char :=
  let n := Text.numeral 16 digits
  if digits.all Text.isHexDigit && (n < 0xD800 || (0xDFFF < n && n < 0x110000)) then
    some (Char.ofNat n)
  else none

/-- Reads an escape, after its backslash. -/
def escape? : Parse Char
  | 'b' :: rest => some ('\x08', rest)
  | 't' :: rest => some ('\t', rest)
  | 'n' :: rest => some ('\n', rest)
  | 'f' :: rest => some ('\x0c', rest)
  | 'r' :: rest => some ('\r', rest)
  | '\x22' :: rest => some ('\x22', rest)
  | '\\' :: rest => some ('\\', rest)
  | 'u' :: rest =>
    if rest.length < 4 then none else (codePoint? (rest.take 4)).map (·, rest.drop 4)
  | 'U' :: rest =>
    if rest.length < 8 then none else (codePoint? (rest.take 8)).map (·, rest.drop 8)
  | _ => none

/-- Reads the inside of a string on one line up to the closing `quote`. Escapes are read between
    double quotes only. One unit of fuel pays for one character. -/
def line? (quote : Char) : Nat → List Char → Parse (List Char)
  | 0, _, _ => none
  | fuel + 1, content, cs =>
    match cs with
    | [] => none
    | c :: rest =>
      if c = quote then some (content.reverse, rest)
      else if c = '\\' ∧ quote = '\x22' then
        match escape? rest with
        | some (e, rest) => line? quote fuel (e :: content) rest
        | none => none
      else if isPlain c then line? quote fuel (c :: content) rest
      else none

/-- The characters after the blanks and line ends at hand. A carriage return alone is no line end. -/
def skipWhitespace : List Char → List Char
  | '\r' :: '\n' :: rest => skipWhitespace rest
  | c :: rest => if isBlank c || c == '\n' then skipWhitespace rest else c :: rest
  | [] => []

/-- The characters after the line end that a backslash joins, and after the blanks and line ends
    around it; `none` if the backslash does not end its line. -/
def joinLines? (cs : List Char) : Option (List Char) :=
  (newline? (skipBlanks cs)).map skipWhitespace

/-- Reads the inside of a string of several lines up to three closing quotes. Up to two quotes may
    stand right before those. -/
def lines? (quote : Char) : Nat → List Char → Parse (List Char)
  | 0, _, _ => none
  | fuel + 1, content, cs =>
    match cs with
    | [] => none
    | c :: rest =>
      if c = quote then
        let run := cs.takeWhile (· == quote)
        if run.length < 3 then lines? quote fuel (c :: content) rest
        else
          let kept := min (run.length - 3) 2
          some (content.reverse ++ run.take kept, cs.drop (kept + 3))
      else if c = '\\' ∧ quote = '\x22' then
        match joinLines? rest with
        | some rest => lines? quote fuel content rest
        | none =>
          match escape? rest with
          | some (e, rest) => lines? quote fuel (e :: content) rest
          | none => none
      else
        match newline? cs with
        | some rest => lines? quote fuel ('\n' :: content) rest
        | none => if isPlain c then lines? quote fuel (c :: content) rest else none

/-- Reads a string in double or single quotes, on one line or, in three quotes, on several. -/
def string? (cs : List Char) : Option (String × List Char) :=
  match cs with
  | a :: rest =>
    if a = '\x22' ∨ a = '\x27' then
      match rest with
      | b :: c :: more =>
        if b = a ∧ c = a then
          (lines? a cs.length [] ((newline? more).getD more)).map fun (s, r) => (String.ofList s, r)
        else (line? a cs.length [] rest).map fun (s, r) => (String.ofList s, r)
      | _ => (line? a cs.length [] rest).map fun (s, r) => (String.ofList s, r)
    else none
  | [] => none

/-! ## Numbers -/

/-- Reads digits of a kind, with single underscores between them. The digits come without the
    underscores. `digits` holds those already read, in reverse. -/
def digitsFrom (isDigit : Char → Bool) : List Char → List Char → List Char × List Char
  | digits, '_' :: c :: rest =>
    if isDigit c && !digits.isEmpty then digitsFrom isDigit (c :: digits) rest
    else (digits.reverse, '_' :: c :: rest)
  | digits, c :: rest =>
    if isDigit c then digitsFrom isDigit (c :: digits) rest else (digits.reverse, c :: rest)
  | digits, [] => (digits.reverse, [])

/-- Reads at least one digit of a kind. -/
def digits? (isDigit : Char → Bool) (cs : List Char) : Option (List Char × List Char) :=
  match digitsFrom isDigit [] cs with
  | ([], _) => none
  | found => some found

/-- Reads an optional sign; the result tells whether it is a minus. -/
def sign (cs : List Char) : Bool × List Char :=
  match cs with
  | '-' :: rest => (true, rest)
  | '+' :: rest => (false, rest)
  | rest => (false, rest)

/-- Reads the digits of a decimal integer, which start with a zero only if they are just that. -/
def whole? (cs : List Char) : Option (List Char × List Char) :=
  match cs with
  | '0' :: rest => some (['0'], rest)
  | cs => digits? Text.isDigit cs

/-- The numbers of 64 bits with a sign. -/
def fits (n : Int) : Bool := -0x8000000000000000 ≤ n && n < 0x8000000000000000

/-- Reads the digits of an integer in another base. -/
def based? (base : Nat) (isDigit : Char → Bool) (cs : List Char) : Option (Value × List Char) := do
  let (digits, rest) ← digits? isDigit cs
  let n := Text.numeral base digits
  if fits n then some (.integer n, rest) else none

/-- Reads an integer. -/
def integer? (cs : List Char) : Option (Value × List Char) :=
  match cs with
  | '0' :: 'x' :: rest => based? 16 Text.isHexDigit rest
  | '0' :: 'o' :: rest => based? 8 Text.isOctalDigit rest
  | '0' :: 'b' :: rest => based? 2 (fun c => c == '0' || c == '1') rest
  | cs => do
    let (negative, rest) := sign cs
    let (digits, rest) ← whole? rest
    let n : Int := Text.numeral 10 digits
    let n := if negative then -n else n
    if fits n then some (.integer n, rest) else none

/-- The characters read between two places. -/
def textBetween (cs rest : List Char) : String := String.ofList (cs.take (cs.length - rest.length))

/-- Reads an exponent: its value and what follows. -/
def exponent? : Parse Int
  | c :: rest =>
    if c = 'e' ∨ c = 'E' then do
      let (negative, rest) := sign rest
      let (digits, rest) ← digits? Text.isDigit rest
      let n : Int := Text.numeral 10 digits
      return (if negative then -n else n, rest)
    else none
  | [] => none

/-- Reads a fraction: its digits and what follows. -/
def fraction? : Parse (List Char)
  | '.' :: rest => digits? Text.isDigit rest
  | _ => none

/-- Reads a number with a fraction or an exponent. One above the greatest number of 64 bits is
    refused. -/
def finite? (cs : List Char) : Option (Value × List Char) := do
  let (negative, afterSign) := sign cs
  let (digits, afterDigits) ← whole? afterSign
  let (fraction, power, rest) ←
    match fraction? afterDigits with
    | some (fraction, rest) =>
      match exponent? rest with
      | some (power, rest) => some (fraction, power, rest)
      | none => some (fraction, 0, rest)
    | none => (exponent? afterDigits).map fun (power, rest) => ([], power, rest)
  let value := BinaryFormat.double.ofScientific? (Text.numeral 10 (digits ++ fraction))
    (power - fraction.length)
  if negative || value.isSome then some (.real (textBetween cs rest), rest) else none

/-- Reads infinity or an undefined number. -/
def special? (cs : List Char) : Option (Value × List Char) :=
  match (sign cs).2 with
  | 'i' :: 'n' :: 'f' :: rest => some (.real (textBetween cs rest), rest)
  | 'n' :: 'a' :: 'n' :: rest => some (.real (textBetween cs rest), rest)
  | _ => none

/-! ## Moments -/

/-- Reads a number of exactly `count` digits. -/
def fixed? (count : Nat) (cs : List Char) : Option (Nat × List Char) :=
  let digits := cs.take count
  if digits.length = count && digits.all Text.isDigit then
    some (Text.numeral 10 digits, cs.drop count)
  else none

/-- Reads a number of two digits from `low` to `high`. -/
def twoDigits? (low high : Nat) (cs : List Char) : Option (Nat × List Char) := do
  let (n, rest) ← fixed? 2 cs
  if low ≤ n && n ≤ high then some (n, rest) else none

/-- Reads one given character. -/
def char? (c : Char) : List Char → Option (List Char)
  | d :: rest => if d = c then some rest else none
  | [] => none

/-- Reads a date; gives what follows. -/
def date? (cs : List Char) : Option (List Char) := do
  let (year, rest) ← fixed? 4 cs
  let rest ← char? '-' rest
  let (month, rest) ← twoDigits? 1 12 rest
  let rest ← char? '-' rest
  let (_, rest) ← twoDigits? 1 (Moment.daysInMonth year month) rest
  return rest

/-- Reads a time of the day; gives what follows. -/
def time? (cs : List Char) : Option (List Char) := do
  let (_, rest) ← twoDigits? 0 23 cs
  let rest ← char? ':' rest
  let (_, rest) ← twoDigits? 0 59 rest
  let rest ← char? ':' rest
  let (_, rest) ← twoDigits? 0 60 rest
  match rest with
  | '.' :: c :: more => if Text.isDigit c then return more.dropWhile Text.isDigit else return rest
  | rest => return rest

/-- Reads the offset of a time from universal time; gives what follows. -/
def offset? (cs : List Char) : Option (List Char) :=
  match cs with
  | c :: rest =>
    if c = 'Z' ∨ c = 'z' then some rest
    else if c = '+' ∨ c = '-' then do
      let (_, rest) ← twoDigits? 0 23 rest
      let rest ← char? ':' rest
      let (_, rest) ← twoDigits? 0 59 rest
      return rest
    else none
  | [] => none

/-- Reads a date, a time, or both. -/
def moment? (cs : List Char) : Option (Value × List Char) := do
  let rest ←
    match date? cs with
    | some rest =>
      match rest with
      | c :: more =>
        if c = 'T' ∨ c = 't' ∨ c = ' ' then
          match time? more with
          | some rest => some ((offset? rest).getD rest)
          | none => some rest
        else some rest
      | [] => some rest
    | none => time? cs
  return (.moment (textBetween cs rest), rest)

end BasicLexis.Toml
