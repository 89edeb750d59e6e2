import BasicLexis.Source.Location
import BasicLexis.Text.Character

set_option autoImplicit false

/-! # Reading a source text

A reader is a place in a source text: the characters still to be read, how many have been read, and
the location of the next one. Reading a character gives the reader for the place after it, so a
reader can be kept and compared with a later one: the text between the two is what was read.

Line feeds, carriage returns, and pairs of the two each end one line. -/

namespace BasicLexis

/-- A place in a source text. -/
structure Reader where
  /-- The characters that have not been read. -/
  rest : List Char
  /-- How many characters have been read. -/
  position : Nat
  /-- The location of the next character. -/
  location : Location
  deriving DecidableEq, Repr

namespace Reader

/-- The beginning of a text. -/
def ofText (text : List Char) : Reader := ⟨text, 0, Location.start⟩

/-- All characters have been read. -/
def atEnd (r : Reader) : Bool := r.rest.isEmpty

/-- The next character. -/
def peek (r : Reader) : Option Char := r.rest.head?

/-- The character `k` places after the next one. -/
def peekAt (r : Reader) (k : Nat) : Option Char := r.rest[k]?

/-- The next character exists and satisfies `p`. -/
def peekIs (r : Reader) (p : Char → Bool) : Bool := r.peek.any p

/-- Reads one character. -/
def read? (r : Reader) : Option (Char × Reader) :=
  match r.rest with
  | [] => none
  | c :: cs => some (c, ⟨cs, r.position + 1, r.location.after c cs.head?⟩)

/-- The place after the next character; the end stays where it is. -/
def skip (r : Reader) : Reader :=
  match r.read? with
  | some (_, r') => r'
  | none => r

/-- The place `n` characters further on. -/
def skipMany : Nat → Reader → Reader
  | 0, r => r
  | n + 1, r => skipMany n r.skip

/-- Skips the characters of a list of upcoming characters while `p` holds of them. -/
def skipRun (p : Char → Bool) : List Char → Nat → Location → Reader
  | [], n, l => ⟨[], n, l⟩
  | c :: cs, n, l => if p c then skipRun p cs (n + 1) (l.after c cs.head?) else ⟨c :: cs, n, l⟩

/-- The place of the first upcoming character that does not satisfy `p`. -/
def skipWhile (p : Char → Bool) (r : Reader) : Reader := skipRun p r.rest r.position r.location

/-- The text between a place and a later one. -/
def textTo (r later : Reader) : List Char := r.rest.take (later.position - r.position)

/-- Reads the characters of a list of upcoming characters while `p` holds of them. `text` is what was
    read so far, in reverse. -/
def readRun (p : Char → Bool) : List Char → Nat → Location → List Char → List Char × Reader
  | [], n, l, text => (text.reverse, ⟨[], n, l⟩)
  | c :: cs, n, l, text =>
    if p c then readRun p cs (n + 1) (l.after c cs.head?) (c :: text)
    else (text.reverse, ⟨c :: cs, n, l⟩)

/-- Reads the characters that satisfy `p`, up to the first that does not. -/
def readWhile (p : Char → Bool) (r : Reader) : List Char × Reader :=
  readRun p r.rest r.position r.location []

/-- Reads the next character if it is `c`. -/
def eat? (c : Char) (r : Reader) : Option Reader :=
  if r.peek = some c then some r.skip else none

/-- Reads `text` if the upcoming characters spell it. -/
def eatText? (text : List Char) (r : Reader) : Option Reader :=
  if text.isPrefixOf r.rest then some (r.skipMany text.length) else none

/-- Reads the next character if it is `c`, and stays otherwise. -/
def eatOptional (c : Char) (r : Reader) : Reader := (r.eat? c).getD r

/-- Completes the line end whose first character `c` was just read: the line feed after a carriage
    return belongs to it. `none` when `c` ends no line. -/
def finishLineEnd? (c : Char) (r : Reader) : Option Reader :=
  if c = '\r' then some (r.eatOptional '\n')
  else if c = '\n' then some r
  else none

/-- The place after the line end at hand, if there is one. -/
def skipLineEnd (r : Reader) : Reader :=
  match r.read? with
  | some (c, r') => (r'.finishLineEnd? c).getD r
  | none => r

/-- Reads the characters of a list of upcoming characters up to and including the next line end. Each
    character before it is told to `f` with its location. The place where the line end starts is
    `none` if the text ends first. -/
def foldLine {σ : Type} (f : σ → Location → Char → σ) :
    List Char → Nat → Location → σ → σ × Option Location × Reader
  | [], n, l, state => (state, none, ⟨[], n, l⟩)
  | c :: cs, n, l, state =>
    match finishLineEnd? c ⟨cs, n + 1, l.after c cs.head?⟩ with
    | some rest => (state, some l, rest)
    | none => foldLine f cs (n + 1) (l.after c cs.head?) (f state l c)

/-- Reads up to and including the next line end. The line end is not part of the text. -/
def readLine (r : Reader) : List Char × Reader :=
  let (text, _, rest) := foldLine (fun text _ c => c :: text) r.rest r.position r.location []
  (text.reverse, rest)

end Reader

/-- The characters of a text from one position up to another, both cut to its length. -/
def sliceText (text : List Char) (start stop : Nat) : List Char := (text.take stop).drop start

end BasicLexis
