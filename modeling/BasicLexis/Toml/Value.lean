set_option autoImplicit false

/-! # TOML values

The values of a TOML document. A table remembers how it came to be, because that decides whether a
later part of the document may still add to it. -/

namespace BasicLexis.Toml

/-- How a table came to be. -/
inductive Origin where
  /-- Written between braces; closed. -/
  | inline
  /-- Named by a header of its own, or the document itself. -/
  | header
  /-- Implied by the header of a table inside it; may still get a header of its own. -/
  | implied
  /-- Implied by a dotted key; further dotted keys may add to it. -/
  | dotted
  deriving DecidableEq, Repr

/-- A value. Numbers with a fraction and moments are kept as they are written. -/
inductive Value where
  | string (text : String)
  | integer (value : Int)
  | real (text : String)
  | boolean (value : Bool)
  | moment (text : String)
  | array (items : List Value)
  | table (origin : Origin) (entries : List (String × Value))
  /-- An array of tables, each with a header of its own: all but the latest, and the latest. -/
  | tables (earlier : List (List (String × Value))) (latest : List (String × Value))
  deriving Repr

/-- The entries of a table in order. -/
abbrev Entries := List (String × Value)

namespace Entries

/-- Sets the value of a key, in its place or at the end. -/
def set (key : String) (value : Value) : Entries → Entries
  | [] => [(key, value)]
  | (k, v) :: rest => if k = key then (k, value) :: rest else (k, v) :: set key value rest

/-- Changes the table at a path. Tables on the way that are missing are made, as `origin` says. The
    change is told how the table at the path came to be. It fails where the path leads through
    something that may not be added to: a value, a table in braces, or, on the way of a dotted key, a
    table with a header of its own. -/
def descend? (origin : Origin) (change : Origin → Entries → Option Entries) :
    List String → Origin → Entries → Option Entries
  | [], here, entries => change here entries
  | key :: path, _, entries =>
    match entries.lookup key with
    | none => do
      let inner ← descend? origin change path origin []
      return entries.set key (.table origin inner)
    | some (.table found inner) =>
      if found = .inline || (origin = .dotted && found = .header) then none
      else do
        let inner ← descend? origin change path found inner
        return entries.set key (.table found inner)
    | some (.tables earlier latest) => do
      let latest ← descend? origin change path .header latest
      return entries.set key (.tables earlier latest)
    | some _ => none

/-- Adds a value under a dotted key, given as the path to a table and the key in it. Fails if the key
    is taken. -/
def insert? (path : List String) (key : String) (value : Value) (here : Origin)
    (entries : Entries) : Option Entries :=
  descend? .dotted (fun found entries =>
    if decide (found = .dotted) == path.isEmpty then none
    else if (entries.lookup key).isSome then none
    else some (entries.set key value)) path here entries

/-- Opens the table that a header names, given as the path to a table and the key in it. A table
    opens once. -/
def openTable? (path : List String) (key : String) (entries : Entries) : Option Entries :=
  descend? .implied (fun _ entries =>
    match entries.lookup key with
    | none => some (entries.set key (.table .header []))
    | some (.table .implied inner) => some (entries.set key (.table .header inner))
    | some _ => none) path .header entries

/-- Opens one more table of the array that a header names. -/
def openItem? (path : List String) (key : String) (entries : Entries) : Option Entries :=
  descend? .implied (fun _ entries =>
    match entries.lookup key with
    | none => some (entries.set key (.tables [] []))
    | some (.tables earlier latest) => some (entries.set key (.tables (earlier ++ [latest]) []))
    | some _ => none) path .header entries

end Entries

end BasicLexis.Toml
