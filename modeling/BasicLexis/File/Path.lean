import BasicLexis.Text.Character
import BasicLexis.Text.Split

set_option autoImplicit false

/-! # Paths

A path is a text with slashes. Two paths that differ only in repeated slashes, in slashes at the end
or in dots between slashes name the same file, so paths are compared by their components. -/

namespace BasicLexis

/-- A part of a path between slashes. -/
inductive PathComponent where
  /-- The slash at the start. -/
  | root
  /-- A dot at the start. -/
  | current
  /-- Two dots. -/
  | parent
  | name (text : String)
  deriving DecidableEq, Repr

namespace PathComponent

/-- The order of components: the root, a dot, two dots, then names by their characters. -/
def less : PathComponent → PathComponent → Bool
  | root, root => false
  | root, _ => true
  | current, root | current, current => false
  | current, _ => true
  | parent, name _ => true
  | parent, _ => false
  | name a, name b => a < b
  | name _, _ => false

/-- The component that a part between slashes is. Empty parts and single dots are none. -/
def ofPart? (part : List Char) : Option PathComponent :=
  if part = [] ∨ part = ['.'] then none
  else if part = ['.', '.'] then some parent
  else some (name (String.ofList part))

end PathComponent

/-- A path as given. -/
structure Path where
  /-- The text of the path. -/
  text : String
  deriving DecidableEq, Repr

namespace Path

/-- The parts of a path between its slashes. -/
def parts (path : Path) : List (List Char) := Text.split '/' path.text.toList

/-- The components of a path. -/
def components (path : Path) : List PathComponent :=
  let start :=
    match path.parts with
    | [] :: _ :: _ => [PathComponent.root]
    | ['.'] :: _ => [PathComponent.current]
    | _ => []
  start ++ path.parts.filterMap PathComponent.ofPart?

/-- The first list of components comes before the second. -/
def lessComponents : List PathComponent → List PathComponent → Bool
  | _, [] => false
  | [], _ :: _ => true
  | a :: as, b :: bs => a.less b || (a == b && lessComponents as bs)

/-- The first path comes before the second. -/
def less (a b : Path) : Bool := lessComponents a.components b.components

/-- Two paths name the same file. -/
def same (a b : Path) : Bool := a.components == b.components

/-- The path of an entry of the directory at a path. -/
def join (path : Path) (entry : String) : Path :=
  if path.text.isEmpty || path.text.toList.getLast? == some '/' then ⟨path.text ++ entry⟩
  else ⟨path.text ++ "/" ++ entry⟩

/-- The text after the last dot of a file name. A dot at the start of the name does not count. -/
def nameExtension? (name : List Char) : Option String :=
  let tail := name.reverse.takeWhile (· != '.')
  if name.length ≤ tail.length + 1 then none else some (String.ofList tail.reverse)

/-- The extension of the file that a path names. -/
def extension? (path : Path) : Option String :=
  match path.components.getLast? with
  | some (.name text) => nameExtension? text.toList
  | _ => none

/-- The path names a source file, by its extension in any case. -/
def isSource (path : Path) : Bool :=
  path.extension?.any fun extension => extension.toList.map Text.lowerLetter == ['v', 'b']

end Path

end BasicLexis
