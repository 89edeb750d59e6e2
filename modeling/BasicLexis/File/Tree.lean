import BasicLexis.File.Path

set_option autoImplicit false

/-! # File trees

The files that a run can see, as a tree, and what is found in it at a path. -/

namespace BasicLexis

/-- A file or a directory. -/
inductive FileTree where
  | file (content : ByteArray)
  | directory (entries : List (String × FileTree))

/-- Why nothing is found at a path. -/
inductive LookFailure where
  | notFound
  /-- The path leads through a file. -/
  | notDirectory
  /-- The path or one of its names is too long. -/
  | nameTooLong
  /-- The path contains a null character. -/
  | nullCharacter
  deriving DecidableEq, Repr

/-- The wording of a failure. -/
def LookFailure.message : LookFailure → String
  | notFound => "No such file or directory (os error 2)"
  | notDirectory => "Not a directory (os error 20)"
  | nameTooLong => "File name too long (os error 36)"
  | nullCharacter => "file name contained an unexpected NUL byte"

/-- What is found at a path. -/
abbrev Look := Except LookFailure FileTree

namespace Look

/-- A directory is found. -/
def isDirectory : Look → Bool
  | .ok (.directory _) => true
  | _ => false

end Look

namespace FileTree

/-- The greatest number of bytes of a name. -/
def maxNameSize : Nat := 255

/-- The greatest number of bytes of a path. -/
def maxPathSize : Nat := 4095

/-- Follows the parts of a path from a directory on. `above` holds the directories around it,
    innermost first; above the outermost one nothing is found. -/
def follow (above : List FileTree) (tree : FileTree) : List (List Char) → Look
  | [] => .ok tree
  | part :: rest =>
    match tree with
    | file _ => .error .notDirectory
    | directory entries =>
      if part = [] ∨ part = ['.'] then follow above tree rest
      else if part = ['.', '.'] then
        match above with
        | outer :: above => follow above outer rest
        | [] => .error .notFound
      else
        let name := String.ofList part
        if maxNameSize < name.utf8ByteSize then .error .nameTooLong
        else
          match entries.lookup name with
          | some inner => follow (tree :: above) inner rest
          | none => .error .notFound

/-- What is found at a path, starting from the directory `tree`. -/
def look (tree : FileTree) (path : Path) : Look :=
  if path.text.toList.contains '\x00' then .error .nullCharacter
  else if path.text.isEmpty then .error .notFound
  else if maxPathSize < path.text.utf8ByteSize then .error .nameTooLong
  else
    match path.parts with
    | [] :: _ => .error .notFound
    | parts => follow [] tree parts

mutual

/-- The files below a directory, each with its path. -/
def filesBelow (path : Path) : List (String × FileTree) → List (Path × ByteArray)
  | [] => []
  | (name, tree) :: rest => files (path.join name) tree ++ filesBelow path rest

/-- The files of a tree, each with its path. -/
def files (path : Path) : FileTree → List (Path × ByteArray)
  | file content => [(path, content)]
  | directory entries => filesBelow path entries

end

/-- Adds a tree under the parts of a path, in the directories on the way, which are made if they are
    missing. -/
def addTo (leaf : FileTree) : List String → List (String × FileTree) → List (String × FileTree)
  | [], entries => entries
  | [name], entries =>
    match entries.lookup name with
    | some _ => entries
    | none => entries ++ [(name, leaf)]
  | name :: rest, entries =>
    let inner :=
      match entries.lookup name with
      | some (directory inner) => inner
      | _ => []
    let changed := directory (addTo leaf rest inner)
    if (entries.lookup name).isSome then
      entries.map fun (key, tree) => if key = name then (key, changed) else (key, tree)
    else entries ++ [(name, changed)]

/-- The directory with the given files, each under its path. A path that ends in a slash is that of an
    empty directory. -/
def ofFiles (files : List (Path × ByteArray)) : FileTree :=
  directory (files.foldl (fun entries (path, content) =>
    let names := path.parts.map String.ofList
    match names.getLast? with
    | some "" => addTo (directory []) names.dropLast entries
    | _ => addTo (file content) names entries) [])

end FileTree

end BasicLexis
