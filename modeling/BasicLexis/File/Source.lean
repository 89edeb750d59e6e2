import BasicLexis.File.Tree
import BasicLexis.Log.Event
import BasicLexis.Number.Binary
import BasicLexis.Text.LowerCase

set_option autoImplicit false

/-! # Source files

A source file is checked before it is read: it has to be a file with the right extension, and not too
large. Its content has to be valid UTF-8. Each step says what there is to log. -/

namespace BasicLexis

/-- Why a file cannot be read. -/
inductive FileError where
  | notFound (path : Path)
  | invalidExtension (path : Path) (extension : Option String)
  | tooLarge (path : Path) (size : Nat)
  | empty (path : Path)
  | permissionDenied (path : Path)
  | invalidEncoding (path : Path)
  | io (path : Path) (message : String)
  | invalidPath (path : Path)
  deriving DecidableEq, Repr

namespace FileError

/-- The wording of an error. -/
def message : FileError → String
  | notFound path => path.text ++ ": no such file"
  | invalidExtension path _ => path.text ++ ": expected a .vb file"
  | tooLarge path size =>
    path.text ++ ": " ++ toString size ++ " bytes exceeds the " ++ toString Limits.maxFileSize
      ++ " byte limit"
  | empty path => path.text ++ ": file is empty"
  | permissionDenied path => path.text ++ ": permission denied"
  | invalidEncoding path => path.text ++ ": not valid UTF-8"
  | io path message => path.text ++ ": " ++ message
  | invalidPath path => path.text ++ ": not a file"

/-- The code of an error. -/
def code : FileError → Code
  | notFound _ => .fileNotFound
  | invalidExtension _ _ => .invalidExtension
  | tooLarge _ _ => .fileTooLarge
  | empty _ => .emptyFile
  | permissionDenied _ => .permissionDenied
  | invalidEncoding _ => .invalidEncoding
  | io _ _ => .ioError
  | invalidPath _ => .invalidPath

/-- The error for a path at which nothing is found. -/
def ofFailure (path : Path) : LookFailure → FileError
  | .notFound => notFound path
  | failure => io path failure.message

end FileError

/-- A source file that was read. -/
structure SourceFile where
  /-- Its path. -/
  path : Path
  /-- Its text. -/
  text : String
  /-- Its size in bytes. -/
  size : Nat
  /-- How many lines it has. -/
  lineCount : Nat

namespace SourceFile

/-- The file is reported as large. -/
def isLarge (f : SourceFile) : Bool := Limits.largeFileThreshold < f.size

/-- What is required of a file. -/
structure Requirements where
  /-- The extension has to be that of source files. -/
  extension : Bool := true
  /-- The file may not be empty. -/
  content : Bool := false

/-- A size in the unit for its magnitude, to two places; a half goes to the even neighbour. -/
def sizeText (size : Nat) : String :=
  let inUnit (unit : Nat) (name : String) : String :=
    let hundredths := BinaryFormat.roundHalfEven (size * 100) unit
    toString (hundredths / 100) ++ "."
      ++ String.ofList (Decimal.padZeros 2 (Decimal.digitsOf (hundredths % 100))) ++ " " ++ name
  if size < 1024 then toString size ++ " B"
  else if size < 1024 * 1024 then inUnit 1024 "KB"
  else if size < 1024 * 1024 * 1024 then inUnit (1024 * 1024) "MB"
  else inUnit (1024 * 1024 * 1024) "GB"

/-- How many lines a content has: one for every line feed, and one for what follows the last. -/
def countLines (content : ByteArray) : Nat :=
  let feeds := content.foldl (fun n byte => if byte = 10 then n + 1 else n) 0
  if content.size = 0 ∨ content[content.size - 1]? = some 10 then feeds else feeds + 1

/-- Checks and reads a file, of which `found` is what is at its path. -/
def check (required : Requirements) (path : Path) (found : Look) :
    Except FileError SourceFile × List LogEvent :=
  if path.text.isEmpty || found.isDirectory then (.error (.invalidPath path), [])
  else if required.extension && !path.isSource then
    (.error (.invalidExtension path (path.extension?.map Text.lowerCase)), [])
  else
    match found with
    | .error failure => (.error (.ofFailure path failure), [])
    | .ok (.directory _) => (.error (.invalidPath path), [])
    | .ok (.file content) =>
      let size := content.size
      let checking := (LogEvent.debug "Checking source file").withAll [
        ("path", path.text), ("size", toString size)]
      let result :=
        if Limits.maxFileSize < size then .error (.tooLarge path size)
        else if size = 0 && required.content then .error (.empty path)
        else
          match String.fromUTF8? content with
          | some text => .ok { path, text, size, lineCount := countLines content }
          | none => .error (.invalidEncoding path)
      (result, [checking])

/-- Checks and reads a file, and tells the result. -/
def read (required : Requirements) (path : Path) (found : Look) :
    Except FileError SourceFile × List LogEvent :=
  let (result, events) := check required path found
  let told :=
    match result with
    | .error e => [(LogEvent.error e.code e.message).withContext "path" path.text]
    | .ok file =>
      let large :=
        if file.isLarge then
          [(LogEvent.warning "Large source file").withAll [
            ("path", path.text), ("size", sizeText file.size)]]
        else []
      large ++ [(LogEvent.success .fileProcessingSuccess "Source file read").withAll [
        ("path", path.text), ("size", sizeText file.size), ("lines", toString file.lineCount)]]
  (result, events ++ told)

/-- The source files below a directory, in the order of their paths, with their contents. -/
def discover (path : Path) (found : Look) :
    Except FileError (List (Path × ByteArray)) × List LogEvent :=
  match found with
  | .ok (.directory entries) =>
    let sources := (FileTree.filesBelow path entries).filter fun (path, _) => path.isSource
    let sources := sources.mergeSort fun (a, _) (b, _) => !b.less a
    let event :=
      if sources.isEmpty then
        (LogEvent.warning "No .vb files found").withContext "directory" path.text
      else
        (LogEvent.success .fileValidationPassed "Source files discovered").withAll [
          ("directory", path.text), ("files", toString sources.length)]
    (.ok sources, [event])
  | _ => (.error (.invalidPath path), [])

end SourceFile

end BasicLexis
