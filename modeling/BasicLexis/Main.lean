import BasicLexis.CommandLine.Run
import Std.Time.DateTime.Timestamp

set_option autoImplicit false

/-! # The program

Reads the arguments, the variables and the files of the machine, runs the command line on them, and
writes what the run gives. -/

namespace BasicLexis.Program

/-- The name of the program. -/
def name : String := "vb_lexer"

/-- The variables that are set. -/
def environment : IO Environment :=
  Variable.all.filterMapM fun v => do return (← IO.getEnv v.name).map (v.name, ·)

/-- The file or the directory at a path, which is relative to the current directory. -/
partial def tree (path : Path) : IO FileTree := do
  let place := (← IO.currentDir) / path.text
  if ← place.isDir then
    let entries ← (← place.readDir).toList.mapM fun entry => do
      return (entry.fileName, ← tree (path.join entry.fileName))
    return .directory entries
  else return .file (← IO.FS.readBinFile place)

/-- What is found at a path of the machine. -/
def look (path : Path) : IO Look := do
  if path.text.isEmpty then return .error .notFound
  if path.text.toList.contains '\x00' then return .error .nullCharacter
  try
    return .ok (← tree path)
  catch
    | .noFileOrDirectory .. => return .error .notFound
    | .inappropriateType .. => return .error .notDirectory
    | .invalidArgument .. => return .error .nameTooLong
    | problem => throw problem

/-- The time in seconds since the start of 1970. -/
def seconds : IO Nat := do
  return (← Std.Time.Timestamp.now).toSecondsSinceUnixEpoch.toInt.toNat

/-- The world as it is found, as far as a run with the given arguments looks at it. -/
def world (arguments : List String) : IO CommandLine.World := do
  let paths :=
    match CommandLine.Options.ofArguments arguments with
    | .ok options =>
      if options.help then [] else options.config.toList ++ options.input.toList
    | .error _ => []
  let found ← paths.mapM fun path => do return (path.text, ← look path)
  return {
    program := name
    environment := ← environment
    look := fun path => (found.lookup path.text).getD (.error .notFound)
    now := ← seconds }

/-- Writes what a run gives and answers its exit code. -/
def finish (outcome : CommandLine.Outcome) : IO UInt32 := do
  for (channel, text) in outcome.written do
    match channel with
    | .output => IO.print text
    | .error => IO.eprint text
  return outcome.code.toUInt32

end BasicLexis.Program

/-- Runs the program. -/
def main (arguments : List String) : IO UInt32 := do
  let world ← BasicLexis.Program.world arguments
  BasicLexis.Program.finish (BasicLexis.CommandLine.run world arguments)
