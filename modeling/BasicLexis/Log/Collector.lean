import BasicLexis.File.Path
import BasicLexis.Log.Event

set_option autoImplicit false

/-! # Errors by file

The collector keeps the events of every file apart, for a report at the end of a run. It keeps a
limited number of events for a file and counts the others. -/

namespace BasicLexis

/-- The events of one file. -/
structure FileEvents where
  /-- The first events, up to the limit. -/
  events : Array LogEvent := #[]
  /-- How many events came after those. -/
  dropped : Nat := 0
  deriving DecidableEq, Repr

namespace FileEvents

/-- Keeps an event, or counts it when the limit is reached. -/
def record (f : FileEvents) (e : LogEvent) : FileEvents :=
  if f.events.size < Limits.maxLogEventsPerFile then { f with events := f.events.push e }
  else { f with dropped := f.dropped + 1 }

/-- The errors that were kept. -/
def errors (f : FileEvents) : List LogEvent := f.events.toList.filter (·.level = .error)

/-- The warnings that were kept. -/
def warnings (f : FileEvents) : List LogEvent := f.events.toList.filter (·.level = .warning)

end FileEvents

/-- Counts over all files. -/
structure Summary where
  /-- All files. -/
  files : Nat := 0
  /-- Files without errors. -/
  clean : Nat := 0
  /-- Files with errors. -/
  failed : Nat := 0
  /-- Errors. -/
  errors : Nat := 0
  /-- Warnings. -/
  warnings : Nat := 0
  deriving DecidableEq, Repr

/-- There are errors. -/
def Summary.hasErrors (s : Summary) : Bool := 0 < s.errors

/-- The events of all files, in the order of their paths. -/
structure Collector where
  /-- Paths with their events. A file is listed under the path by which it was first named. -/
  files : List (Path × FileEvents) := []
  deriving DecidableEq, Repr

namespace Collector

/-- Changes the events of a file, which is listed if it was not. -/
def updateIn (path : Path) (change : FileEvents → FileEvents) :
    List (Path × FileEvents) → List (Path × FileEvents)
  | [] => [(path, change {})]
  | (p, f) :: rest =>
    if path.same p then (p, change f) :: rest
    else if path.less p then (path, change {}) :: (p, f) :: rest
    else (p, f) :: updateIn path change rest

/-- Lists a file, so that it counts even if it stays without events. -/
def openFile (c : Collector) (path : Path) : Collector := ⟨updateIn path id c.files⟩

/-- Records an event of a file. -/
def record (c : Collector) (path : Path) (e : LogEvent) : Collector :=
  ⟨updateIn path (·.record e) c.files⟩

/-- The events that were kept for a file. -/
def eventsFor (c : Collector) (path : Path) : Array LogEvent :=
  ((c.files.find? fun (p, _) => path.same p).map fun (_, f) => f.events).getD #[]

/-- Adds a file to the counts. -/
def countFile (s : Summary) (f : FileEvents) : Summary :=
  let errors := f.errors.length
  { files := s.files + 1
    clean := if errors = 0 then s.clean + 1 else s.clean
    failed := if errors = 0 then s.failed else s.failed + 1
    errors := s.errors + errors
    warnings := s.warnings + f.warnings.length }

/-- The counts over all files. -/
def summary (c : Collector) : Summary := (c.files.map (·.2)).foldl countFile {}

/-! ## The report -/

/-- Where an event occurred, and its context apart from the file. -/
def details (path : Path) (e : LogEvent) : List String :=
  let place :=
    match e.location with
    | some location => "  --> " ++ path.text ++ ":" ++ location.render
    | none => "  --> " ++ path.text
  let context := e.context.filter fun (key, _) => key ≠ "file" ∧ key ≠ "file_id"
  place :: context.map fun (key, value) => "  = " ++ key ++ ": " ++ value

/-- The lines on an error. -/
def errorLines (path : Path) (e : LogEvent) : List String :=
  let help := if e.code.action = Code.noAction then [] else ["  = help: " ++ e.code.action]
  ("error[" ++ e.code.text ++ "]: " ++ e.message) :: (details path e ++ help ++ [""])

/-- The lines on a warning. -/
def warningLines (path : Path) (e : LogEvent) : List String :=
  ("warning: " ++ e.message) :: (details path e ++ [""])

/-- The lines on a file: its errors, its warnings, and how many events were not kept. -/
def fileLines (path : Path) (f : FileEvents) : List String :=
  let note :=
    if f.dropped = 0 then []
    else ["note: " ++ toString f.dropped ++ " more event(s) in " ++ path.text ++ " not shown", ""]
  f.errors.flatMap (errorLines path) ++ f.warnings.flatMap (warningLines path) ++ note

/-- The report on all files. The last line counts the errors and warnings, if there are any. -/
def lines (c : Collector) : List String :=
  let s := c.summary
  let last :=
    if s.errors = 0 ∧ s.warnings = 0 then []
    else [toString s.errors ++ " error(s) and " ++ toString s.warnings ++ " warning(s) in "
      ++ toString s.failed ++ " of " ++ toString s.files ++ " file(s)"]
  c.files.flatMap (fun (path, f) => fileLines path f) ++ last

/-- The report as one text, each line ended. -/
def render (c : Collector) : String := String.join (c.lines.map (· ++ "\n"))

end Collector

end BasicLexis
