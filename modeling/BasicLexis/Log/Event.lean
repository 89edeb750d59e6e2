import BasicLexis.Limits
import BasicLexis.Log.Code
import BasicLexis.Source.Location

set_option autoImplicit false

/-! # Log events

What the lexer has to say about its work: problems, warnings, results and debugging notes. An event
is plain data; which events are shown, and where, is decided by a log. -/

namespace BasicLexis

/-- How important an event is, the most important first. -/
inductive LogLevel where
  | error | warning | info | debug
  deriving DecidableEq, Repr

namespace LogLevel

/-- The place of a level in the order of importance. -/
def rank : LogLevel → Nat
  | error => 0
  | warning => 1
  | info => 2
  | debug => 3

/-- An event of this level passes a log that is limited to `limit`. -/
def passes (level limit : LogLevel) : Bool := level.rank ≤ limit.rank

/-- The name of a level in log lines. -/
def name : LogLevel → String
  | error => "ERROR"
  | warning => "WARN"
  | info => "INFO"
  | debug => "DEBUG"

end LogLevel

/-- Keys with values, in increasing order of the keys. -/
abbrev EventContext := List (String × String)

namespace EventContext

/-- Sets the value of a key. -/
def set (key value : String) : EventContext → EventContext
  | [] => [(key, value)]
  | (k, v) :: rest =>
    if key < k then (key, value) :: (k, v) :: rest
    else if key = k then (key, value) :: rest
    else (k, v) :: set key value rest

end EventContext

/-- A note on the lexer's work. -/
structure LogEvent where
  /-- How important the event is. -/
  level : LogLevel
  /-- Its code. -/
  code : Code
  /-- What it says. -/
  message : String
  /-- The place in the source that it is about. -/
  location : Option Location := none
  /-- Further facts, by key. -/
  context : EventContext := []
  deriving DecidableEq, Repr

namespace LogEvent

/-- A problem. -/
def error (code : Code) (message : String) : LogEvent := { level := .error, code, message }

/-- A warning. -/
def warning (message : String) : LogEvent := { level := .warning, code := .warning, message }

/-- A piece of information. -/
def info (message : String) : LogEvent := { level := .info, code := .info, message }

/-- A piece of information with a code of its own, on something that succeeded. -/
def success (code : Code) (message : String) : LogEvent := { level := .info, code, message }

/-- A debugging note. -/
def debug (message : String) : LogEvent := { level := .debug, code := .debug, message }

/-- The event with its place in the source. -/
def withLocation (e : LogEvent) (location : Location) : LogEvent :=
  { e with location := some location }

/-- The event with one more fact. -/
def withContext (e : LogEvent) (key value : String) : LogEvent :=
  { e with context := e.context.set key value }

/-- The event with more facts. -/
def withAll (e : LogEvent) (pairs : List (String × String)) : LogEvent :=
  pairs.foldl (fun e (k, v) => e.withContext k v) e

/-- The event as one line of text. -/
def render (e : LogEvent) : String :=
  let head := "[" ++ e.level.name ++ "] " ++ e.code.text ++ " - " ++ e.message
  match e.location with
  | some location => head ++ " at " ++ location.render
  | none => head

end LogEvent

/-- A file that is being lexed, with its number in the run. -/
structure FileContext where
  /-- The path under which the file was given. -/
  path : String
  /-- The number of the file, counted from zero. -/
  id : Nat
  deriving DecidableEq, Repr

namespace LogEvent

/-- The fact that holds how long something took. -/
def durationKey : String := "duration_ms"

/-- An event as a log takes it: the message cut to its greatest length, durations left out unless
    they are wanted, and the file at hand added. -/
def finish (e : LogEvent) (keepDurations : Bool) (file : Option FileContext) : LogEvent :=
  let context := if keepDurations then e.context else e.context.filter (·.1 ≠ durationKey)
  let e := { e with
    message := String.ofList (e.message.toList.take Limits.maxLogMessageLength)
    context }
  match file with
  | some file => e.withAll [("file", file.path), ("file_id", toString file.id)]
  | none => e

end LogEvent

end BasicLexis
