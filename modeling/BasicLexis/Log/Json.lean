import BasicLexis.Json
import BasicLexis.Log.Event

set_option autoImplicit false

/-! # Log events in JSON -/

namespace BasicLexis

/-- A location as an object. -/
def Location.toJson (l : Location) : Json :=
  .object [("line", .nat l.line), ("column", .nat l.column)]

namespace LogEvent

/-- What is registered for the code of an error. -/
def metadata (e : LogEvent) : Json :=
  .object [
    ("recoverable", .bool e.code.isRecoverable),
    ("requires_halt", .bool e.code.requiresHalt),
    ("description", .string e.code.description),
    ("recommended_action", .string e.code.action)]

/-- An event as an object, with the time at which it was logged in seconds. Only errors tell what is
    registered for their code. -/
def toJson (timestamp : Nat) (e : LogEvent) : Json :=
  let location := e.location.toList.map fun l => ("location", l.toJson)
  let metadata := if e.level = .error then [("error_metadata", e.metadata)] else []
  let context :=
    if e.context.isEmpty then []
    else [("context", Json.object (e.context.map fun (key, value) => (key, .string value)))]
  .object ([
    ("timestamp", .nat timestamp),
    ("level", .string e.level.name),
    ("code", .string e.code.text),
    ("message", .string e.message),
    ("category", .string e.code.category),
    ("severity", .string e.code.severity.name)] ++ location ++ metadata ++ context)

end LogEvent

end BasicLexis
