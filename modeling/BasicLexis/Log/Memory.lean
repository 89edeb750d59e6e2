import BasicLexis.Log.Event

set_option autoImplicit false

/-! # Logs

A log takes the events up to a level. The log in memory keeps the newest of them. -/

namespace BasicLexis

/-- A log in memory. -/
structure MemoryLog where
  /-- The least important level that is logged. -/
  level : LogLevel := .debug
  /-- All events that were logged, in order. -/
  logged : Array LogEvent := #[]

namespace MemoryLog

/-- The log takes events of a level. -/
def takes (log : MemoryLog) (level : LogLevel) : Bool := level.passes log.level

/-- Logs an event, if the log takes its level. -/
def log (log : MemoryLog) (e : LogEvent) : MemoryLog :=
  if log.takes e.level then { log with logged := log.logged.push e } else log

/-- The events that are kept: the newest ones. -/
def events (log : MemoryLog) : Array LogEvent :=
  log.logged.extract (log.logged.size - Limits.logBufferSize)

/-- An event with the given code is kept. -/
def hasCode (log : MemoryLog) (code : Code) : Bool := log.events.any (·.code = code)

end MemoryLog

end BasicLexis
