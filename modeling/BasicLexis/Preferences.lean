import BasicLexis.Log.Event
import BasicLexis.Text.Character
import BasicLexis.Text.LowerCase
import BasicLexis.Text.Split

set_option autoImplicit false

/-! # Preferences

What a user can choose about lexing and logging. Every preference has an environment variable; a
variable that is not set, or whose value cannot be read, leaves the built-in choice. -/

namespace BasicLexis

/-- The environment variables that are set, with their values. -/
abbrev Environment := List (String × String)

/-- The environment variables that stand for a preference. -/
inductive Variable where
  | commentTags | reportMisplaced | countKinds
  | structured | console | level | durations | summary | fileContext
  deriving DecidableEq, Repr

namespace Variable

/-- All of them. -/
def all : List Variable := [
  commentTags, reportMisplaced, countKinds, structured, console, level, durations, summary,
  fileContext]

/-- The name of a variable. -/
def name : Variable → String
  | commentTags => "VBL_LEXER_COMMENT_TAGS"
  | reportMisplaced => "VBL_LEXER_REPORT_CLASSIFIER_ERRORS"
  | countKinds => "VBL_LEXER_DETAILED_METRICS"
  | structured => "VBL_LOGGING_USE_STRUCTURED"
  | console => "VBL_LOGGING_ENABLE_CONSOLE"
  | level => "VBL_LOGGING_MIN_LEVEL"
  | durations => "VBL_LOGGING_LOG_PERFORMANCE"
  | summary => "VBL_LOGGING_CARGO_STYLE"
  | fileContext => "VBL_LOGGING_INCLUDE_FILE_CONTEXT"

end Variable

/-- Preferences on lexing. -/
structure LexerPreferences where
  /-- The words that make a comment a tag comment. -/
  tags : List String := ["TODO", "FIXME", "HACK", "UNDONE"]
  /-- Tokens that the classifier cannot place are logged as errors, not as debugging notes. -/
  reportMisplaced : Bool := false
  /-- Tokens are counted by kind. -/
  countKinds : Bool := true
  deriving DecidableEq, Repr

/-- Preferences on logging. -/
structure LogPreferences where
  /-- Events are written as JSON. -/
  structured : Bool := false
  /-- Events are written as text. -/
  console : Bool := false
  /-- The least important level that is logged. -/
  level : LogLevel := .info
  /-- Events tell how long something took. -/
  durations : Bool := true
  /-- The run ends with a summary of all errors. -/
  summary : Bool := true
  /-- Events tell which file they are about. -/
  fileContext : Bool := true
  deriving DecidableEq, Repr

/-- All preferences. -/
structure Preferences where
  /-- Preferences on lexing. -/
  lexer : LexerPreferences := {}
  /-- Preferences on logging. -/
  log : LogPreferences := {}
  deriving DecidableEq, Repr

/-- The level with the given name or number; upper and lower case are the same. -/
def LogLevel.ofText? (text : String) : Option LogLevel :=
  match Text.lowerCase text with
  | "error" | "0" => some .error
  | "warning" | "warn" | "1" => some .warning
  | "info" | "2" => some .info
  | "debug" | "3" => some .debug
  | _ => none

namespace Environment

/-- The value of a variable. -/
def get? (env : Environment) (v : Variable) : Option String := env.lookup v.name

/-- The value of a variable that holds `true` or `false`. -/
def flag? (env : Environment) (v : Variable) : Option Bool :=
  match env.get? v with
  | some "true" => some true
  | some "false" => some false
  | _ => none

/-- The words of a list that is separated by commas, without the whitespace around them. -/
def words (text : String) : List String :=
  (((Text.split ',' text.toList).map Text.trim).filter (!·.isEmpty)).map String.ofList

/-- The preferences that the environment asks for. -/
def preferences (env : Environment) : Preferences :=
  { lexer :=
      { tags := ((env.get? .commentTags).map words).getD ({} : LexerPreferences).tags
        reportMisplaced := (env.flag? .reportMisplaced).getD false
        countKinds := (env.flag? .countKinds).getD true }
    log :=
      { structured := (env.flag? .structured).getD false
        console := (env.flag? .console).getD false
        level := ((env.get? .level).bind LogLevel.ofText?).getD .info
        durations := (env.flag? .durations).getD true
        summary := (env.flag? .summary).getD true
        fileContext := (env.flag? .fileContext).getD true } }

end Environment

end BasicLexis
