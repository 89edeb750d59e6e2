import BasicLexis.Preferences
import BasicLexis.Toml.Document

set_option autoImplicit false

/-! # Preference files

Preferences can be given in a TOML file with the tables `lexer` and `logging`. A key that is missing
leaves the preference to the environment, an unknown key is ignored, and a value of the wrong type
makes the whole file invalid. The preferences of a table can also be given as an array, in their
order, and a date or time in place of a table gives none of them. -/

namespace BasicLexis

namespace Toml.Value

/-- The boolean that a value is. -/
def toBool? : Value → Option Bool
  | boolean b => some b
  | _ => none

/-- The strings that a value is an array of. -/
def toStrings? : Value → Option (List String)
  | array items => items.mapM fun
    | string s => some s
    | _ => none
  | _ => none

/-- The log level with exactly this name. -/
def levelNamed? : String → Option LogLevel
  | "Error" => some .error
  | "Warning" => some .warning
  | "Info" => some .info
  | "Debug" => some .debug
  | _ => none

/-- The log level that a value names: as a string, or as the only key of a table, under which there
    is nothing. -/
def toLevel? : Value → Option LogLevel
  | string name => levelNamed? name
  | table _ [(name, table _ [])] => levelNamed? name
  | table _ [(name, array [])] => levelNamed? name
  | _ => none

/-- The values of the named preferences, from a table or from an array in the given order. A moment
    counts as a table with none of them. -/
def record? (names : List String) : Value → Option (List (String × Value))
  | table _ entries => some entries
  | array items => some (names.zip items)
  | tables earlier latest => some (names.zip ((earlier ++ [latest]).map (table .header)))
  | moment _ => some []
  | _ => none

end Toml.Value

namespace Preferences

/-- The value under a key, or `other` if the key is missing. `none` if the value is of the wrong
    type. -/
def field? {α : Type} (entries : Toml.Entries) (key : String) (read : Toml.Value → Option α)
    (other : α) : Option α :=
  match entries.lookup key with
  | some value => read value
  | none => some other

/-- Preferences on lexing, over those of the environment. -/
def lexerOf? (other : LexerPreferences) (value : Toml.Value) : Option LexerPreferences := do
  let entries ← value.record?
    ["comment_tags", "report_classifier_errors", "collect_detailed_metrics"]
  return { tags := ← field? entries "comment_tags" Toml.Value.toStrings? other.tags
           reportMisplaced :=
             ← field? entries "report_classifier_errors" Toml.Value.toBool? other.reportMisplaced
           countKinds :=
             ← field? entries "collect_detailed_metrics" Toml.Value.toBool? other.countKinds }

/-- Preferences on logging, over those of the environment. -/
def logOf? (other : LogPreferences) (value : Toml.Value) : Option LogPreferences := do
  let entries ← value.record?
    ["use_structured_logging", "enable_console_logging", "min_log_level", "log_performance_events",
      "enable_cargo_style_output", "include_file_context"]
  return { structured :=
             ← field? entries "use_structured_logging" Toml.Value.toBool? other.structured
           console := ← field? entries "enable_console_logging" Toml.Value.toBool? other.console
           level := ← field? entries "min_log_level" Toml.Value.toLevel? other.level
           durations := ← field? entries "log_performance_events" Toml.Value.toBool? other.durations
           summary := ← field? entries "enable_cargo_style_output" Toml.Value.toBool? other.summary
           fileContext :=
             ← field? entries "include_file_context" Toml.Value.toBool? other.fileContext }

/-- The preferences of a file, over those of the environment; `none` if the file is invalid. -/
def ofToml? (env : Environment) (text : List Char) : Option Preferences := do
  let other := env.preferences
  let entries ← Toml.parse? text
  return { lexer := ← field? entries "lexer" (lexerOf? other.lexer) other.lexer
           log := ← field? entries "logging" (logOf? other.log) other.log }

end Preferences

end BasicLexis
