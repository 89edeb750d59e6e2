import BasicLexis.File.Path
import BasicLexis.Limits

set_option autoImplicit false

/-! # Options of the command line -/

namespace BasicLexis.CommandLine

/-- What a run was asked to do. -/
structure Options where
  /-- The file or directory to lex. -/
  input : Option Path := none
  /-- Print the analyses as JSON. -/
  json : Bool := false
  /-- Print the trivia too. -/
  trivia : Bool := false
  /-- Print errors only. -/
  quiet : Bool := false
  /-- The file with the preferences. -/
  config : Option Path := none
  /-- Print the help text. -/
  help : Bool := false
  deriving DecidableEq, Repr

/-- What is wrong with the arguments. -/
inductive UsageError where
  | unknownOption (text : String)
  | missingConfigPath
  | unexpectedArgument (text : String)
  | missingInput
  deriving DecidableEq, Repr

/-- The wording of an error. -/
def UsageError.message : UsageError → String
  | unknownOption text => "Unknown option '" ++ text ++ "'"
  | missingConfigPath => "--config requires a path"
  | unexpectedArgument text => "Unexpected argument '" ++ text ++ "'"
  | missingInput => "Missing input path"

namespace Options

/-- Reads the arguments from left to right, over what was read before. -/
def readFrom : Options → List String → Except UsageError Options
  | options, [] => .ok options
  | options, "--config" :: rest =>
    match rest with
    | path :: rest => readFrom { options with config := some ⟨path⟩ } rest
    | [] => .error .missingConfigPath
  | options, argument :: rest =>
    if argument = "--help" ∨ argument = "-h" then readFrom { options with help := true } rest
    else if argument = "--json" then readFrom { options with json := true } rest
    else if argument = "--specials" then readFrom { options with trivia := true } rest
    else if argument = "--quiet" then readFrom { options with quiet := true } rest
    else if ['-', '-'].isPrefixOf argument.toList then .error (.unknownOption argument)
    else if options.input.isSome then .error (.unexpectedArgument argument)
    else readFrom { options with input := some ⟨argument⟩ } rest

/-- Reads the arguments. Only a run that prints the help text needs no input. -/
def ofArguments (arguments : List String) : Except UsageError Options := do
  let options ← readFrom {} arguments
  if options.input.isNone && !options.help then .error .missingInput else .ok options

end Options

/-- The version of the program. -/
def version : String := "0.1.0"

/-- The help text for the program under its name, line by line. -/
def helpLines (program : String) : List String := [
  "VB Lexer v" ++ version,
  "Tokenizes VB source with XML literal disambiguation",
  "",
  "USAGE:",
  "    " ++ program ++ " <input.vb>                # Lex a single file",
  "    " ++ program ++ " <directory> [options]     # Lex every .vb file below a directory",
  "",
  "OPTIONS:",
  "    --help              Show this help message",
  "    --json              Print the full tokenization result as JSON",
  "    --specials          Also print comments, directives and tag comments",
  "    --quiet             Only report errors",
  "    --config <file>     Load lexer and logging preferences from TOML",
  "",
  "ENVIRONMENT:",
  "    VBL_LEXER_COMMENT_TAGS, VBL_LEXER_REPORT_CLASSIFIER_ERRORS,",
  "    VBL_LEXER_DETAILED_METRICS, VBL_LOGGING_MIN_LEVEL and the other VBL_LOGGING_* variables",
  "",
  "BUILD:",
  "    " ++ Limits.provenance,
  "    max file size: " ++ toString Limits.maxFileSize ++ " bytes",
  "    max tokens per file: " ++ toString Limits.maxTokenCount]

end BasicLexis.CommandLine
