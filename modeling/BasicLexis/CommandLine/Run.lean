import BasicLexis.Analysis.Json
import BasicLexis.CommandLine.Options
import BasicLexis.File.Source
import BasicLexis.Log.Collector
import BasicLexis.PreferenceFile
import BasicLexis.Source.LineIndex
import BasicLexis.Startup

set_option autoImplicit false

/-! # A run of the program

A run is a function of the arguments, the environment and the files that it looks at. It gives the
text for both output streams and an exit code. -/

namespace BasicLexis.CommandLine

/-- The two output streams. -/
inductive Channel where
  | output | error
  deriving DecidableEq, Repr

/-- What a run starts from. -/
structure World where
  /-- The name under which the program was called. -/
  program : String
  /-- The environment variables. -/
  environment : Environment
  /-- What is found at a path. -/
  look : Path → Look
  /-- The time in seconds, for log lines. -/
  now : Nat

/-- What a run gives. -/
structure Outcome where
  /-- The exit code. -/
  code : Nat
  /-- What was written, in order. -/
  written : Array (Channel × String)

/-- The text of one of the streams. -/
def Outcome.text (o : Outcome) (channel : Channel) : String :=
  o.written.foldl (fun text (c, s) => if c = channel then text ++ s else text) ""

/-- A run in progress. -/
structure Run where
  /-- The preferences. -/
  preferences : Preferences
  /-- The time in seconds, for log lines. -/
  now : Nat
  /-- The file at hand. -/
  file : Option FileContext := none
  /-- The errors and warnings so far, by file. -/
  collector : Collector := {}
  /-- What was written so far. -/
  written : Array (Channel × String) := #[]

namespace Run

/-! ## Writing and logging -/

/-- Writes a text as it is. -/
def write (r : Run) (channel : Channel) (text : String) : Run :=
  { r with written := r.written.push (channel, text) }

/-- Writes a line. -/
def line (r : Run) (channel : Channel) (text : String) : Run := r.write channel (text ++ "\n")

/-- Writes lines to the output. -/
def lines (r : Run) (texts : List String) : Run := texts.foldl (·.line .output ·) r

/-- Writes an event to the log, as the preferences say. Errors go to the error stream. -/
def emit (r : Run) (e : LogEvent) : Run :=
  let channel := if e.level = .error then Channel.error else .output
  if e.level.passes r.preferences.log.level then
    if r.preferences.log.structured then r.line channel (e.toJson r.now).compact
    else if r.preferences.log.console then r.line channel e.render
    else r
  else r

/-- Logs an event. The errors and warnings of a file are also kept for the summary. -/
def log (r : Run) (e : LogEvent) : Run :=
  let context := if r.preferences.log.fileContext then r.file else none
  let e := e.finish r.preferences.log.durations context
  let r := r.emit e
  match r.file with
  | some file =>
    if e.level = .error ∨ e.level = .warning then
      { r with collector := r.collector.record ⟨file.path⟩ e }
    else r
  | none => r

/-- Logs events in order. -/
def logAll (r : Run) (events : List LogEvent) : Run := events.foldl log r

/-! ## One file -/

/-- The lines on a piece of trivia. -/
def triviaLine : Trivia → String
  | .comment c =>
    c.span.start.render ++ " comment(" ++ c.style.name ++ ") " ++ Text.quoted c.text
  | .directive d => d.span.start.render ++ " " ++ d.name ++ " " ++ d.argument
  | .blankLine l => l.render ++ " blank"

/-- The line on a tag comment. -/
def tagLine (c : TagComment) : String := c.span.start.render ++ " " ++ c.tag ++ ": " ++ c.text

/-- Writes an analysis, as the options say. -/
def report (r : Run) (options : Options) (path : Path) (a : Analysis) : Run :=
  if options.json then r.line .output a.toJson.pretty
  else if options.quiet then r
  else
    let r := r.line .output ("== " ++ path.text ++ " ==")
    let r := r.lines (a.tokens.toList.map Token.render)
    if options.trivia then
      ((r.line .output "-- specials --").lines (a.trivia.toList.map triviaLine)).lines
        (a.tagComments.toList.map tagLine)
    else r

/-- Writes the problems of a file, each with its line. -/
def reportProblems (r : Run) (path : Path) (text : String) (a : Analysis) : Run :=
  if a.hasErrors then
    let index := LineIndex.ofText text
    a.diagnostics.foldl (fun r d =>
      let message := "[" ++ d.code.text ++ "] " ++ path.text ++ ": " ++ d.message
      r.write .error (index.renderProblem d.location message)) r
  else r

/-- Lexes the file at hand. The second component is true if it was read and has no problems. -/
def lexFile (r : Run) (options : Options) (required : SourceFile.Requirements) (path : Path)
    (found : Look) : Run × Bool :=
  let (result, events) := SourceFile.read required path found
  let r := r.logAll events
  match result with
  | .error e => (r.line .error ("error[" ++ e.code.text ++ "]: " ++ e.message), false)
  | .ok file =>
    let a := Analysis.ofSource r.preferences.lexer file.text.toList
    let r := r.logAll a.events.toList
    let r := (r.report options path a).reportProblems path file.text a
    (r, !a.hasErrors)

/-- Lexes files, of which the first has the number `id`, and counts those that failed. -/
def lexFiles (options : Options) (required : SourceFile.Requirements) :
    Run → Nat → Nat → List (Path × Look) → Run × Nat
  | r, _, failed, [] => (r, failed)
  | r, id, failed, (path, found) :: rest =>
    let r := { r with file := some ⟨path.text, id⟩, collector := r.collector.openFile path }
    let (r, passed) := r.lexFile options required path found
    let r := { r with file := none }
    lexFiles options required r (id + 1) (if passed then failed else failed + 1) rest

/-! ## All files -/

/-- Ends a run. -/
def exit (r : Run) (code : Nat) : Outcome := ⟨code, r.written⟩

/-- Lexes all files and sums up. -/
def lexAll (r : Run) (options : Options) (input : Path) (isDirectory : Bool)
    (files : List (Path × Look)) : Outcome :=
  let count := files.length
  let r := r.log ((LogEvent.info "Lexing input").withAll [
    ("path", input.text), ("files", toString count)])
  let (r, failed) := lexFiles options { extension := isDirectory } r 0 0 files
  let r :=
    if (!options.quiet || 0 < failed) && r.preferences.log.summary then
      r.write .output r.collector.render
    else r
  let r :=
    if options.quiet then r
    else r.line .output ("Lexed " ++ toString count ++ " file(s): " ++ toString (count - failed)
      ++ " clean, " ++ toString failed ++ " with errors")
  r.exit (if failed = 0 then 0 else 1)

end Run

/-! ## The program -/

/-- Why the preferences cannot be had. -/
inductive ConfigError where
  | unreadable (path : Path) (reason : String)
  | invalid

/-- The wording of an error. -/
def ConfigError.message : ConfigError → String
  | unreadable path reason => "Failed to read " ++ path.text ++ ": " ++ reason
  | invalid => "Invalid preferences"

/-- The preferences of a file, over those of the environment. -/
def loadPreferences (world : World) (path : Path) : Except ConfigError Preferences :=
  match world.look path with
  | .error failure => .error (.unreadable path failure.message)
  | .ok (.directory _) => .error (.unreadable path "Is a directory (os error 21)")
  | .ok (.file content) =>
    match String.fromUTF8? content with
    | none => .error (.unreadable path "stream did not contain valid UTF-8")
    | some text =>
      match Preferences.ofToml? world.environment text.toList with
      | some preferences => .ok preferences
      | none => .error .invalid

/-- The outcome of a run that ends with lines on the error stream. -/
def failure (lines : List String) : Outcome :=
  ⟨1, (lines.map fun text => (Channel.error, text ++ "\n")).toArray⟩

/-- A run with the given options and preferences. -/
def start (world : World) (options : Options) (preferences : Preferences) : Outcome :=
  let r : Run := { preferences, now := world.now }
  let r := r.logAll [Startup.logEvent, Startup.fileEvent, Startup.lexicalEvent]
  match options.input with
  | none => (r.line .error "Error: no input given").exit 1
  | some input =>
    match world.look input with
    | .ok (.file content) => r.lexAll options input false [(input, .ok (.file content))]
    | found =>
      match SourceFile.discover input found with
      | (.ok sources, events) =>
        (r.logAll events).lexAll options input true
          (sources.map fun (path, content) => (path, .ok (.file content)))
      | (.error _, _) =>
        ((r.line .error "Error: Input must be a file (.vb) or directory").line .error
          ("  Path: " ++ input.text)).exit 1

/-- A run of the program with the given arguments. -/
def run (world : World) (arguments : List String) : Outcome :=
  match Options.ofArguments arguments with
  | .error e =>
    failure [
      "Error: " ++ e.message,
      "Usage: " ++ world.program ++ " <input.vb|directory> [options]",
      "       " ++ world.program ++ " --help"]
  | .ok options =>
    if options.help then
      ⟨0, ((helpLines world.program).map fun text => (Channel.output, text ++ "\n")).toArray⟩
    else
      match options.config with
      | none => start world options world.environment.preferences
      | some path =>
        match loadPreferences world path with
        | .ok preferences => start world options preferences
        | .error e => failure ["Error: " ++ Text.quoted e.message]

end BasicLexis.CommandLine
