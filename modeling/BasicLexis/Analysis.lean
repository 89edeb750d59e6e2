import BasicLexis.Metrics
import BasicLexis.Preferences
import BasicLexis.TokenStream

set_option autoImplicit false

/-! # Lexical analysis

The analysis of a source takes all its tokens, up to a limit on their number, together with the
problems, the trivia, the tokens that the classifier could not place, and the metrics. It never
fails: problems are part of its result. -/

namespace BasicLexis

/-- What the analysis of a source gives. -/
structure Analysis where
  /-- The tokens in order; the last two are a line end and the end marker. -/
  tokens : Array Token
  /-- What is wrong with the text. -/
  diagnostics : Array Diagnostic
  /-- Comments, directives and blank lines. -/
  trivia : Array Trivia
  /-- Comments with a tag word. -/
  tagComments : Array TagComment
  /-- The tokens that the classifier could not place. -/
  misplaced : Array ClassifierError
  /-- Counts of all of these. -/
  metrics : Metrics
  /-- What there is to log. -/
  events : Array LogEvent

namespace Analysis

/-- The text has problems. -/
def hasErrors (a : Analysis) : Bool := !a.diagnostics.isEmpty

/-- Takes tokens after those in `tokens`, up to the end marker or until `limit` more were taken. Each
    token is counted when it comes. -/
def collect {σ : Type} [Steering σ] (byKind : Bool) :
    Nat → Scanner σ → Array Token → Metrics → Array Token × Metrics × Scanner σ
  | 0, s, tokens, metrics => (tokens, metrics, s)
  | limit + 1, s, tokens, metrics =>
    let (token, s) := s.produce
    let metrics := metrics.count byKind token
    if token.isEof then (tokens.push token, metrics, s)
    else collect byKind limit s (tokens.push token) metrics

/-- Ends a stream that was cut: with a line end, unless the last token is one, and the end marker.
    These are counted as well. -/
def close (byKind : Bool) (tokens : Array Token) (metrics : Metrics) (location : Location) :
    Array Token × Metrics :=
  let closing :=
    (if tokens.back?.any (·.kind == .eol) then [] else [.lineEnd location location])
      ++ [.endMarker location]
  closing.foldl (fun (tokens, metrics) token => (tokens.push token, metrics.count byKind token))
    (tokens, metrics)

/-- Takes at most `limit` tokens of a source. A longer stream is cut and closed, which is reported. -/
def take {σ : Type} [Steering σ] (byKind : Bool) (limit : Nat) (s : Scanner σ) :
    Array Token × Metrics × Scanner σ :=
  let (tokens, metrics, s) := collect byKind limit s #[] {}
  if tokens.back?.any Token.isEof then (tokens, metrics, s)
  else
    let location := (tokens.back?.map Token.stop).getD .start
    let warning := (LogEvent.warning "Token limit reached, remaining input skipped").withContext
      "location" location.render
    let entries := [.problem ⟨location, .tooManyTokens tokens.size⟩, .event warning]
    let (tokens, metrics) := close byKind tokens metrics location
    (tokens, metrics, { s with journal := s.journal.appendList entries })

/-- The note that an analysis begins. -/
def startEvent (source : List Char) : LogEvent :=
  (LogEvent.debug "Starting tokenization").withAll [
    ("char_count", toString source.length),
    ("max_tokens_allowed", toString Limits.maxTokenCount)]

/-- The notes on a finished analysis. -/
def resultEvents (tokenCount : Nat) (m : Metrics) : List LogEvent :=
  let completed := (LogEvent.success .tokenizationComplete "Tokenization completed").withAll [
    ("token_count", toString tokenCount),
    ("keywords", toString m.keywords),
    ("identifiers", toString m.identifiers),
    ("literals", toString m.literals),
    ("comments", toString m.comments),
    ("diagnostics", toString m.diagnostics)]
  let passed := (LogEvent.success .lexicalValidationPassed "No lexical errors found").withContext
    "lines" (toString m.lines)
  let classified :=
    (LogEvent.success .classificationComplete "Expression classification completed").withAll [
      ("classifier_errors", toString m.misplaced),
      ("xml_tokens", toString m.xml)]
  [completed] ++ (if m.diagnostics = 0 then [passed] else []) ++ [classified]

/-- Analyses a source. -/
def ofSource (preferences : LexerPreferences) (source : List Char) : Analysis :=
  let (tokens, metrics, scanner) := take preferences.countKinds Limits.maxTokenCount
    (Scanner.start ({} : Classifier) preferences.tags source)
  let diagnostics := scanner.journal.diagnostics
  let trivia := scanner.journal.trivia
  let misplaced := scanner.steering.errors
  let metrics := { metrics with
    comments := (trivia.filter Trivia.isComment).size
    directives := (trivia.filter Trivia.isDirective).size
    diagnostics := diagnostics.size
    misplaced := misplaced.size }
  { tokens, diagnostics, trivia, misplaced, metrics
    tagComments := scanner.journal.tagComments
    events := #[startEvent source] ++ scanner.journal.events preferences.reportMisplaced
      ++ (resultEvents tokens.size metrics).toArray }

end Analysis

end BasicLexis
