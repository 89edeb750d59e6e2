import BasicLexis.Log.Event

set_option autoImplicit false

/-! # Checks before a run

Before anything is read, the limits are checked to be usable and the codes that may be reported to be
registered. -/

namespace BasicLexis.Startup

/-- The limits on logs are usable. -/
def logChecks : Bool :=
  100 ≤ Limits.logBufferSize && Limits.logBufferSize ≤ 100000
    && Limits.maxLogEventsPerFile ≤ Limits.logBufferSize
    && 0 < Limits.maxLogMessageLength

/-- The codes of lexical problems and of misplaced tokens. -/
def lexicalCodes : List Code := [
  .invalidCharacter, .unterminatedString, .invalidNumber, .identifierTooLong, .stringTooLarge,
  .unterminatedEscapedIdentifier, .commentTooLong, .tooManyTokens, .newlineInString,
  .invalidCharacterLiteral, .invalidDate, .newlineInDate, .unterminatedDate, .digitExpected,
  .invalidTypeCharacter, .integerLiteralTooLong, .numberOverflow, .identifierExpected,
  .invalidLineContinuation, .malformedXmlSection, .unexpectedToken, .limitExceeded]

/-- The codes of lexical problems are registered and the limits on sources usable. -/
def lexicalChecks : Bool :=
  lexicalCodes.all Code.isRegistered && 0 < Limits.maxStringSize
    && 0 < Limits.maxIdentifierLength && 0 < Limits.maxCommentLength && 0 < Limits.maxTokenCount

/-- The codes of problems with files. -/
def fileCodes : List Code := [
  .fileNotFound, .invalidExtension, .fileTooLarge, .emptyFile, .permissionDenied, .invalidEncoding,
  .ioError, .invalidPath]

/-- The codes of problems with files are registered. -/
def fileChecks : Bool := fileCodes.all Code.isRegistered

/-- The note that logging has started. -/
def logEvent : LogEvent := .success .initializationCompleted "Global logging system initialized"

/-- The note on the limits on sources. -/
def lexicalEvent : LogEvent :=
  (LogEvent.debug "Lexical limits initialized").withAll [
    ("max_string_size", toString Limits.maxStringSize),
    ("max_identifier_length", toString Limits.maxIdentifierLength),
    ("max_comment_length", toString Limits.maxCommentLength),
    ("max_token_count", toString Limits.maxTokenCount)]

/-- The note on the limits on files. -/
def fileEvent : LogEvent :=
  (LogEvent.debug "File processor limits").withAll [
    ("max_file_size", toString Limits.maxFileSize),
    ("large_file_threshold", toString Limits.largeFileThreshold)]

end BasicLexis.Startup
