set_option autoImplicit false

/-! # Limits

The fixed bounds within which sources are read, tokenized and reported. -/

namespace BasicLexis.Limits

/-- The size in bytes above which a file is refused. -/
def maxFileSize : Nat := 52428800

/-- The size in bytes above which a file is reported as large. -/
def largeFileThreshold : Nat := 1048576

/-- The number of characters above which a string literal is reported. -/
def maxStringSize : Nat := 1048576

/-- The number of characters above which an identifier is reported. -/
def maxIdentifierLength : Nat := 1023

/-- The number of characters above which a comment is reported. -/
def maxCommentLength : Nat := 65536

/-- The number of tokens at which a token stream is cut. -/
def maxTokenCount : Nat := 5000000

/-- The number of frames that the classifier's stack may hold. -/
def maxFrameDepth : Nat := 512

/-- The number of moves that the classifier may make for one token. -/
def maxEpsilonSteps : Nat := 4096

/-- The number of classifier errors that are kept. -/
def maxRecordedErrors : Nat := 1000

/-- The number of XML literals that may stand inside one another. -/
def maxXmlNesting : Nat := 256

/-- The number of events that an in-memory log keeps. -/
def logBufferSize : Nat := 10000

/-- The number of events that are kept for one file. -/
def maxLogEventsPerFile : Nat := 1000

/-- The number of characters to which a log message is cut. -/
def maxLogMessageLength : Nat := 4096

/-- The configuration that these bounds were taken from. -/
def provenance : String := "Generated from config/development.toml"

end BasicLexis.Limits
