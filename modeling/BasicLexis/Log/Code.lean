set_option autoImplicit false

/-! # Codes

Every report carries a short code. Registered codes have a category, a severity, a rule on whether
the input at hand is abandoned, a description and a recommended action; a code that is not
registered has defaults for all of them. -/

namespace BasicLexis

/-- A code such as `E021`. -/
structure Code where
  /-- The code as printed. -/
  text : String
  deriving DecidableEq, Repr

/-- How grave a report is. -/
inductive Severity where
  | critical | high | medium | low
  deriving DecidableEq, Repr

/-- The name of a severity. -/
def Severity.name : Severity → String
  | .critical => "Critical"
  | .high => "High"
  | .medium => "Medium"
  | .low => "Low"

/-- What happens to the input that a report is about. -/
inductive Handling where
  /-- Work goes on after the offending text. -/
  | resume
  /-- The input is abandoned. -/
  | halt
  deriving DecidableEq, Repr

/-- What is registered for a code. -/
structure CodeEntry where
  /-- The code. -/
  code : Code
  /-- The area that the code belongs to. -/
  category : String
  /-- How grave it is. -/
  severity : Severity
  /-- What happens to the input. -/
  handling : Handling
  /-- What the code means. -/
  description : String
  /-- What to do about it. -/
  action : String
  deriving DecidableEq, Repr

namespace Code

/-- Critical internal system error. -/
def internalError : Code := ⟨"ERR001"⟩

/-- System initialization failure. -/
def initializationFailure : Code := ⟨"ERR002"⟩

/-- Invalid runtime configuration. -/
def configurationError : Code := ⟨"ERR003"⟩

/-- File not found at specified path. -/
def fileNotFound : Code := ⟨"E005"⟩

/-- File does not have .vb extension. -/
def invalidExtension : Code := ⟨"E006"⟩

/-- File exceeds maximum size limit. -/
def fileTooLarge : Code := ⟨"E007"⟩

/-- File is empty. -/
def emptyFile : Code := ⟨"E008"⟩

/-- Permission denied accessing file. -/
def permissionDenied : Code := ⟨"E009"⟩

/-- Invalid UTF-8 encoding in file. -/
def invalidEncoding : Code := ⟨"E010"⟩

/-- I/O error during file operation. -/
def ioError : Code := ⟨"E011"⟩

/-- Invalid file path provided. -/
def invalidPath : Code := ⟨"E012"⟩

/-- Character cannot start any token. -/
def invalidCharacter : Code := ⟨"E020"⟩

/-- End of file reached inside a string literal. -/
def unterminatedString : Code := ⟨"E021"⟩

/-- Number literal cannot be parsed. -/
def invalidNumber : Code := ⟨"E022"⟩

/-- Identifier exceeds maximum allowed length. -/
def identifierTooLong : Code := ⟨"E023"⟩

/-- String literal exceeds maximum size limit. -/
def stringTooLarge : Code := ⟨"E024"⟩

/-- Escaped identifier is missing its closing bracket. -/
def unterminatedEscapedIdentifier : Code := ⟨"E025"⟩

/-- Comment exceeds maximum length. -/
def commentTooLong : Code := ⟨"E026"⟩

/-- Token count exceeds maximum limit. -/
def tooManyTokens : Code := ⟨"E027"⟩

/-- Line break inside a string literal. -/
def newlineInString : Code := ⟨"E028"⟩

/-- Character literal must contain exactly one character. -/
def invalidCharacterLiteral : Code := ⟨"E029"⟩

/-- Date literal cannot be parsed. -/
def invalidDate : Code := ⟨"E030"⟩

/-- Line break inside a date literal. -/
def newlineInDate : Code := ⟨"E031"⟩

/-- End of file reached inside a date literal. -/
def unterminatedDate : Code := ⟨"E032"⟩

/-- Digit expected after a radix prefix. -/
def digitExpected : Code := ⟨"E033"⟩

/-- Unsigned type character not followed by S, I or L. -/
def invalidTypeCharacter : Code := ⟨"E034"⟩

/-- Integer literal has too many digits. -/
def integerLiteralTooLong : Code := ⟨"E035"⟩

/-- Number literal overflows its type. -/
def numberOverflow : Code := ⟨"E036"⟩

/-- Identifier expected. -/
def identifierExpected : Code := ⟨"E037"⟩

/-- Line continuation not followed by a line break. -/
def invalidLineContinuation : Code := ⟨"E038"⟩

/-- Malformed XML comment, CDATA or processing instruction. -/
def malformedXmlSection : Code := ⟨"E039"⟩

/-- Token does not fit the expected grammar. -/
def unexpectedToken : Code := ⟨"E045"⟩

/-- Classifier depth or step limit exceeded. -/
def limitExceeded : Code := ⟨"E046"⟩

/-- Operation completed successfully. -/
def operationCompleted : Code := ⟨"I001"⟩

/-- System initialization completed. -/
def initializationCompleted : Code := ⟨"I004"⟩

/-- File read and validated. -/
def fileProcessingSuccess : Code := ⟨"I006"⟩

/-- File validation passed. -/
def fileValidationPassed : Code := ⟨"I007"⟩

/-- Tokenization completed. -/
def tokenizationComplete : Code := ⟨"I020"⟩

/-- No lexical errors found. -/
def lexicalValidationPassed : Code := ⟨"I021"⟩

/-- Classifier reached end of input. -/
def classificationComplete : Code := ⟨"I045"⟩

/-- The placeholder of warnings without a code of their own. -/
def warning : Code := ⟨"W000"⟩

/-- The placeholder of information without a code of its own. -/
def info : Code := ⟨"I000"⟩

/-- The placeholder of debugging notes. -/
def debug : Code := ⟨"D000"⟩

/-- All registered codes. -/
def registry : List CodeEntry := [
  ⟨internalError, "System", .critical, .halt,
    "Critical internal system error",
    "File a bug report with the input that triggered it"⟩,
  ⟨initializationFailure, "System", .critical, .halt,
    "System initialization failure",
    "Check system configuration and dependencies"⟩,
  ⟨configurationError, "System", .critical, .halt,
    "Invalid runtime configuration",
    "Fix the preferences file or VBL_* environment variables"⟩,
  ⟨fileNotFound, "FileProcessing", .medium, .halt,
    "File not found at specified path",
    "Check file path and ensure file exists"⟩,
  ⟨invalidExtension, "FileProcessing", .low, .resume,
    "File does not have .vb extension",
    "Rename file with .vb extension or verify file type"⟩,
  ⟨fileTooLarge, "FileProcessing", .medium, .halt,
    "File exceeds maximum size limit",
    "Reduce file size or increase processing limits"⟩,
  ⟨emptyFile, "FileProcessing", .low, .resume,
    "File is empty",
    "Provide a file with content or check file integrity"⟩,
  ⟨permissionDenied, "FileProcessing", .medium, .halt,
    "Permission denied accessing file",
    "Check file permissions and user access rights"⟩,
  ⟨invalidEncoding, "FileProcessing", .medium, .halt,
    "Invalid UTF-8 encoding in file",
    "Convert file to UTF-8 encoding"⟩,
  ⟨ioError, "FileProcessing", .medium, .halt,
    "I/O error during file operation",
    "Check disk space, permissions and file system integrity"⟩,
  ⟨invalidPath, "FileProcessing", .medium, .halt,
    "Invalid file path provided",
    "Provide a valid file path"⟩,
  ⟨invalidCharacter, "Lexical", .medium, .resume,
    "Character cannot start any token",
    "Remove the character or move it into a string or comment"⟩,
  ⟨unterminatedString, "Lexical", .medium, .resume,
    "End of file reached inside a string literal",
    "Add the closing quote"⟩,
  ⟨invalidNumber, "Lexical", .low, .resume,
    "Number literal cannot be parsed",
    "Fix the digits or the type character"⟩,
  ⟨identifierTooLong, "Lexical", .low, .resume,
    "Identifier exceeds maximum allowed length",
    "Shorten the identifier"⟩,
  ⟨stringTooLarge, "Lexical", .medium, .resume,
    "String literal exceeds maximum size limit",
    "Split the string into smaller parts"⟩,
  ⟨unterminatedEscapedIdentifier, "Lexical", .medium, .resume,
    "Escaped identifier is missing its closing bracket",
    "Add ']' after the identifier"⟩,
  ⟨commentTooLong, "Lexical", .low, .resume,
    "Comment exceeds maximum length",
    "Shorten the comment"⟩,
  ⟨tooManyTokens, "Lexical", .medium, .halt,
    "Token count exceeds maximum limit",
    "Split the source file"⟩,
  ⟨newlineInString, "Lexical", .medium, .resume,
    "Line break inside a string literal",
    "Close the string before the end of the line"⟩,
  ⟨invalidCharacterLiteral, "Lexical", .low, .resume,
    "Character literal must contain exactly one character",
    "Use a string literal or a single character"⟩,
  ⟨invalidDate, "Lexical", .low, .resume,
    "Date literal cannot be parsed",
    "Use the #M/d/yyyy h:mm:ss tt# form"⟩,
  ⟨newlineInDate, "Lexical", .medium, .resume,
    "Line break inside a date literal",
    "Close the date literal before the end of the line"⟩,
  ⟨unterminatedDate, "Lexical", .medium, .resume,
    "End of file reached inside a date literal",
    "Add the closing '#'"⟩,
  ⟨digitExpected, "Lexical", .low, .resume,
    "Digit expected after a radix prefix",
    "Add digits after &H or &O"⟩,
  ⟨invalidTypeCharacter, "Lexical", .low, .resume,
    "Unsigned type character not followed by S, I or L",
    "Use US, UI or UL"⟩,
  ⟨integerLiteralTooLong, "Lexical", .low, .resume,
    "Integer literal has too many digits",
    "Use a Decimal or Double literal"⟩,
  ⟨numberOverflow, "Lexical", .low, .resume,
    "Number literal overflows its type",
    "Use a wider type character"⟩,
  ⟨identifierExpected, "Lexical", .medium, .resume,
    "Identifier expected",
    "Add an identifier after '['"⟩,
  ⟨invalidLineContinuation, "Lexical", .low, .resume,
    "Line continuation not followed by a line break",
    "Remove characters after '_'"⟩,
  ⟨malformedXmlSection, "Lexical", .medium, .resume,
    "Malformed XML comment, CDATA or processing instruction",
    "Terminate the XML section"⟩,
  ⟨unexpectedToken, "Classifier", .low, .resume,
    "Token does not fit the expected grammar",
    "Check the statement; lexing continues with a best guess"⟩,
  ⟨limitExceeded, "Classifier", .medium, .resume,
    "Classifier depth or step limit exceeded",
    "Simplify deeply nested expressions"⟩,
  ⟨operationCompleted, "Success", .low, .resume,
    "Operation completed successfully",
    "Continue"⟩,
  ⟨initializationCompleted, "Success", .low, .resume,
    "System initialization completed",
    "Continue"⟩,
  ⟨fileProcessingSuccess, "Success", .low, .resume,
    "File read and validated",
    "Continue to tokenization"⟩,
  ⟨fileValidationPassed, "Success", .low, .resume,
    "File validation passed",
    "Continue"⟩,
  ⟨tokenizationComplete, "Success", .low, .resume,
    "Tokenization completed",
    "Consume the token stream"⟩,
  ⟨lexicalValidationPassed, "Success", .low, .resume,
    "No lexical errors found",
    "Continue"⟩,
  ⟨classificationComplete, "Success", .low, .resume,
    "Classifier reached end of input",
    "Continue"⟩]

/-- What is registered for a code. -/
def entry? (code : Code) : Option CodeEntry := registry.find? (·.code = code)

/-- The code is registered. -/
def isRegistered (code : Code) : Bool := code.entry?.isSome

/-- The severity of a code, medium by default. -/
def severity (code : Code) : Severity := (code.entry?.map (·.severity)).getD .medium

/-- The input is abandoned; not by default. -/
def requiresHalt (code : Code) : Bool := code.entry?.any (·.handling = .halt)

/-- Work goes on after the report; the default. -/
def isRecoverable (code : Code) : Bool := code.entry?.all (·.handling = .resume)

/-- What a code means. -/
def description (code : Code) : String := (code.entry?.map (·.description)).getD "Unknown error"

/-- What is recommended for a code that is not registered. -/
def noAction : String := "No specific action available"

/-- What to do about a code. -/
def action (code : Code) : String := (code.entry?.map (·.action)).getD noAction

/-- The area that a code belongs to. -/
def category (code : Code) : String := (code.entry?.map (·.category)).getD "Unknown"

end Code

end BasicLexis
