import BasicLexis.Limits
import BasicLexis.Log.Code
import BasicLexis.Source.Location

set_option autoImplicit false

/-! # Lexical problems

What can be wrong with a source text. A problem never stops the reading of a source: it is recorded
with its location, and the best token that can be made of the text is produced. -/

namespace BasicLexis

/-- What is wrong with a piece of source text. -/
inductive Problem where
  | unknownCharacter (character : Char)
  | unterminatedString
  | newlineInString
  | invalidCharacterLiteral
  | invalidDate (text : String)
  | newlineInDate
  | unterminatedDate
  | identifierExpected
  | unterminatedEscapedIdentifier
  | identifierTooLong (length : Nat)
  | stringTooLarge (size : Nat)
  | commentTooLong (length : Nat)
  | tooManyTokens (count : Nat)
  | digitExpected
  | invalidTypeCharacter (suffix : String)
  | invalidNumber (text : String)
  | integerTooLong (text : String)
  | numberOverflow (text : String)
  | eofAfterLineContinuation
  | returnExpected
  | malformedXmlSection
  | unterminatedXmlSection
  deriving DecidableEq, Repr

namespace Problem

/-- The wording of a problem. -/
def message : Problem → String
  | unknownCharacter c => "Unknown char(" ++ String.ofList [c] ++ ") which can't be read"
  | unterminatedString => "End of File reached before String terminated"
  | newlineInString => "No return allowed inside String literal"
  | invalidCharacterLiteral => "Chars can only have Length 1"
  | invalidDate text => "Invalid date time '" ++ text ++ "'"
  | newlineInDate => "No return allowed inside Date literal"
  | unterminatedDate => "End of File reached before Date literal terminated"
  | identifierExpected => "Identifier expected"
  | unterminatedEscapedIdentifier => "']' expected"
  | identifierTooLong length =>
    "Identifier too long: " ++ toString length ++ " characters (max "
      ++ toString Limits.maxIdentifierLength ++ ")"
  | stringTooLarge size =>
    "String too large: " ++ toString size ++ " characters (max "
      ++ toString Limits.maxStringSize ++ ")"
  | commentTooLong length =>
    "Comment too long: " ++ toString length ++ " characters (max "
      ++ toString Limits.maxCommentLength ++ ")"
  | tooManyTokens count =>
    "Too many tokens: " ++ toString count ++ " (max " ++ toString Limits.maxTokenCount ++ ")"
  | digitExpected => "digit expected"
  | invalidTypeCharacter suffix => "Invalid type character: " ++ suffix
  | invalidNumber text => text ++ " is not a parseable number"
  | integerTooLong text => text ++ " is too long for an integer literal"
  | numberOverflow text => text ++ " is outside the range of its type"
  | eofAfterLineContinuation => "No EOF expected after _"
  | returnExpected => "Return expected"
  | malformedXmlSection => "Malformed XML comment or CDATA section"
  | unterminatedXmlSection => "End of File reached before XML comment or CDATA section terminated"

/-- The code under which a problem is reported. -/
def code : Problem → Code
  | unknownCharacter _ => .invalidCharacter
  | unterminatedString => .unterminatedString
  | newlineInString => .newlineInString
  | invalidCharacterLiteral => .invalidCharacterLiteral
  | invalidDate _ => .invalidDate
  | newlineInDate => .newlineInDate
  | unterminatedDate => .unterminatedDate
  | identifierExpected => .identifierExpected
  | unterminatedEscapedIdentifier => .unterminatedEscapedIdentifier
  | identifierTooLong _ => .identifierTooLong
  | stringTooLarge _ => .stringTooLarge
  | commentTooLong _ => .commentTooLong
  | tooManyTokens _ => .tooManyTokens
  | digitExpected => .digitExpected
  | invalidTypeCharacter _ => .invalidTypeCharacter
  | invalidNumber _ => .invalidNumber
  | integerTooLong _ => .integerLiteralTooLong
  | numberOverflow _ => .numberOverflow
  | eofAfterLineContinuation | returnExpected => .invalidLineContinuation
  | malformedXmlSection | unterminatedXmlSection => .malformedXmlSection

end Problem

/-- A problem and where it was found. -/
structure Diagnostic where
  /-- Where the problem was found. -/
  location : Location
  /-- What is wrong. -/
  problem : Problem
  deriving DecidableEq, Repr

namespace Diagnostic

/-- The wording of a diagnostic, without its location. -/
def message (d : Diagnostic) : String := d.problem.message

/-- The code of a diagnostic. -/
def code (d : Diagnostic) : Code := d.problem.code

/-- A diagnostic as one line. -/
def render (d : Diagnostic) : String := d.location.render ++ ": " ++ d.message

end Diagnostic

end BasicLexis
