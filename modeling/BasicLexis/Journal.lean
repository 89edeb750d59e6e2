import BasicLexis.Classifier.Stack
import BasicLexis.Log.Event
import BasicLexis.Problem
import BasicLexis.Trivia

set_option autoImplicit false

/-! # The journal of a scan

Whatever there is to note about a source while it is scanned is entered in one journal, in the order
in which it is found. Diagnostics, trivia, tag comments and log events are views of the journal, so
that they agree with each other on the order.

One entry about a problem is one report. A report does two things at once: it adds the problem to the
diagnostics and writes an error about it to the log. Nothing else does either of the two while a
source is scanned, apart from the errors about tokens that the classifier could not place, which
have entries of their own. This is what makes both views those of a program that keeps diagnostics
and log apart. -/

namespace BasicLexis

/-- What there is to note about a source. -/
inductive Entry where
  /-- The text is wrong. -/
  | problem (diagnostic : Diagnostic)
  /-- A part of the source that carries no tokens. -/
  | trivia (trivia : Trivia)
  /-- A comment with a tag word. -/
  | tagged (comment : TagComment)
  /-- A token that the classifier could not place. -/
  | misplaced (error : ClassifierError)
  /-- Something for the log only. -/
  | event (event : LogEvent)
  deriving DecidableEq, Repr

namespace Entry

/-- The problem that an entry holds. -/
def diagnostic? : Entry → Option Diagnostic
  | problem d => some d
  | _ => none

/-- The trivia that an entry holds. -/
def trivia? : Entry → Option Trivia
  | trivia t => some t
  | _ => none

/-- The tag comment that an entry holds. -/
def tagComment? : Entry → Option TagComment
  | tagged c => some c
  | _ => none

/-- What the log says about an entry. Tokens that the classifier could not place are errors only if
    they are to be reported as such, and debugging notes otherwise. -/
def event? (reportMisplaced : Bool) : Entry → Option LogEvent
  | problem d => some ((LogEvent.error d.code d.message).withLocation d.location)
  | misplaced e =>
    if reportMisplaced then some ((LogEvent.error e.code e.render).withLocation e.location)
    else some ((LogEvent.debug e.render).withContext "location" e.location.render)
  | event e => some e
  | trivia _ | tagged _ => none

end Entry

/-- The entries of a scan in order. -/
abbrev Journal := Array Entry

namespace Journal

/-- The problems found, in order. -/
def diagnostics (journal : Journal) : Array Diagnostic := journal.filterMap Entry.diagnostic?

/-- The trivia found, in order. -/
def trivia (journal : Journal) : Array Trivia := journal.filterMap Entry.trivia?

/-- The tag comments found, in order. -/
def tagComments (journal : Journal) : Array TagComment := journal.filterMap Entry.tagComment?

/-- What the log says about a scan, in order. -/
def events (journal : Journal) (reportMisplaced : Bool) : Array LogEvent :=
  journal.filterMap (Entry.event? reportMisplaced)

end Journal

end BasicLexis
