import BasicLexis.Classifier.Stack

set_option autoImplicit false

/-! # What steers a scanner

A scanner tells every token to whatever steers it, and asks before every token how that token is to
be read. The classifier steers the scanner of a program. Anything else that answers with hints can
do so too, such as a source of fixed hints. -/

namespace BasicLexis

/-- The answer to a token, or to the question how the next token is to be read. -/
structure SteeringReply (σ : Type) where
  /-- The state afterwards. -/
  state : σ
  /-- How the next token is to be read. -/
  hints : Hints
  /-- What there is to log. -/
  events : List LogEvent := []

/-- States that can steer a scanner. -/
class Steering (σ : Type) where
  /-- Takes a token, or without one tells how the next token is to be read. -/
  inform : σ → Option Token → SteeringReply σ
  /-- The tokens that could not be placed so far. -/
  errors : σ → Array ClassifierError

instance : Steering Classifier where
  inform c t :=
    let reply := c.inform t
    { state := reply.state, hints := reply.hints, events := reply.events }
  errors c := c.errors

/-- Hints that never change. -/
structure FixedHints where
  /-- The hints for every token. -/
  hints : Hints
  deriving DecidableEq, Repr

instance : Steering FixedHints where
  inform h _ := { state := h, hints := h.hints }
  errors _ := #[]

end BasicLexis
