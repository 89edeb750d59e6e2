import BasicLexis.Classifier.Outcome

set_option autoImplicit false

/-! # XML literals

The classifier follows an XML literal through the markup tokens that the scanner made of it, and
knows in this way when the literal is complete and the expression around it goes on. -/

namespace BasicLexis.Classifier

/-- Offers a token to a `GetXmlNamespace` expression. -/
def offerXmlNamespace (step : XmlNamespaceStep) (kind : TokenKind) : Outcome :=
  let frame := Frame.xmlNamespace step
  match step, kind with
  | .open_, .openParen => .consume (.xmlNamespace .name)
  | .name, .closeParen | .close, .closeParen => .consumePop frame
  | .name, kind =>
    if kind.isMemberName then .consume (.xmlNamespace .close) else (Outcome.pop frame).misplacing
  | _, _ => (Outcome.pop frame).misplacing

namespace XmlLiteral

/-- A literal after a piece of markup; `none` if the token is no part of a literal. The start of an
    embedded expression is not among them, since it opens an expression as well. -/
def after? (x : XmlLiteral) (kind : TokenKind) : Option XmlLiteral :=
  match kind with
  | .xmlOpenTag =>
    some { x with level := x.level + 1, inTag := true, wasComment := false, wasInstruction := false }
  | .xmlOpenEndTag => some { x with inCloseTag := true }
  | .xmlCloseEmptyTag => some { x with inTag := false, level := x.level - 1 }
  | .xmlInstructionStart => some { x with inTag := true }
  | .xmlInstructionEnd => some { x with inTag := false, wasInstruction := true }
  | .xmlCloseTag =>
    some { x with
      level := if x.inCloseTag then x.level - 1 else x.level
      inTag := false, inCloseTag := false, wasComment := false, wasInstruction := false }
  | .xmlComment => some { x with wasComment := true }
  | .xmlCData => some { x with wasComment := false }
  | .xmlExpressionEnd => if x.inExpression then some { x with inExpression := false } else none
  | .identifier | .assign | .literalString | .xmlContent => some x
  | _ => none

/-- Offers a token to an XML literal. Comments after a complete literal still belong to it. -/
def offer (x : XmlLiteral) (kind : TokenKind) : Outcome :=
  if x.isComplete then
    if kind = .xmlComment then .consume (.xmlLiteral x) else .pop (.xmlLiteral x)
  else
    let x := { x with started := true }
    if kind = .xmlExpressionStart then
      .consumePush (.xmlLiteral { x with inExpression := true }) .newExpression
    else
      match x.after? kind with
      | some x' => .consume (.xmlLiteral x')
      | none => (Outcome.pop (.xmlLiteral x)).misplacing

end XmlLiteral

end BasicLexis.Classifier
