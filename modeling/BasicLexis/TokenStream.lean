import BasicLexis.Scanner.Progress

set_option autoImplicit false

/-! # Streams of tokens

A stream is a scanner with a view of one token ahead and of the token at hand. Looking ahead takes
nothing from the stream. -/

namespace BasicLexis

/-- A stream of tokens. -/
structure TokenStream (σ : Type) where
  /-- The scanner that produces the tokens. -/
  scanner : Scanner σ
  /-- The next token, if it was looked at. -/
  ahead : Option Token := none
  /-- The latest token that was taken. -/
  current : Option Token := none

namespace TokenStream

variable {σ : Type} [Steering σ]

/-- The stream of the tokens of a source. -/
def start (steering : σ) (tags : List String) (source : List Char) : TokenStream σ :=
  { scanner := .start steering tags source }

/-- Takes the next token. The end marker is taken again and again. -/
def next (s : TokenStream σ) : Token × TokenStream σ :=
  match s.ahead with
  | some token => (token, { s with ahead := none, current := some token })
  | none =>
    let (token, scanner) := s.scanner.produce
    (token, { scanner, current := some token })

/-- Takes the next token where additions are checked: a program that reads with such checks stops at
    the first one that overflows. -/
def nextChecked? (s : TokenStream σ) : Option (Token × TokenStream σ) :=
  let (token, s) := s.next
  if s.scanner.overflowed then none else some (token, s)

/-- Looks at the next token. -/
def peek (s : TokenStream σ) : Token × TokenStream σ :=
  match s.ahead with
  | some token => (token, s)
  | none =>
    let (token, scanner) := s.scanner.produce
    (token, { s with scanner, ahead := some token })

/-- Takes the next token, up to and including the first end marker. -/
def next? (s : TokenStream σ) : Option Token × TokenStream σ :=
  if s.current.any Token.isEof then (none, s)
  else
    let (token, s) := s.next
    (some token, s)

omit [Steering σ] in
/-- What is left to do before the end marker. -/
def work (s : TokenStream σ) : Nat := s.scanner.work + s.ahead.toList.length

/-- A token other than the end marker leaves less to do. -/
theorem work_next {s s' : TokenStream σ} {token : Token} (h : s.next = (token, s'))
    (more : ¬token.isEof = true) : s'.work < s.work := by
  have taken : s.next.1.isEof = false := by rw [h]; exact Bool.eq_false_iff.2 more
  have after : s.next.2 = s' := by rw [h]
  subst after
  obtain ⟨scanner, ahead, current⟩ := s
  cases ahead with
  | some token => exact Nat.lt_succ_self _
  | none => exact Scanner.work_produce (s := scanner) taken

/-- Takes tokens until the given keyword follows `End`, and then the token after it. At the end of
    the source the end marker is taken. -/
def skipBlock (keyword : Keyword) (s : TokenStream σ) : Token × TokenStream σ :=
  match _h : s.next with
  | (token, s') =>
    if _more : token.isEof then (token, s')
    else if token.kind = .keyword keyword
        ∧ s.current.map Token.kind = some (.keyword .End) then s'.next
    else skipBlock keyword s'
termination_by s.work
decreasing_by exact work_next _h _more

/-- Takes all tokens up to and including the end marker, after those in `taken`. -/
def drainAfter (taken : Array Token) (s : TokenStream σ) : Array Token × TokenStream σ :=
  match _h : s.next with
  | (token, s') =>
    if _more : token.isEof then (taken.push token, s')
    else drainAfter (taken.push token) s'
termination_by s.work
decreasing_by exact work_next _h _more

/-- Takes all tokens up to and including the end marker. None are left once that was taken. -/
def drain (s : TokenStream σ) : Array Token × TokenStream σ :=
  if s.current.any Token.isEof then (#[], s) else s.drainAfter #[]

end TokenStream

end BasicLexis
