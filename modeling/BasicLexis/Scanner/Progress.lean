import BasicLexis.Scanner.Basic

set_option autoImplicit false

/-! # The stream of tokens ends

Every token brings a scanner closer to the end marker. The work that is left is measured by what is
left of the source, the tokens that wait for their turn, and the line end that may have to be added
at the end. -/

namespace BasicLexis.Scanner

variable {σ : Type}

/-- What is left to read, apart from the line end that may have to be added. -/
def unread (s : Scanner σ) : Nat := 4 * s.reader.rest.length + 2 * s.queue.length

/-- What is left to do before the end marker. -/
def work (s : Scanner σ) : Nat := s.unread + (if s.last = some .eol then 0 else 1)

theorem unread_accept {s : Scanner σ} {piece : Piece} (mode : XmlMode)
    (h : piece.rest.rest.length < s.reader.rest.length) :
    (s.accept piece mode).unread + 2 ≤ s.unread := by
  have queued : piece.queued.toList.length ≤ 1 := by cases piece.queued <;> simp
  simp only [accept, unread, List.length_append]
  omega

/-- A piece takes some of the source, or the source is at its end. -/
theorem unread_step {s s' : Scanner σ} {token : Option Token} (h : s.step = (token, s')) :
    s'.last = s.last ∧ (s'.unread + 2 ≤ s.unread ∨ (s'.unread = s.unread ∧ token = some s.endToken)) := by
  unfold step at h
  split at h
  · next piece trailing =>
    obtain ⟨-, rfl⟩ := Prod.mk.inj h
    exact ⟨rfl, .inl (unread_accept _ (XmlMode.length_of_trailing? trailing))⟩
  · dsimp only at h
    split at h
    · obtain ⟨rfl, rfl⟩ := Prod.mk.inj h
      exact ⟨rfl, .inr ⟨rfl, rfl⟩⟩
    · next c r read =>
      obtain ⟨-, rfl⟩ := Prod.mk.inj h
      exact ⟨rfl, .inl (unread_accept _ (Piece.length_next read))⟩

theorem kind_endToken (s : Scanner σ) :
    s.endToken.kind = if s.last = some .eol then .eof else .eol := by
  unfold endToken
  dsimp only
  split <;> rfl

theorem unread_lex (s : Scanner σ) :
    s.lex.2.last = s.last ∧ (s.lex.2.unread + 2 ≤ s.unread
      ∨ (s.lex.2.unread = s.unread ∧ s.lex.1.kind = if s.last = some .eol then .eof else .eol)) := by
  fun_induction lex s with
  | case1 s token s' h =>
    obtain ⟨last, less | ⟨same, marks⟩⟩ := unread_step h
    · exact ⟨last, .inl less⟩
    · cases marks
      exact ⟨last, .inr ⟨same, s.kind_endToken⟩⟩
  | case2 s s' h ih =>
    obtain ⟨last, less | ⟨-, marks⟩⟩ := unread_step h
    · obtain ⟨last', ih⟩ := ih
      refine ⟨last'.trans last, .inl ?_⟩
      omega
    · cases marks

theorem unread_advance (s : Scanner σ) :
    s.advance.2.last = s.last ∧ (s.advance.2.unread + 2 ≤ s.unread
      ∨ (s.advance.2.unread = s.unread
        ∧ s.advance.1.kind = if s.last = some .eol then .eof else .eol)) := by
  unfold advance
  split
  · next token queue h =>
    refine ⟨rfl, .inl ?_⟩
    simp only [unread, h, List.length_cons]
    omega
  · exact s.unread_lex

variable [Steering σ]

/-- A token other than the end marker leaves less to do. -/
theorem work_produce {s : Scanner σ} (h : s.produce.1.isEof = false) : s.produce.2.work < s.work := by
  unfold produce at *
  split at h
  · simp [Token.endMarker, Token.isEof] at h
  · next running =>
    simp only [running] at *
    obtain ⟨-, bound⟩ := s.unread_advance
    have left : (s.advance.2.tell s.advance.1).unread = s.advance.2.unread := rfl
    have last : (s.advance.2.tell s.advance.1).last = some s.advance.1.kind := rfl
    simp only [work, left, last]
    rcases bound with less | ⟨same, kind⟩
    · split <;> omega
    · by_cases fresh : s.last = some .eol
      · simp [Token.isEof, kind, fresh] at h
      · simp [kind, fresh, same]

end BasicLexis.Scanner
