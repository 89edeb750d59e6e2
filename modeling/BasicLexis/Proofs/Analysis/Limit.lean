import BasicLexis.Analysis
import BasicLexis.Proofs.Analysis.Counts
import BasicLexis.Proofs.Scanner.Journal

set_option autoImplicit false

/-! # The limit on the number of tokens

An analysis takes tokens up to a limit. It is compared with the run of a stream to its end marker:
within the limit the two are the same, and beyond it the analysis takes the first tokens of the run
and closes them. Nothing else reports that there are too many tokens.

The tokens and their counts are brought up to date by different steps, where a token is taken and
where a stream is closed. That the counts are those of the tokens is an invariant of all of them
(`countsAll_collect`, `countsAll_close`), so the metrics count what is returned, not what was read. -/

namespace BasicLexis

/-- Only the limit on the number of tokens is reported under its code. -/
theorem Problem.IsOfText.code_ne {p : Problem} (h : p.IsOfText) : p.code ≠ .tooManyTokens := by
  cases p with
  | tooManyTokens count => exact absurd rfl (h count)
  | _ =>
    simp only [Problem.code]
    decide

namespace TokenStream

variable {σ : Type} [Steering σ]

/-- A run takes some tokens more, of which only the last one is an end marker. -/
theorem exists_toList_drainAfter {s : TokenStream σ} (ahead : s.ahead = none) (taken : Array Token) :
    ∃ front last, (s.drainAfter taken).1.toList = taken.toList ++ front ++ [last]
      ∧ last.isEof = true ∧ ∀ t ∈ front, t.isEof = false := by
  induction taken, s using drainAfter.induct with
  | case1 taken s token s' next eof =>
    rw [next_of_ahead ahead] at next
    cases next
    rw [drainAfter_of_ahead ahead, if_pos eof]
    exact ⟨[], _, by simp, eof, by simp⟩
  | case2 taken s token s' next inner ih =>
    rw [next_of_ahead ahead] at next
    cases next
    rw [drainAfter_of_ahead ahead, if_neg inner]
    obtain ⟨front, last, tokens, eof, noEof⟩ := ih rfl
    refine ⟨s.scanner.produce.1 :: front, last, ?_, eof,
      List.forall_mem_cons.2 ⟨Bool.eq_false_iff.2 inner, noEof⟩⟩
    rw [tokens]
    simp

end TokenStream

namespace Analysis

open TokenStream

variable {σ : Type} [Steering σ] (byKind : Bool)

/-! ## Taking tokens -/

theorem collect_succ (limit : Nat) (s : Scanner σ) (taken : Array Token) (metrics : Metrics) :
    collect byKind (limit + 1) s taken metrics
      = if s.produce.1.isEof then
          (taken.push s.produce.1, metrics.count byKind s.produce.1, s.produce.2)
        else collect byKind limit s.produce.2 (taken.push s.produce.1)
          (metrics.count byKind s.produce.1) := rfl

/-- However many tokens are taken, the scanner has produced some of them. -/
theorem exists_after_collect (limit : Nat) (s : Scanner σ) (taken : Array Token)
    (metrics : Metrics) : ∃ n, (collect byKind limit s taken metrics).2.2 = s.after n := by
  induction limit generalizing s taken metrics with
  | zero => exact ⟨0, rfl⟩
  | succ limit ih =>
    rw [collect_succ]
    split
    · exact ⟨1, rfl⟩
    · obtain ⟨n, same⟩ := ih s.produce.2 (taken.push s.produce.1) (metrics.count byKind s.produce.1)
      exact ⟨n + 1, same.trans (s.produce_after n)⟩

/-- Before the first token there is nothing to count. -/
theorem countsAll_empty : Metrics.CountsAll byKind {} (#[] : Array Token).toList := by
  refine ⟨⟨rfl, rfl, rfl, rfl, rfl, rfl, rfl, rfl, rfl⟩, ?_⟩
  cases byKind with
  | false => rfl
  | true => exact ⟨.nil, nofun, fun _ => rfl, rfl⟩

/-- The counts are those of the tokens, however many are taken. -/
theorem countsAll_collect (limit : Nat) (s : Scanner σ) {taken : Array Token} {metrics : Metrics}
    (counts : metrics.CountsAll byKind taken.toList) :
    (collect byKind limit s taken metrics).2.1.CountsAll byKind
      (collect byKind limit s taken metrics).1.toList := by
  induction limit generalizing s taken metrics with
  | zero => exact counts
  | succ limit ih =>
    have next : (metrics.count byKind s.produce.1).CountsAll byKind
        (taken.push s.produce.1).toList := by
      rw [Array.toList_push]
      exact counts.snoc s.produce.1
    rw [collect_succ]
    split
    · exact next
    · exact ih s.produce.2 next

/-- What is taken is the run to the end marker, or the front of it that is as long as the limit
    says. -/
theorem collect_eq (limit : Nat) {s : TokenStream σ} (ahead : s.ahead = none) (taken : Array Token)
    (metrics : Metrics) :
    ((s.drainAfter taken).1.size ≤ taken.size + limit
        ∧ (collect byKind limit s.scanner taken metrics).1 = (s.drainAfter taken).1)
      ∨ (taken.size + limit < (s.drainAfter taken).1.size
        ∧ (collect byKind limit s.scanner taken metrics).1.toList
          = (s.drainAfter taken).1.toList.take (taken.size + limit)) := by
  induction limit generalizing s taken metrics with
  | zero =>
    obtain ⟨front, last, tokens, -⟩ := exists_toList_drainAfter ahead taken
    have longer : taken.size < (s.drainAfter taken).1.size := by
      rw [← Array.length_toList, ← Array.length_toList, tokens, List.append_assoc,
        List.length_append, List.length_append, List.length_singleton]
      omega
    refine .inr ⟨longer, ?_⟩
    rw [tokens, List.append_assoc, Nat.add_zero, ← Array.length_toList, List.take_left]
    rfl
  | succ limit ih =>
    rw [collect_succ, drainAfter_of_ahead ahead]
    split
    · refine .inl ⟨?_, rfl⟩
      rw [Array.size_push]
      omega
    · have rest := ih (s := ⟨s.scanner.produce.2, none, some s.scanner.produce.1⟩) rfl
        (taken.push s.scanner.produce.1) (metrics.count byKind s.scanner.produce.1)
      rwa [Array.size_push, Nat.add_assoc, Nat.add_comm 1] at rest

/-- What closes a stream that was cut after some tokens. -/
def closing (front : List Token) (location : Location) : List Token :=
  (if front.getLast?.any (·.kind == .eol) then [] else [.lineEnd location location])
    ++ [.endMarker location]

theorem close_eq_foldl (tokens : Array Token) (metrics : Metrics) (location : Location) :
    close byKind tokens metrics location
      = (closing tokens.toList location).foldl
        (fun (tokens, metrics) token => (tokens.push token, metrics.count byKind token))
        (tokens, metrics) := by
  unfold close closing
  rw [Array.getLast?_toList]

/-- Tokens that are added one by one are counted if those before them are. -/
theorem countsAll_foldl (later : List Token) {tokens : Array Token} {metrics : Metrics}
    (counts : metrics.CountsAll byKind tokens.toList) :
    let added := later.foldl
      (fun (tokens, metrics) token => (tokens.push token, metrics.count byKind token))
      (tokens, metrics)
    added.1.toList = tokens.toList ++ later ∧ added.2.CountsAll byKind added.1.toList := by
  induction later generalizing tokens metrics with
  | nil => exact ⟨(List.append_nil _).symm, counts⟩
  | cons token later ih =>
    have next : (metrics.count byKind token).CountsAll byKind (tokens.push token).toList := by
      rw [Array.toList_push]
      exact counts.snoc token
    obtain ⟨listed, counted⟩ := ih next
    refine ⟨?_, counted⟩
    rw [List.foldl_cons, listed, Array.toList_push, List.append_assoc, List.singleton_append]

/-- What closes a stream comes after its tokens and is counted like them. -/
theorem countsAll_close {tokens : Array Token} {metrics : Metrics} (location : Location)
    (counts : metrics.CountsAll byKind tokens.toList) :
    (close byKind tokens metrics location).1.toList
        = tokens.toList ++ closing tokens.toList location
      ∧ (close byKind tokens metrics location).2.CountsAll byKind
        (close byKind tokens metrics location).1.toList := by
  rw [close_eq_foldl]
  exact countsAll_foldl byKind (closing tokens.toList location) counts

/-- The note that a stream was cut. -/
def cutEvent (location : Location) : LogEvent :=
  (LogEvent.warning "Token limit reached, remaining input skipped").withContext "location"
    location.render

/-- The entries about a stream that was cut after so many tokens. -/
def cutEntries (location : Location) (limit : Nat) : List Entry :=
  [.problem ⟨location, .tooManyTokens limit⟩, .event (cutEvent location)]

/-- What an analysis takes from a scanner. Either it is the run to the end marker, or it is the front
    of the run, closed at the end of its last token, and this is entered in the journal. -/
inductive Taken (limit : Nat) (s : Scanner σ) (tokens : List Token) :
    List Token → Scanner σ → Prop where
  | whole {n : Nat} (fits : tokens.length ≤ limit) : Taken limit s tokens tokens (s.after n)
  | cut {n : Nat} {front : List Token} {location : Location} (exceeds : limit < tokens.length)
      (front_ : tokens.take limit = front)
      (ends : location = (front.getLast?.map Token.stop).getD .start) :
    Taken limit s tokens (front ++ closing front location)
      { s.after n with
        journal := (s.after n).journal.appendList (cutEntries location limit) }

/-- The counts are those of the tokens, whether the stream is cut or not. -/
theorem countsAll_take (limit : Nat) (s : Scanner σ) :
    (take byKind limit s).2.1.CountsAll byKind (take byKind limit s).1.toList := by
  have collected := countsAll_collect byKind limit s (countsAll_empty byKind)
  unfold take
  dsimp only
  split
  · exact collected
  · exact (countsAll_close byKind _ collected).2

theorem taken_take (limit : Nat) (s : Scanner σ) :
    Taken limit s (drainAfter #[] ⟨s, none, none⟩).1.toList (take byKind limit s).1.toList
      (take byKind limit s).2.2 := by
  obtain ⟨n, scanner⟩ := exists_after_collect byKind limit s #[] {}
  have collected := countsAll_collect byKind limit s (countsAll_empty byKind)
  have ahead : (⟨s, none, none⟩ : TokenStream σ).ahead = none := rfl
  obtain ⟨front, last, run, eof, noEof⟩ := exists_toList_drainAfter ahead #[]
  rw [List.nil_append] at run
  unfold take
  rcases collect_eq byKind limit ahead #[] {} with ⟨fits, same⟩ | ⟨exceeds, same⟩
  · have ended : (collect byKind limit s #[] {}).1.back?.any Token.isEof = true := by
      rw [same, ← Array.getLast?_toList, run, List.getLast?_concat]
      exact eof
    dsimp only
    rw [if_pos ended, same, scanner]
    exact .whole (by simpa using fits)
  · rw [Array.size_empty, Nat.zero_add] at exceeds same
    have shorter : limit ≤ front.length := by
      rw [← Array.length_toList, run, List.length_append, List.length_singleton] at exceeds
      omega
    have goesOn : ¬(collect byKind limit s #[] {}).1.back?.any Token.isEof = true := by
      rw [← Array.getLast?_toList, same, run, List.take_append_of_le_length shorter]
      cases last? : (front.take limit).getLast? with
      | none => simp
      | some t => simp [noEof t (List.mem_of_mem_take (List.mem_of_getLast? last?))]
    have size : (collect byKind limit s #[] {}).1.size = limit := by
      rw [← Array.length_toList, same, List.length_take, Array.length_toList]
      omega
    dsimp only
    rw [if_neg goesOn, (countsAll_close byKind _ collected).1, same, scanner, size]
    refine .cut (by simpa using exceeds) rfl ?_
    rw [← same, Array.getLast?_toList]

/-- A stream that is cut within a line is closed with a line end. -/
example : ((take true 1 (Scanner.start (⟨{}⟩ : FixedHints) [] ['(', ')'])).1.map Token.kind)
    = #[.openParen, .eol, .eof] := by decide +kernel

/-! ## The result -/

/-- What an analysis returns is what it has taken from the scanner of its source. Its metrics are the
    counts of these tokens with those of the other lists. -/
theorem exists_taken (preferences : LexerPreferences) (source : List Char) :
    ∃ (tokens : Array Token) (s : Scanner Classifier) (counted metrics : Metrics),
      Taken Limits.maxTokenCount (Scanner.start ({} : Classifier) preferences.tags source)
        (TokenStream.start ({} : Classifier) preferences.tags source).drain.1.toList tokens.toList s
      ∧ counted.CountsAll preferences.countKinds tokens.toList
      ∧ metrics = { counted with
        comments := (s.journal.trivia.filter Trivia.isComment).size
        directives := (s.journal.trivia.filter Trivia.isDirective).size
        diagnostics := s.journal.diagnostics.size
        misplaced := s.steering.errors.size }
      ∧ ofSource preferences source =
        { tokens, metrics
          diagnostics := s.journal.diagnostics
          trivia := s.journal.trivia
          tagComments := s.journal.tagComments
          misplaced := s.steering.errors
          events := #[startEvent source] ++ s.journal.events preferences.reportMisplaced
            ++ (resultEvents tokens.size metrics).toArray } := by
  have takes := taken_take preferences.countKinds Limits.maxTokenCount
    (Scanner.start ({} : Classifier) preferences.tags source)
  have counts := countsAll_take preferences.countKinds Limits.maxTokenCount
    (Scanner.start ({} : Classifier) preferences.tags source)
  unfold ofSource
  generalize take preferences.countKinds Limits.maxTokenCount
    (Scanner.start ({} : Classifier) preferences.tags source) = taken at takes counts ⊢
  obtain ⟨tokens, counted, s⟩ := taken
  exact ⟨tokens, s, counted, _, takes, counts, rfl, rfl⟩

/-- The tokens and the reports of an analysis, given all tokens of the source. Up to the limit these
    are the tokens, and the limit is not reported. A longer stream is cut at the limit and closed
    with a line end, unless it ends with one, and the end marker, and the last problem, and no other,
    is that there are too many tokens. -/
inductive Returns (all : List Token) (a : Analysis) : Prop where
  | whole (fits : all.length ≤ Limits.maxTokenCount) (tokens : a.tokens.toList = all)
      (unreported : ∀ d ∈ a.diagnostics.toList, d.code ≠ .tooManyTokens)
  | cut {front : List Token} {last : Token} {earlier : List Diagnostic}
      (exceeds : Limits.maxTokenCount < all.length)
      (split : all.take Limits.maxTokenCount = front ++ [last])
      (tokens : a.tokens.toList = all.take Limits.maxTokenCount
        ++ (if last.kind = .eol then [] else [.lineEnd last.stop last.stop])
        ++ [.endMarker last.stop])
      (reported : a.diagnostics.toList
        = earlier ++ [⟨last.stop, .tooManyTokens Limits.maxTokenCount⟩])
      (once : ∀ d ∈ earlier, d.code ≠ .tooManyTokens)

/-- The metrics of an analysis count what it returns. -/
structure Measured (a : Analysis) (byKind : Bool) : Prop where
  tokens : a.metrics.CountsAll byKind a.tokens.toList
  comments : a.metrics.comments = a.trivia.toList.countP Trivia.isComment
  directives : a.metrics.directives = a.trivia.toList.countP Trivia.isDirective
  diagnostics : a.metrics.diagnostics = a.diagnostics.size
  misplaced : a.metrics.misplaced = a.misplaced.size

theorem measured_ofSource (preferences : LexerPreferences) (source : List Char) :
    (ofSource preferences source).Measured preferences.countKinds := by
  obtain ⟨tokens, s, counted, metrics, -, counts, rfl, same⟩ := exists_taken preferences source
  rw [same]
  refine ⟨⟨{ counts.groups with }, counts.kinds⟩, ?_, ?_, rfl, rfl⟩
  · rw [List.countP_eq_length_filter, ← Array.toList_filter]
    rfl
  · rw [List.countP_eq_length_filter, ← Array.toList_filter]
    rfl

/-- Problems that were found while reading are about the text. -/
theorem code_ne_of_after (steering : Classifier) (tags : List String) (source : List Char) (n : Nat) :
    ∀ d ∈ ((Scanner.start steering tags source).after n).journal.diagnostics.toList,
      d.code ≠ .tooManyTokens := by
  intro d found
  have entry := Journal.mem_diagnostics.1 (Array.mem_toList_iff.1 found)
  have accounts := Scanner.accounts_after steering tags source n
  cases (accounts.entries _ (Array.mem_toList_iff.2 entry)).arises rfl with
  | problem ofText => exact ofText.code_ne

/-- **An analysis is consistent, also where it is cut.** Let all tokens of a source be those of a run
    to the end marker. An analysis returns them, or cuts and closes them at the limit and reports
    that; in both cases the metrics count what is returned. -/
theorem ofSource_consistent (preferences : LexerPreferences) (source : List Char) :
    let all := (TokenStream.start ({} : Classifier) preferences.tags source).drain.1.toList
    let a := ofSource preferences source
    Returns all a ∧ a.Measured preferences.countKinds := by
  intro all a
  refine ⟨?_, measured_ofSource preferences source⟩
  obtain ⟨tokens, s, counted, metrics, takes, -, -, same⟩ := exists_taken preferences source
  have returned : a.tokens.toList = tokens.toList ∧ a.diagnostics = s.journal.diagnostics := by
    have same : a = _ := same
    rw [same]
    exact ⟨rfl, rfl⟩
  generalize tokens.toList = list at takes returned
  cases takes with
  | @whole n fits =>
    refine .whole fits returned.1 ?_
    rw [returned.2]
    exact code_ne_of_after {} preferences.tags source n
  | @cut n front location exceeds front_ ends =>
    have nonempty : front ≠ [] := by
      intro empty
      rw [empty] at front_
      have short := congrArg List.length front_
      rw [List.length_take, List.length_nil, Nat.min_eq_left (Nat.le_of_lt exceeds)] at short
      cases short
    obtain ⟨before, last, rfl⟩ : ∃ before last, front = before ++ [last] :=
      ⟨_, _, (List.dropLast_append_getLast nonempty).symm⟩
    obtain rfl : location = last.stop := by rw [ends, List.getLast?_concat]; rfl
    refine .cut exceeds front_ ?_ ?_ (code_ne_of_after {} preferences.tags source n)
    · rw [returned.1, front_, closing, List.getLast?_concat, List.append_assoc]
      by_cases eol : last.kind = .eol
      · simp [eol]
      · simp [eol]
    · rw [returned.2]
      simp [Journal.diagnostics, cutEntries, Entry.diagnostic?]

end Analysis

end BasicLexis
