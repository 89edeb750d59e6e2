import BasicLexis.Piece.Basic
import BasicLexis.Proofs.Source.Twin
import Mathlib.Data.Set.Basic

set_option autoImplicit false

/-! # What is compared of pieces

Of two pieces that are read at twins, the tokens are compared, the problems and the trivia. Where
line ends are spelled differently, a token is compared by its kind and its locations, since its text
may have line ends in it; where a line was continued, tokens are compared by all but their
locations. A problem is compared by its code. -/

namespace BasicLexis

/-- The value has a line feed in it. Line ends are left out of the values of strings, but not of
    attribute values. -/
def LiteralValue.hasLineFeed : LiteralValue → Bool
  | .string s => s.toList.contains '\n'
  | _ => false

/-- The locations that a value with a line feed in it takes up. -/
def Token.feedLocations (t : Token) : Set Location :=
  {l | t.value.hasLineFeed = true ∧ t.start ≤ l ∧ l < t.stop}

namespace Comparison

variable {K : Comparison}

/-- What is compared of a token. -/
def token (K : Comparison) (t : Token) : Token :=
  { t with
    start := K.place t.start
    stop := K.place t.stop
    text := if K.pairs then "" else t.text
    value := if K.pairs then .none else t.value }

/-- What is compared of a problem. -/
def problem (K : Comparison) (d : Diagnostic) : Location × Code := (K.place d.location, d.code)

def span (K : Comparison) (s : Span) : Span := ⟨K.place s.start, K.place s.stop⟩

/-- What is compared of trivia. -/
def trivia (K : Comparison) : Trivia → Trivia
  | .comment c => .comment { c with span := K.span c.span }
  | .directive d => .directive { d with span := K.span d.span }
  | .blankLine l => .blankLine (K.place l)

/-- The problems among the entries. -/
def problems (K : Comparison) (entries : List Entry) : List (Location × Code) :=
  (entries.filterMap Entry.diagnostic?).map K.problem

/-- The trivia among the entries. -/
def trivias (K : Comparison) (entries : List Entry) : List Trivia :=
  (entries.filterMap Entry.trivia?).map K.trivia

theorem kind_of_token {t t' : Token} (h : K.token t' = K.token t) : t'.kind = t.kind := by
  have kinds := congrArg Token.kind h
  exact kinds

theorem any_kind_of_map {t t' : Option Token} (h : t'.map K.token = t.map K.token)
    (p : TokenKind → Bool) : t'.any (fun t => p t.kind) = t.any (fun t => p t.kind) := by
  have kinds := congrArg (Option.any fun t => p t.kind) h
  rw [Option.any_map, Option.any_map] at kinds
  exact kinds

theorem token_eq {t t' : Token} (kind : t'.kind = t.kind)
    (start : K.place t'.start = K.place t.start) (stop : K.place t'.stop = K.place t.stop)
    (text : K.pairs = false → t'.text = t.text)
    (value : K.pairs = false → t'.value = t.value) (format : t'.format = t.format) :
    K.token t' = K.token t := by
  unfold token
  rw [kind, start, stop, format]
  cases pairs : K.pairs with
  | true => rfl
  | false => rw [text pairs, value pairs]

@[simp] theorem problems_nil : K.problems [] = [] := rfl

@[simp] theorem problems_append (a b : List Entry) :
    K.problems (a ++ b) = K.problems a ++ K.problems b := by
  simp [problems]

@[simp] theorem trivias_append (a b : List Entry) :
    K.trivias (a ++ b) = K.trivias a ++ K.trivias b := by
  simp [trivias]

@[simp] theorem problems_cons_problem (l : Location) (p : Problem) (entries : List Entry) :
    K.problems (Piece.problem l p :: entries) = (K.place l, p.code) :: K.problems entries := rfl

@[simp] theorem trivias_cons_problem (l : Location) (p : Problem) (entries : List Entry) :
    K.trivias (Piece.problem l p :: entries) = K.trivias entries := rfl

@[simp] theorem trivias_cons_trivia (t : Trivia) (entries : List Entry) :
    K.trivias (.trivia t :: entries) = K.trivia t :: K.trivias entries := rfl

@[simp] theorem problems_map_problem (ds : List Diagnostic) :
    K.problems (ds.map .problem) = ds.map K.problem := by
  simp [problems, Entry.diagnostic?, List.filterMap_map, Function.comp_def]

@[simp] theorem trivias_map_problem (ds : List Diagnostic) : K.trivias (ds.map .problem) = [] := by
  simp [trivias, Entry.trivia?]

/-- The second list has the problems of the first one. A line end that is not allowed in a string
    may be reported again right after itself at the given locations. -/
inductive Repeated (again : Set Location) :
    List (Location × Code) → List (Location × Code) → Prop where
  | nil : Repeated again [] []
  | same (d : Location × Code) {ds ds' : List (Location × Code)} (rest : Repeated again ds ds') :
      Repeated again (d :: ds) (d :: ds')
  | twice {l : Location} (allowed : l ∈ again) {ds ds' : List (Location × Code)}
      (rest : Repeated again ds ds') :
      Repeated again ((l, .newlineInString) :: ds)
        ((l, .newlineInString) :: (l.right 1, .newlineInString) :: ds')

namespace Repeated

variable {again : Set Location} {a a' b b' : List (Location × Code)}

theorem refl (again : Set Location) (ds : List (Location × Code)) : Repeated again ds ds := by
  induction ds with
  | nil => exact .nil
  | cons d ds ih => exact .same d ih

theorem append (h : Repeated again a a') (h' : Repeated again b b') :
    Repeated again (a ++ b) (a' ++ b') := by
  induction h with
  | nil => exact h'
  | same d _ ih => exact .same d ih
  | twice allowed _ ih => exact .twice allowed ih

theorem mono {again' : Set Location} (h : Repeated again a a') (le : again ⊆ again') :
    Repeated again' a a' := by
  induction h with
  | nil => exact .nil
  | same d _ ih => exact .same d ih
  | twice allowed _ ih => exact .twice (le allowed) ih

/-- If nothing may be reported again, nothing is. -/
theorem eq (h : Repeated ∅ a a') : a' = a := by
  induction h with
  | nil => rfl
  | same d _ ih => rw [ih]
  | twice allowed => cases allowed

end Repeated

/-- The entries note the same. Where line ends are spelled as pairs, a line end at one of the given
    locations may be reported again. -/
structure Notes (K : Comparison) (feeds : Set Location) (entries entries' : List Entry) : Prop where
  problems : Repeated {l | K.pairs = true ∧ l ∈ feeds} (K.problems entries) (K.problems entries')
  trivias : K.trivias entries' = K.trivias entries

namespace Notes

variable {feeds : Set Location} {entries entries' a a' b b' : List Entry}

theorem of_eq (problems : K.problems entries' = K.problems entries)
    (trivias : K.trivias entries' = K.trivias entries) : K.Notes feeds entries entries' :=
  ⟨by rw [problems]; exact .refl _ _, trivias⟩

theorem refl (entries : List Entry) : K.Notes feeds entries entries := .of_eq rfl rfl

theorem append (h : K.Notes feeds a a') (h' : K.Notes feeds b b') :
    K.Notes feeds (a ++ b) (a' ++ b') := by
  refine ⟨?_, ?_⟩
  · rw [problems_append, problems_append]
    exact h.problems.append h'.problems
  · rw [trivias_append, trivias_append, h.trivias, h'.trivias]

theorem mono {feeds' : Set Location} (h : K.Notes feeds a a') (le : feeds ⊆ feeds') :
    K.Notes feeds' a a' :=
  ⟨h.problems.mono fun _ allowed => ⟨allowed.1, le allowed.2⟩, h.trivias⟩

/-- Where line ends are spelled alike, no problem is reported again. -/
theorem problems_eq (h : K.Notes feeds a a') (alike : K.pairs = false) :
    K.problems a' = K.problems a := by
  have none_ : {l | K.pairs = true ∧ l ∈ feeds} ⊆ ∅ := by simp [alike]
  exact (h.problems.mono none_).eq

/-- What is noted without a line end that may be reported again. -/
theorem of_empty (h : K.Notes ∅ a a') : K.Notes feeds a a' := h.mono (Set.empty_subset feeds)

/-- The same is noted under the same condition. -/
theorem ite {c : Prop} [Decidable c] (h : K.Notes feeds a a') :
    K.Notes feeds (if c then a else []) (if c then a' else []) := by
  split
  · exact h
  · exact .refl _

theorem of_problem {l l' : Location} (place : K.place l' = K.place l) {p p' : Problem}
    (code : p'.code = p.code) : K.Notes feeds [Piece.problem l p] [Piece.problem l' p'] :=
  .of_eq (by simp [place, code]) rfl

end Notes

end Comparison

namespace Piece

open Reader

variable {K : Comparison} {start start' r r' : Reader}

/-- The two pieces are the same as far as they are compared, and lead to twins. -/
structure Matches (K : Comparison) (p p' : Piece) : Prop where
  rest : Twin K p.rest p'.rest
  token : p'.token.map K.token = p.token.map K.token
  queued : p'.queued.map K.token = p.queued.map K.token
  entries : K.Notes {l | ∃ t ∈ p.token, l ∈ t.feedLocations} p.entries p'.entries

theorem matches_symbol (kind : TokenKind) (first : Twin K start start') (h : Twin K r r') :
    Matches K (symbol kind start r) (symbol kind start' r') :=
  ⟨h, by simp [symbol, Token.symbol, Comparison.token, first.place, h.place], rfl, .refl _⟩

/-- Two pieces that are read in one of two ways, chosen alike. -/
theorem matches_ite {c : Prop} [Decidable c] {a a' b b' : Piece}
    (yes : c → Compared K a.rest → Matches K a a') (no : ¬c → Compared K b.rest → Matches K b b')
    (within : Compared K (if c then a else b).rest) :
    Matches K (if c then a else b) (if c then a' else b') :=
  rel_ite Piece.rest yes no within

theorem matches_silent (h : Twin K r r') : Matches K { rest := r } { rest := r' } :=
  ⟨h, rfl, rfl, .refl _⟩

/-- Two words with the same text. Where line ends are spelled as pairs, the texts may differ. -/
theorem matches_word (kind : TokenKind) (first : Twin K start start') (h : Twin K r r')
    {text text' : List Char} (same : K.pairs = false → text' = text) {entries entries' : List Entry}
    (notes : K.Notes ∅ entries entries') :
    Matches K (word kind start r text entries) (word kind start' r' text' entries') := by
  refine ⟨h, ?_, rfl, notes.of_empty⟩
  simp only [word, Option.map_some, Option.some.injEq]
  exact Comparison.token_eq rfl first.place h.place (fun pairs => by rw [same pairs])
    (fun _ => rfl) rfl

/-- Two literals, of which each goes from its start to a twin. -/
theorem matches_literal (kind : TokenKind) (first : Twin K start start') (h : Twin K r r')
    (reaches : start.Reaches r) (reaches' : start'.Reaches r') {value value' : LiteralValue}
    (same : K.pairs = false → value' = value) (format : LiteralFormat)
    {entries entries' : List Entry}
    (notes : K.Notes (Numeral.literal start r kind value format).feedLocations entries entries') :
    Matches K (literal kind start r value format entries)
      (literal kind start' r' value' format entries') := by
  refine ⟨h, ?_, rfl, notes.mono fun l inside => ⟨_, rfl, inside⟩⟩
  simp only [literal, Option.map_some, Option.some.injEq]
  exact Comparison.token_eq rfl first.place h.place
    (fun pairs => congrArg String.ofList (first.textTo h reaches reaches' pairs)) same rfl

/-- The ends of two lines. -/
theorem matches_endOfLine (freshLine : Bool) {l l' : Location} (place : K.place l' = K.place l)
    (h : Twin K r r') {entries entries' : List Entry} (notes : K.Notes ∅ entries entries') :
    Matches K (endOfLine freshLine l r entries) (endOfLine freshLine l' r' entries') := by
  cases freshLine with
  | true => exact ⟨h, rfl, rfl, notes.of_empty⟩
  | false =>
    refine ⟨h, ?_, rfl, notes.of_empty⟩
    simp [endOfLine, Token.lineEnd, Comparison.token, place, h.place]

end Piece

end BasicLexis
