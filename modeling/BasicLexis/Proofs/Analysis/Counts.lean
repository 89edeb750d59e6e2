import BasicLexis.Metrics
import Mathlib.Algebra.Ring.Nat
import Mathlib.Data.List.Nodup

set_option autoImplicit false

/-! # What the metrics of a token stream count

The metrics of a stream are gathered one token at a time, the counts by kind in a list that is kept in
the order of the names. `Metrics.Counts` and `Metrics.CountsKinds` say what they are in terms of the
whole stream. Kinds are counted under their names, so the counts are those of the kinds only because
no two kinds have the same name. -/

namespace BasicLexis

/-! ## The names of kinds -/

namespace TokenKind

/-- All kinds: those that are not keywords, then the keywords. -/
def all : List TokenKind := named.map (·.2) ++ Keyword.all.map .keyword

theorem mem_keywords (word : Keyword) : word ∈ Keyword.all :=
  List.mem_of_getElem? (i := word.ctorIdx) (by cases word <;> rfl)

theorem mem_all (kind : TokenKind) : kind ∈ all := by
  cases kind with
  | keyword word => exact List.mem_append_right _ (List.mem_map_of_mem (mem_keywords word))
  | _ => exact List.mem_append_left _ (by decide +kernel)

/-- A number for a name, by which the names of kinds can be told apart at once: its bytes, reduced
    by a modulus for which no two of them fall together. -/
def number (name : String) : Nat :=
  name.toByteArray.data.toList.foldl (fun n byte => 256 * n + byte.toNat) 0 % 3283

/-- No number stands twice in the list or belongs to the set, which is given by its bits. -/
def distinct : Nat → List Nat → Bool
  | _, [] => true
  | seen, n :: ns => !seen.testBit n && distinct (seen ||| 1 <<< n) ns

theorem nodup_of_distinct {seen : Nat} {ns : List Nat} (h : distinct seen ns = true) :
    ns.Nodup ∧ ∀ n ∈ ns, seen.testBit n = false := by
  induction ns generalizing seen with
  | nil => exact ⟨.nil, by simp⟩
  | cons n ns ih =>
    rw [distinct, Bool.and_eq_true, Bool.not_eq_true'] at h
    obtain ⟨nodup, unseen⟩ := ih h.2
    simp only [Nat.testBit_or, Bool.or_eq_false_iff, Nat.one_shiftLeft, Nat.testBit_two_pow,
      decide_eq_false_iff_not] at unseen
    exact ⟨List.nodup_cons.2 ⟨fun again => (unseen n again).2 rfl, nodup⟩,
      List.forall_mem_cons.2 ⟨h.1, fun m hm => (unseen m hm).1⟩⟩

end TokenKind

namespace Metrics

/-- No two kinds are counted under the same name. -/
theorem kindName_injective {a b : TokenKind} (h : kindName a = kindName b) : a = b := by
  have distinct : TokenKind.distinct 0 (TokenKind.all.map fun k => TokenKind.number (kindName k))
      = true := by
    decide +kernel
  exact List.inj_on_of_nodup_map (TokenKind.nodup_of_distinct distinct).1 a.mem_all b.mem_all
    (congrArg TokenKind.number h)

/-! ## Counts under names -/

/-- The names stand in increasing order. -/
def Ordered (kinds : List (String × Nat)) : Prop := kinds.Pairwise (·.1 < ·.1)

/-- The count under a name. -/
def countOf (kinds : List (String × Nat)) (name : String) : Nat := (kinds.lookup name).getD 0

theorem name_of_mem_increment {name : String} {kinds : List (String × Nat)} {entry : String × Nat}
    (h : entry ∈ increment name kinds) : entry.1 = name ∨ ∃ old ∈ kinds, entry.1 = old.1 := by
  induction kinds with
  | nil => exact .inl (by rw [List.mem_singleton.1 h])
  | cons first rest ih =>
    rw [increment] at h
    split at h
    · next same =>
      rcases List.mem_cons.1 h with rfl | old
      · exact .inl same.symm
      · exact .inr ⟨entry, .tail _ old, rfl⟩
    · split at h
      · rcases List.mem_cons.1 h with rfl | old
        · exact .inl rfl
        · exact .inr ⟨entry, old, rfl⟩
      · rcases List.mem_cons.1 h with rfl | later
        · exact .inr ⟨_, .head _, rfl⟩
        · rcases ih later with new | ⟨old, mem, same⟩
          · exact .inl new
          · exact .inr ⟨old, .tail _ mem, same⟩

theorem Ordered.increment {kinds : List (String × Nat)} (h : Ordered kinds) (name : String) :
    Ordered (increment name kinds) := by
  induction kinds with
  | nil => exact List.pairwise_singleton _ _
  | cons first rest ih =>
    obtain ⟨after, ordered⟩ := List.pairwise_cons.1 h
    rw [Metrics.increment]
    split
    · exact List.pairwise_cons.2 ⟨after, ordered⟩
    · next other =>
      split
      · next before =>
        refine List.pairwise_cons.2 ⟨List.forall_mem_cons.2 ⟨before, fun entry mem => ?_⟩, h⟩
        exact String.lt_trans before (after entry mem)
      · next noEarlier =>
        refine List.pairwise_cons.2 ⟨fun entry mem => ?_, ih ordered⟩
        rcases name_of_mem_increment mem with same | ⟨old, mem, same⟩
        · rw [same]
          exact String.not_le.1 fun le => other (String.le_antisymm le (String.not_lt.1 noEarlier))
        · rw [same]
          exact after old mem

theorem countOf_cons (name : String) (entry : String × Nat) (kinds : List (String × Nat)) :
    countOf (entry :: kinds) name = if name = entry.1 then entry.2 else countOf kinds name := by
  unfold countOf
  rw [List.lookup_cons]
  by_cases same : name = entry.1
  · simp [same]
  · simp [same, beq_eq_false_iff_ne.2 same]

theorem countOf_of_lt {name : String} {kinds : List (String × Nat)}
    (after : ∀ entry ∈ kinds, name < entry.1) : countOf kinds name = 0 := by
  induction kinds with
  | nil => rfl
  | cons entry rest ih =>
    have other : name ≠ entry.1 := fun same => String.lt_irrefl _ (same ▸ after entry (.head _))
    rw [countOf_cons, if_neg other]
    exact ih fun later mem => after later (.tail _ mem)

/-- The list counts what it is told: one more under a name. -/
theorem countOf_increment {kinds : List (String × Nat)} (h : Ordered kinds) (name key : String) :
    countOf (increment name kinds) key = countOf kinds key + if key = name then 1 else 0 := by
  induction kinds with
  | nil =>
    rw [increment, countOf_cons]
    exact (Nat.zero_add _).symm
  | cons entry rest ih =>
    obtain ⟨after, ordered⟩ := List.pairwise_cons.1 h
    rw [increment]
    split
    · next same =>
      rw [countOf_cons, countOf_cons, same]
      by_cases here : key = entry.1
      · rw [if_pos here, if_pos here, if_pos here]
      · rw [if_neg here, if_neg here, if_neg here]
        rfl
    · next other =>
      split
      · next before =>
        -- the name is not in the list yet, since all names in it come later
        rw [countOf_cons]
        by_cases here : key = name
        · have later : ∀ old ∈ entry :: rest, name < old.1 :=
            List.forall_mem_cons.2 ⟨before, fun old mem => String.lt_trans before (after old mem)⟩
          rw [if_pos here, if_pos here, here, countOf_of_lt later]
        · rw [if_neg here, if_neg here]
          rfl
      · rw [countOf_cons, countOf_cons, ih ordered]
        by_cases here : key = entry.1
        · have apart : key ≠ name := fun same => other (same.symm.trans here)
          rw [if_pos here, if_pos here, if_neg apart]
          rfl
        · rw [if_neg here, if_neg here]

theorem sum_increment (name : String) (kinds : List (String × Nat)) :
    ((increment name kinds).map (·.2)).sum = (kinds.map (·.2)).sum + 1 := by
  induction kinds with
  | nil => rfl
  | cons first rest ih =>
    rw [increment]
    split
    · simp only [List.map_cons, List.sum_cons]
      omega
    · split
      · simp only [List.map_cons, List.sum_cons]
        omega
      · simp only [List.map_cons, List.sum_cons, ih]
        omega

/-! ## Counts of a stream -/

/-- The length of the longest text that a token of the given kind has. -/
def longest (kind : TokenKind) (tokens : List Token) : Nat :=
  ((tokens.filter (·.kind == kind)).map (·.text.length)).foldl max 0

/-- The groups that kinds are counted in, and the greatest lengths. Words that are operators count as
    keywords. -/
structure Counts (m : Metrics) (tokens : List Token) : Prop where
  total : m.total = tokens.length
  keywords : m.keywords = tokens.countP (·.kind.keyword?.isSome)
  identifiers : m.identifiers = tokens.countP (·.kind == .identifier)
  literals : m.literals = tokens.countP (·.kind.isLiteral)
  operators : m.operators = tokens.countP fun t =>
    t.kind.keyword?.isNone && (t.kind.isBinaryOperator || t.kind.isAssignment)
  xml : m.xml = tokens.countP (·.kind.isXml)
  lines : m.lines = tokens.countP (·.kind == .eol)
  longestIdentifier : m.longestIdentifier = longest .identifier tokens
  longestString : m.longestString = longest .literalString tokens

/-- Every kind is counted under its name, and nothing else is in the list. -/
structure CountsKinds (kinds : List (String × Nat)) (tokens : List Token) : Prop where
  ordered : Ordered kinds
  named : ∀ entry ∈ kinds, ∃ t ∈ tokens, entry.1 = kindName t.kind
  count : ∀ kind, countOf kinds (kindName kind) = tokens.countP (·.kind == kind)
  sum : (kinds.map (·.2)).sum = tokens.length

/-- The metrics count a stream: in groups, and by kind if that is wanted. -/
structure CountsAll (byKind : Bool) (m : Metrics) (tokens : List Token) : Prop where
  groups : Counts m tokens
  kinds : if byKind then CountsKinds m.kinds tokens else m.kinds = []

/-- One more token adds to at most one group. -/
theorem countGroup_eq (m : Metrics) (t : Token) :
    m.countGroup t = { m with
      keywords := m.keywords + if t.kind.keyword?.isSome then 1 else 0
      identifiers := m.identifiers + if t.kind == .identifier then 1 else 0
      literals := m.literals + if t.kind.isLiteral then 1 else 0
      operators := m.operators
        + if t.kind.keyword?.isNone && (t.kind.isBinaryOperator || t.kind.isAssignment) then 1 else 0
      xml := m.xml + if t.kind.isXml then 1 else 0
      lines := m.lines + if t.kind == .eol then 1 else 0
      longestIdentifier := if t.kind == .identifier then max m.longestIdentifier t.text.length
        else m.longestIdentifier
      longestString := if t.kind == .literalString then max m.longestString t.text.length
        else m.longestString } := by
  unfold countGroup
  cases t.kind <;> rfl

theorem countP_snoc (p : Token → Bool) (tokens : List Token) (t : Token) :
    (tokens ++ [t]).countP p = tokens.countP p + if p t then 1 else 0 := by
  rw [List.countP_append, List.countP_singleton]

theorem longest_snoc (kind : TokenKind) (tokens : List Token) (t : Token) :
    longest kind (tokens ++ [t])
      = if t.kind == kind then max (longest kind tokens) t.text.length else longest kind tokens := by
  unfold longest
  rw [List.filter_append, List.map_append, List.foldl_append]
  by_cases here : (t.kind == kind) = true
  · simp [here]
  · simp [here]

variable {m : Metrics} {tokens : List Token}

theorem Counts.snoc (h : Counts m tokens) (byKind : Bool) (t : Token) :
    Counts (m.count byKind t) (tokens ++ [t]) := by
  have counted : Counts { m.countGroup t with total := m.total + 1 } (tokens ++ [t]) := by
    rw [countGroup_eq]
    constructor
    · rw [h.total, List.length_append, List.length_singleton]
    · rw [countP_snoc, h.keywords]
    · rw [countP_snoc, h.identifiers]
    · rw [countP_snoc, h.literals]
    · rw [countP_snoc, h.operators]
    · rw [countP_snoc, h.xml]
    · rw [countP_snoc, h.lines]
    · rw [longest_snoc, h.longestIdentifier]
    · rw [longest_snoc, h.longestString]
  unfold count
  cases byKind with
  | false => exact counted
  | true => exact { counted with }

theorem CountsKinds.snoc {kinds : List (String × Nat)} (h : CountsKinds kinds tokens) (t : Token) :
    CountsKinds (increment (kindName t.kind) kinds) (tokens ++ [t]) := by
  refine ⟨h.ordered.increment _, fun entry mem => ?_, fun kind => ?_, ?_⟩
  · rcases name_of_mem_increment mem with new | ⟨old, mem, same⟩
    · exact ⟨t, by simp, new⟩
    · obtain ⟨u, hu, name⟩ := h.named old mem
      exact ⟨u, List.mem_append_left _ hu, same.trans name⟩
  · rw [countOf_increment h.ordered, countP_snoc, h.count]
    by_cases here : t.kind = kind
    · simp [here]
    · have apart : kindName kind ≠ kindName t.kind := fun same => here (kindName_injective same).symm
      simp [here, apart]
  · rw [sum_increment, h.sum, List.length_append, List.length_singleton]

theorem CountsAll.snoc {byKind : Bool} (h : CountsAll byKind m tokens) (t : Token) :
    CountsAll byKind (m.count byKind t) (tokens ++ [t]) := by
  refine ⟨h.groups.snoc byKind t, ?_⟩
  have kinds := h.kinds
  have stays : (m.countGroup t).kinds = m.kinds := by rw [countGroup_eq]
  cases byKind with
  | false => exact stays.trans kinds
  | true =>
    show CountsKinds (increment (kindName t.kind) (m.countGroup t).kinds) _
    rw [stays]
    exact CountsKinds.snoc kinds t

end Metrics

end BasicLexis
