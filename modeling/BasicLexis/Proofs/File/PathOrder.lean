import BasicLexis.File.Path
import Mathlib.Data.List.Lex
import Mathlib.Data.Prod.Lex
import Mathlib.Data.String.Basic

set_option autoImplicit false

/-! # The order of paths

Paths are ordered by their components, one after the other. This is a linear order on lists of
components: of two paths that do not name the same file, one comes before the other, and what comes
before a path comes before all that follow it. `Path.rank` is the place of a path in a linear order
that is known to be one. -/

namespace BasicLexis

namespace PathComponent

/-- The place of a component in the order: names come last, by their texts. -/
def rank : PathComponent → Nat ×ₗ String
  | root => toLex (0, "")
  | current => toLex (1, "")
  | parent => toLex (2, "")
  | name text => toLex (3, text)

theorem rank_injective : Function.Injective rank := by
  intro a b same
  cases a <;> cases b <;> simp_all [rank]

theorem less_iff {a b : PathComponent} : a.less b = true ↔ a.rank < b.rank := by
  cases a <;> cases b <;> simp [less, rank, Prod.Lex.toLex_lt_toLex]

end PathComponent

namespace Path

/-- The place of a path in the order. -/
def rank (components : List PathComponent) : List (Nat ×ₗ String) :=
  components.map PathComponent.rank

theorem rank_injective : Function.Injective rank :=
  List.map_injective_iff.2 PathComponent.rank_injective

theorem lessComponents_iff {as bs : List PathComponent} :
    lessComponents as bs = true ↔ rank as < rank bs := by
  induction as generalizing bs with
  | nil => cases bs <;> simp [lessComponents, rank]
  | cons a as ih =>
    cases bs with
    | nil => simp [lessComponents, rank]
    | cons b bs =>
      have same : a.rank = b.rank ↔ a = b := PathComponent.rank_injective.eq_iff
      simp only [rank] at ih
      simp [lessComponents, rank, List.cons_lt_cons_iff, PathComponent.less_iff, ih, same]

theorem less_iff {a b : Path} : a.less b = true ↔ rank a.components < rank b.components :=
  lessComponents_iff

theorem same_iff {a b : Path} : a.same b = true ↔ a.components = b.components := by
  simp [same]

/-- Of two paths that do not name the same file, one comes before the other. -/
theorem less_of_not_less {a b : Path} (other : a.components ≠ b.components)
    (notBefore : ¬a.less b = true) : b.less a = true := by
  rw [less_iff] at notBefore ⊢
  refine lt_of_le_of_ne (not_lt.1 notBefore) fun same => other ?_
  exact (rank_injective same).symm

theorem less_trans {a b c : Path} (h : a.less b = true) (h' : b.less c = true) :
    a.less c = true := by
  rw [less_iff] at *
  exact lt_trans h h'

/-- Paths of which one comes before the other name different files. -/
theorem components_ne_of_less {a b : Path} (h : a.less b = true) : a.components ≠ b.components := by
  intro same
  rw [less_iff, same] at h
  exact absurd h (lt_irrefl _)

end Path

end BasicLexis
