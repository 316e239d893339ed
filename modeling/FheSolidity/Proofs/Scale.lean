import FheSolidity.Expansion.Tuple
import Mathlib.Order.MinMax

/-!
# The promotion scale as an order

The scale is a linear order on scalars, and the higher of two scalars is the greater one in it.
`IsHighest` says without any computation which scalar a tuple is promoted to; `promoted?` finds
exactly that one.
-/

namespace FheSolidity

namespace Scalar

/-- Scalars compare by their positions on the scale. -/
instance : LinearOrder Scalar where
  le s t := s.rank ≤ t.rank
  le_refl s := Nat.le_refl s.rank
  le_trans _ _ _ hst htu := Nat.le_trans hst htu
  le_antisymm _ _ hst hts := rank_inj.1 (Nat.le_antisymm hst hts)
  le_total s t := Nat.le_total s.rank t.rank
  toDecidableLE s t := inferInstanceAs (Decidable (s.rank ≤ t.rank))
  toDecidableEq := inferInstance
  max := max
  max_def _ _ := rfl

instance : Std.LawfulOrderMax Scalar :=
  .of_max_le_iff (fun _ _ _ => max_le_iff) max_choice

theorem le_iff_rank_le {s t : Scalar} : s ≤ t ↔ s.rank ≤ t.rank := Iff.rfl

theorem lt_iff_rank_lt {s t : Scalar} : s < t ↔ s.rank < t.rank := by
  rw [← not_le, le_iff_rank_le, Nat.not_le]

/-- The list of all scalars climbs the scale. -/
theorem pairwise_lt_all : all.Pairwise (· < ·) := by decide

theorem nodup_all : all.Nodup :=
  pairwise_lt_all.imp ne_of_lt

end Scalar

/-- The scalar `s` occurs in a tuple and none that occurs is higher. -/
def IsHighest (s : Scalar) (tuple : List ValueType) : Prop :=
  (∃ t ∈ tuple, t.scalar? = some s) ∧ ∀ t ∈ tuple, ∀ u, t.scalar? = some u → u ≤ s

theorem promoted?_eq_some_iff {tuple : List ValueType} {s : Scalar} :
    promoted? tuple = some s ↔ IsHighest s tuple := by
  rw [promoted?, List.max?_eq_some_iff]
  simp only [IsHighest, List.mem_filterMap]
  exact and_congr_right fun _ =>
    ⟨fun h t ht u hu => h u ⟨t, ht, hu⟩, fun h u ⟨t, ht, hu⟩ => h t ht u hu⟩

theorem promoted?_eq_none_iff {tuple : List ValueType} :
    promoted? tuple = none ↔ ∀ t ∈ tuple, t.scalar? = none := by
  simp [promoted?]

theorem IsHighest.unique {s t : Scalar} {tuple : List ValueType} (hs : IsHighest s tuple)
    (ht : IsHighest t tuple) : s = t := by
  rw [← promoted?_eq_some_iff] at hs ht
  exact Option.some.inj (hs.symm.trans ht)

/-- Two operands are promoted to the higher of their scalars. -/
theorem promoted?_pair {t u : ValueType} {a b : Scalar} (ht : t.scalar? = some a)
    (hu : u.scalar? = some b) : promoted? [t, u] = some (max a b) := by
  simp [promoted?, ht, hu, List.max?]

end FheSolidity
