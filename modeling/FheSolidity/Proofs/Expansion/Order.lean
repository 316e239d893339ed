import FheSolidity.Expansion.Basic
import FheSolidity.Proofs.Scale
import Mathlib.Data.List.Flatten
import Mathlib.Data.List.Forall2

/-!
# The order of the tuples

A product of ordered lists comes in lexicographic order, which also means that it holds no tuple
twice. The candidates of an input climb the promotion scale (`Precedes`), so the tuples of an
operation are in the lexicographic order of that scale.
-/

namespace FheSolidity

namespace Expansion

theorem mem_product_iff {α : Type} {lists : List (List α)} {tuple : List α} :
    tuple ∈ product lists ↔ List.Forall₂ (fun xs x => x ∈ xs) lists tuple := by
  induction lists generalizing tuple with
  | nil => simp [product]
  | cons xs rest ih =>
    cases tuple with
    | nil => simp [product_cons]
    | cons x tuple => rw [cons_mem_product, List.forall₂_cons, ih]

theorem pairwise_lex_product {α : Type} {R : α → α → Prop} {lists : List (List α)}
    (h : ∀ xs ∈ lists, xs.Pairwise R) : (product lists).Pairwise (List.Lex R) := by
  induction lists with
  | nil => exact List.pairwise_singleton _ _
  | cons xs rest ih =>
    have later := ih fun ys hys => h ys (List.mem_cons_of_mem _ hys)
    rw [product_cons, List.pairwise_flatMap]
    constructor
    · intro x _
      rw [List.pairwise_map]
      exact later.imp .cons
    · refine (h xs List.mem_cons_self).imp fun hxy => ?_
      rintro _ hs _ ht
      obtain ⟨s, _, rfl⟩ := List.mem_map.1 hs
      obtain ⟨t, _, rfl⟩ := List.mem_map.1 ht
      exact .rel hxy

/-- A product of fewer elements is a part of the product. -/
theorem product_sublist {α : Type} {lists wholes : List (List α)}
    (h : List.Forall₂ List.Sublist lists wholes) : (product lists).Sublist (product wholes) := by
  induction h with
  | nil => exact .refl _
  | @cons xs ys rest rest' first _ ih =>
    rw [product_cons, product_cons]
    exact (first.flatMap _).trans (.flatMap_right _ fun y _ => ih.map _)

end Expansion

namespace ValueType

/-- Both types take part in promotion, and the second is higher. -/
def Precedes (t u : ValueType) : Prop :=
  ∃ a b, t.scalar? = some a ∧ u.scalar? = some b ∧ a.rank < b.rank

theorem not_precedes_self (t : ValueType) : ¬ t.Precedes t := by
  rintro ⟨a, b, ha, hb, hab⟩
  cases Option.some.inj (ha.symm.trans hb)
  exact Nat.lt_irrefl a.rank hab

/-- Tuples in the order of the scale are distinct. -/
theorem nodup_of_pairwise_lex {tuples : List (List ValueType)}
    (h : tuples.Pairwise (List.Lex Precedes)) : tuples.Nodup := by
  refine h.imp fun {s t} hst heq => ?_
  subst heq
  exact List.lex_irrefl not_precedes_self s hst

end ValueType

namespace Operation

theorem pairwise_precedes_candidates (op : Operation) (r : Rules) (kind : InputKind) :
    (op.candidates r kind).Pairwise ValueType.Precedes := by
  cases kind with
  | fixed t => exact List.pairwise_singleton _ _
  | encrypted =>
    rw [candidates, List.pairwise_map]
    exact (Scalar.pairwise_lt_all.filter _).imp fun h => ⟨_, _, rfl, rfl, Scalar.lt_iff_rank_lt.1 h⟩
  | plain =>
    rw [candidates, List.pairwise_map]
    exact (Scalar.pairwise_lt_all.filter _).imp fun h => ⟨_, _, rfl, rfl, Scalar.lt_iff_rank_lt.1 h⟩

theorem pairwise_lex_tuples (op : Operation) (r : Rules) :
    (op.tuples r).Pairwise (List.Lex ValueType.Precedes) := by
  refine Expansion.pairwise_lex_product fun xs hxs => ?_
  obtain ⟨kind, _, rfl⟩ := List.mem_map.1 hxs
  exact op.pairwise_precedes_candidates r kind

end Operation

end FheSolidity
