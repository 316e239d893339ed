import FheSolidity.Expansion.Basic

/-!
# The input lists of a generator

The functions of a generator for one type take the declared inputs or a shorter start of them. The
lists grow strictly shorter, so no two are equal, and nothing in them takes part in promotion.
-/

namespace FheSolidity.Operation

theorem self_mem_optionalEndings (optional : List FixedType) (inputs : List ValueType) :
    inputs ∈ optionalEndings optional inputs := by
  induction optional generalizing inputs with
  | nil => exact List.mem_singleton_self inputs
  | cons t ts ih =>
    unfold optionalEndings
    split
    · exact List.mem_cons_self
    · exact ih inputs

/-- What is left after some optional inputs are taken off the end is a start of the list. -/
theorem prefix_of_mem_optionalEndings {optional : List FixedType} {inputs variant : List ValueType}
    (h : variant ∈ optionalEndings optional inputs) : variant <+: inputs := by
  induction optional generalizing inputs with
  | nil =>
    rw [optionalEndings, List.mem_singleton] at h
    exact h ▸ List.prefix_rfl
  | cons t ts ih =>
    unfold optionalEndings at h
    split at h
    · rcases List.mem_cons.1 h with rfl | h
      · exact List.prefix_rfl
      · exact (ih h).trans (List.dropLast_prefix inputs)
    · exact ih h

theorem pairwise_length_optionalEndings (optional : List FixedType) (inputs : List ValueType) :
    (optionalEndings optional inputs).Pairwise fun a b => b.length < a.length := by
  induction optional generalizing inputs with
  | nil => exact List.pairwise_singleton _ _
  | cons t ts ih =>
    unfold optionalEndings
    split
    · next hlast =>
      refine List.pairwise_cons.2 ⟨fun variant hv => ?_, ih inputs.dropLast⟩
      have nonempty : inputs ≠ [] := by
        rintro rfl
        cases hlast
      have shorter := (prefix_of_mem_optionalEndings hv).length_le
      rw [List.length_dropLast] at shorter
      have := List.length_pos_iff.2 nonempty
      omega
    · exact ih inputs

variable {op : Operation}

/-- No two functions of a generator for one type take the same number of inputs. -/
theorem pairwise_length_generatorInputs (op : Operation) :
    op.generatorInputs.Pairwise fun a b => b.length < a.length :=
  pairwise_length_optionalEndings _ _

theorem mem_fixedInputs_iff {t : ValueType} : t ∈ op.fixedInputs ↔ .fixed t ∈ op.inputs := by
  rw [fixedInputs, List.mem_filterMap]
  constructor
  · rintro ⟨kind, hkind, h⟩
    cases kind with
    | fixed => cases h; exact hkind
    | encrypted | plain => cases h
  · exact fun h => ⟨_, h, rfl⟩

/-- What a generator takes has no place on the promotion scale. -/
theorem scalar?_of_mem_generatorInputs (hgen : op.isGenerator = true) {inputs : List ValueType}
    (h : inputs ∈ op.generatorInputs) {t : ValueType} (ht : t ∈ inputs) : t.scalar? = none := by
  simp only [isGenerator, Bool.and_eq_true, List.all_eq_true] at hgen
  have declared := mem_fixedInputs_iff.1 ((prefix_of_mem_optionalEndings h).subset ht)
  have neutral := hgen.2 _ declared
  simp only [isNeutral, Bool.and_eq_true, Option.isNone_iff_eq_none] at neutral
  exact neutral.1

end FheSolidity.Operation
