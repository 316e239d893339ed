import FheSolidity.Proofs.Expansion.Emitted

/-!
# Expansion is exact

Apart from the tagged variants of sealing, an operation that is no generator has one signature for
each admissible tuple, in the order of the promotion scale and none of them twice.
-/

namespace FheSolidity

/-- The signatures among `sigs` that are no tagged variants of sealing. -/
def Signature.untagged (sigs : List Signature) : List Signature :=
  sigs.filter fun sig => !sig.isTypedSeal

/-- A signature under its operation's own name is no tagged variant: sealing has another name. -/
theorem Signature.isTypedSeal_ofOperation (name : String) (inputs : List ValueType)
    (returns : Option ValueType) : (ofOperation name inputs returns).isTypedSeal = false := by
  simp only [isTypedSeal, operation_ofOperation, symbol_ofOperation, Rules.isSeal,
    Bool.and_eq_false_imp, beq_iff_eq]
  rintro rfl
  decide

theorem Signature.isTypedSeal_typedSeal {operation : String} (h : Rules.isSeal operation = true)
    (s : Scalar) (rest : List ValueType) : (typedSeal operation s rest).isTypedSeal = true := by
  simp [isTypedSeal, typedSeal, ofOperation, h]

namespace Operation

variable {op : Operation} {r : Rules} {tuple : List ValueType} {sigs : List Signature}

/-- A kept tuple gives one untagged signature, a dropped one none. -/
theorem untagged_inputs_of_expandTuple (h : op.expandTuple r tuple = .ok sigs) :
    (Signature.untagged sigs).map Signature.inputs =
      if op.skip? r tuple = none then [tuple] else [] := by
  rcases expandTuple_eq_ok_iff.1 h with ⟨dropped, rfl⟩ | ⟨kept, returns, _, rfl⟩
  · simp [dropped, Signature.untagged]
  · have variant :
        (op.typedSealVariant? r tuple).toList.filter (fun sig => !sig.isTypedSeal) = [] := by
      rw [List.filter_eq_nil_iff]
      intro sig hsig
      obtain ⟨seals, _, s, rest, _, rfl⟩ :=
        typedSealVariant?_eq_some_iff.1 (Option.mem_toList.1 hsig)
      simp [Signature.isTypedSeal_typedSeal seals]
    rw [if_pos kept, Signature.untagged, List.filter_cons, Signature.isTypedSeal_ofOperation,
      variant]
    rfl

/-- The untagged signatures of an expansion stand in the order of their tuples. -/
theorem untagged_inputs_of_expand (hgen : op.isGenerator = false) (h : op.expand r = .ok sigs) :
    (Signature.untagged sigs).map Signature.inputs =
      (op.tuples r).filter fun tuple => op.skip? r tuple = none := by
  obtain ⟨_, groups, hgroups, rfl⟩ := (expand_eq_ok_iff_of_not_generator hgen).1 h
  calc (Signature.untagged groups.flatten).map Signature.inputs
      = groups.flatMap fun group => (Signature.untagged group).map Signature.inputs := by
        rw [Signature.untagged, List.filter_flatten, List.map_flatten, List.map_map,
          List.flatMap_def]
        rfl
    _ = (op.tuples r).flatMap fun tuple => if op.skip? r tuple = none then [tuple] else [] :=
        flatMap_eq_flatMap_of_forall₂ hgroups fun _ _ => untagged_inputs_of_expandTuple
    _ = (op.tuples r).filter fun tuple => op.skip? r tuple = none := by
        induction op.tuples r with
        | nil => rfl
        | cons tuple rest ih => rw [List.flatMap_cons, ih]; split <;> simp_all

/-- Every admissible tuple has a signature. -/
theorem exists_mem_expand_of_admissible (hgen : op.isGenerator = false)
    (h : op.expand r = .ok sigs) (admissible : op.Admissible r tuple) :
    ∃ sig ∈ sigs, sig.inputs = tuple := by
  have made : tuple ∈ (Signature.untagged sigs).map Signature.inputs := by
    rw [untagged_inputs_of_expand hgen h, List.mem_filter, decide_eq_true_iff]
    exact admissible_iff.1 admissible
  obtain ⟨sig, hsig, rfl⟩ := List.mem_map.1 made
  exact ⟨sig, List.mem_of_mem_filter hsig, rfl⟩

/-- **Exactness.** The untagged signatures of an expansion are one for each admissible tuple, in
the lexicographic order of the promotion scale; each has its operation's name and the result type
that its tuple yields. -/
theorem untagged_of_expand (hgen : op.isGenerator = false) (h : op.expand r = .ok sigs) :
    (∀ tuple, tuple ∈ (Signature.untagged sigs).map Signature.inputs ↔ op.Admissible r tuple) ∧
      ((Signature.untagged sigs).map Signature.inputs).Pairwise (List.Lex ValueType.Precedes) ∧
      ((Signature.untagged sigs).map Signature.inputs).Nodup ∧
      ∀ sig ∈ Signature.untagged sigs, op.Yields sig.inputs sig.returns ∧
        sig = .ofOperation op.name sig.inputs sig.returns := by
  have inputs := untagged_inputs_of_expand hgen h
  have sorted : ((Signature.untagged sigs).map Signature.inputs).Pairwise
      (List.Lex ValueType.Precedes) := by
    rw [inputs]
    exact (op.pairwise_lex_tuples r).filter _
  refine ⟨fun tuple => ?_, sorted, ValueType.nodup_of_pairwise_lex sorted, fun sig hsig => ?_⟩
  · rw [inputs, List.mem_filter, admissible_iff, decide_eq_true_iff]
  · obtain ⟨hmem, htyped⟩ := List.mem_filter.1 hsig
    cases (mem_expand_iff h).1 hmem with
    | plain _ _ yields => exact ⟨yields, rfl⟩
    | typedSeal _ seals => simp [Signature.isTypedSeal_typedSeal seals] at htyped
    | generated generator => simp [hgen] at generator

/-- Sealing takes every encrypted type and has a tagged variant for each. -/
theorem untagged_of_expand_sealoutput :
    let op : Operation :=
      { name := "sealoutput", inputs := [.encrypted, .plain], returns := .explicit (.fixed .bytes) }
    ∃ sigs, op.isGenerator = false ∧ op.expand .standard = .ok sigs ∧
      sigs.length = 2 * (Signature.untagged sigs).length ∧
      ((∀ tuple, tuple ∈ (Signature.untagged sigs).map Signature.inputs ↔
          op.Admissible .standard tuple) ∧
        ((Signature.untagged sigs).map Signature.inputs).Pairwise (List.Lex ValueType.Precedes) ∧
        ((Signature.untagged sigs).map Signature.inputs).Nodup ∧
        ∀ sig ∈ Signature.untagged sigs, op.Yields sig.inputs sig.returns ∧
          sig = .ofOperation op.name sig.inputs sig.returns) :=
  ⟨_, by decide, rfl, by decide +kernel, untagged_of_expand (by decide) rfl⟩

end Operation

end FheSolidity
