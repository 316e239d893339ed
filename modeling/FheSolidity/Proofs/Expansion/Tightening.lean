import FheSolidity.Proofs.Casts
import FheSolidity.Proofs.Expansion.Success

/-!
# Tightening the rules

Rules are tighter than others (`Rules.Tightens`) if whatever they permit is permitted by the others:
an operation of a type, a source of encrypted addresses, tagged sealing. Tightening takes functions
away and does nothing else. What is left of an expansion and of the conversions keeps its names, its
types and its order, and whether an expansion fails has nothing to do with the rules.
-/

namespace FheSolidity

/-- The rules `r` permit nothing that the rules `s` do not. -/
structure Rules.Tightens (r s : Rules) : Prop where
  allows : ∀ (t : Scalar) (operation : String), r.allows t operation = true →
    s.allows t operation = true
  addressSources : ∀ t ∈ r.addressSources, t ∈ s.addressSources
  typedSeal : r.typedSeal = true → s.typedSeal = true

namespace Rules.Tightens

variable {r s : Rules} (h : r.Tightens s)

include h

/-! ### Conversions -/

theorem convertsTo {source : ValueType} {target : Scalar}
    (converts : r.convertsTo source target = true) : s.convertsTo source target = true := by
  unfold Rules.convertsTo at converts ⊢
  split
  · next address =>
    rw [if_pos address, List.contains_iff_mem] at converts
    exact List.contains_iff_mem.2 (h.addressSources source converts)
  · next other => rwa [if_neg other] at converts

theorem canCast {t : ValueType} {target : Scalar} (casts : r.canCast t target = true) :
    s.canCast t target = true := by
  cases t with
  | encrypted source =>
    rw [Rules.canCast, Bool.and_eq_true] at casts ⊢
    exact ⟨casts.1, h.convertsTo casts.2⟩
  | plain source => exact h.convertsTo casts
  | fixed t =>
    -- What carries its type with it converts whatever the rules say.
    cases t <;> exact casts

theorem castSources_sublist (target : Scalar) :
    (r.castSources target).Sublist (s.castSources target) := by
  have fewer (types : List ValueType) :
      ((types.filter (r.canCast · target)).map fun t => [t]).Sublist
        ((types.filter (s.canCast · target)).map fun t => [t]) :=
    (List.monotone_filter_right types fun _ casts => h.canCast casts).map _
  refine .append (.append (.append (fewer _) ?_) (fewer _)) (.refl _)
  split
  · next word => rw [if_pos (h.canCast word)]
  · exact List.nil_sublist _

/-- Conversions are taken away and nothing else. -/
theorem casts_sublist : r.casts.Sublist s.casts :=
  List.Sublist.flatMap_right _ fun target _ => (h.castSources_sublist target).map _

/-! ### Tuples -/

variable (op : Operation)

theorem candidates_sublist (kind : InputKind) :
    (op.candidates r kind).Sublist (op.candidates s kind) := by
  cases kind with
  | encrypted =>
    refine (List.monotone_filter_right _ fun t kept => ?_).map _
    rw [Bool.and_eq_true] at kept ⊢
    exact ⟨h.allows t op.name kept.1, kept.2⟩
  | plain | fixed => exact .refl _

theorem tuples_sublist : (op.tuples r).Sublist (op.tuples s) := by
  refine Expansion.product_sublist ?_
  rw [List.forall₂_map_left_iff, List.forall₂_map_right_iff, List.forall₂_same]
  exact fun kind _ => h.candidates_sublist op kind

theorem computesIn {operation : String} {tuple : List ValueType} {w : Scalar}
    (computes : r.ComputesIn operation tuple w) : s.ComputesIn operation tuple w where
  highest := computes.highest
  allowed := h.allows w operation computes.allowed
  converts t ht other := h.canCast (computes.converts t ht other)

/-- A tuple that tighter rules keep is kept. -/
theorem kept {tuple : List ValueType} (kept : op.skip? r tuple = none) :
    op.skip? s tuple = none := by
  rw [Operation.skip?_eq_none_iff] at kept ⊢
  obtain ⟨oneType, sameType, working⟩ := kept
  exact ⟨oneType, sameType, fun binary w hw => h.computesIn (working binary w hw)⟩

/-! ### Expansion -/

theorem typedSealVariant_sublist (tuple : List ValueType) :
    (op.typedSealVariant? r tuple).toList.Sublist (op.typedSealVariant? s tuple).toList := by
  cases variant : op.typedSealVariant? r tuple with
  | none => exact List.nil_sublist _
  | some sig =>
    obtain ⟨seals, offered, shape⟩ := Operation.typedSealVariant?_eq_some_iff.1 variant
    rw [Operation.typedSealVariant?_eq_some_iff.2 ⟨seals, h.typedSeal offered, shape⟩]

/-- What one tuple gives: its result has nothing to do with the rules. -/
theorem expandTuple_sublist {tuple : List ValueType} {few many : List Signature}
    (hfew : op.expandTuple r tuple = .ok few) (hmany : op.expandTuple s tuple = .ok many) :
    few.Sublist many := by
  rcases Operation.expandTuple_eq_ok_iff.1 hfew with ⟨_, rfl⟩ | ⟨kept, returns, yields, rfl⟩
  · exact List.nil_sublist _
  · rcases Operation.expandTuple_eq_ok_iff.1 hmany with ⟨dropped, _⟩ | ⟨_, returns', yields', rfl⟩
    · exact absurd (h.kept op kept) dropped
    · rw [yields.unique yields']
      exact (h.typedSealVariant_sublist op tuple).cons_cons _

theorem expandGenerator_sublist : (op.expandGenerator r).Sublist (op.expandGenerator s) :=
  (List.monotone_filter_right _ fun t allowed => h.allows t op.name allowed).flatMap _

theorem expand_sublist {few many : List Signature} (hfew : op.expand r = .ok few)
    (hmany : op.expand s = .ok many) : few.Sublist many := by
  cases hgen : op.isGenerator with
  | true =>
    obtain ⟨_, rfl⟩ := (Operation.expand_eq_ok_iff_of_generator hgen).1 hfew
    obtain ⟨_, rfl⟩ := (Operation.expand_eq_ok_iff_of_generator hgen).1 hmany
    exact h.expandGenerator_sublist op
  | false =>
    obtain ⟨_, groups, hgroups, rfl⟩ := (Operation.expand_eq_ok_iff_of_not_generator hgen).1 hfew
    obtain ⟨_, groups', hgroups', rfl⟩ := (Operation.expand_eq_ok_iff_of_not_generator hgen).1 hmany
    exact flatten_sublist_of_forall₂ (h.tuples_sublist op) hgroups hgroups'
      fun _ _ _ => h.expandTuple_sublist op

/-- **Tightening only removes.** Under tighter rules an operation expands to some of the functions
that it has, in their order and each as it was, and the conversions are some of those there were.
An expansion that fails does so under both rules, with one error. -/
theorem removes_only :
    ((∃ e, op.expand r = .error e ∧ op.expand s = .error e) ∨
      ∃ few many, op.expand r = .ok few ∧ op.expand s = .ok many ∧ few.Sublist many) ∧
    r.casts.Sublist s.casts := by
  refine ⟨?_, h.casts_sublist⟩
  cases check : op.checkPlainReturn with
  | error e =>
    have fails (rules : Rules) : op.expand rules = .error e := Operation.expand_of_check_error check
    exact .inl ⟨e, fails r, fails s⟩
  | ok =>
    obtain ⟨few, hfew⟩ := Operation.exists_expand_eq_ok r check
    obtain ⟨many, hmany⟩ := Operation.exists_expand_eq_ok s check
    exact .inr ⟨few, many, hfew, hmany, h.expand_sublist op hfew hmany⟩

end Rules.Tightens

/-- Sealing under rules without one of the types and without tags. -/
theorem Rules.Tightens.removes_only_sealoutput :
    let r := ((Rules.standard.withFilter .uint8 (.only [])).withAddressSources
      [.plain .address]).withTypedSeal false
    let op : Operation :=
      { name := "sealoutput", inputs := [.encrypted, .fixed (.fixed .bytes32)]
        returns := .explicit (.fixed .bytes) }
    r.Tightens .standard ∧
      (((∃ e, op.expand r = .error e ∧ op.expand .standard = .error e) ∨
          ∃ few many, op.expand r = .ok few ∧ op.expand .standard = .ok many ∧ few.Sublist many) ∧
        r.casts.Sublist Rules.standard.casts) ∧
      (op.expand r).map List.length = .ok 7 ∧ (op.expand .standard).map List.length = .ok 16 ∧
      r.casts.length + 3 = Rules.standard.casts.length := by
  intro r op
  have tightens : r.Tightens .standard :=
    { allows := by
        intro t operation allowed
        cases t with
        | uint8 => cases allowed
        | bool | uint16 | uint32 | uint64 | uint128 | uint256 | address => exact allowed
      addressSources := by decide
      typedSeal := fun _ => rfl }
  exact ⟨tightens, tightens.removes_only op, by decide +kernel, by decide +kernel,
    by decide +kernel⟩

end FheSolidity
