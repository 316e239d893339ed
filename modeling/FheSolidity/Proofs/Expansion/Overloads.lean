import FheSolidity.Proofs.Expansion.Emitted
import FheSolidity.Proofs.Expansion.Generators
import FheSolidity.Proofs.Names

/-!
# Overloads of one operation

No two functions of one operation are one Solidity overload. The Solidity names of a tuple's types
tell the tuple, because each stands at an input of known kind; a seed and a `uint64` in the clear
share their name, but never an input.
-/

namespace FheSolidity

/-- At an input of one kind, the name of a type tells the type. -/
theorem Rules.Fits.eq_of_name_eq {r : Rules} {operation : String} {kind : InputKind}
    {t u : ValueType} (ht : r.Fits operation kind t) (hu : r.Fits operation kind u)
    (h : t.name = u.name) : t = u := by
  cases ht with
  | encrypted => cases hu; rw [Scalar.encryptedName_inj.1 h]
  | plain => cases hu; rw [Scalar.name_inj.1 h]
  | fixed => cases hu; rfl

theorem Rules.Fits.tuple_eq_of_names_eq {r : Rules} {operation : String} {kinds : List InputKind}
    {a b : List ValueType} (ha : List.Forall₂ (r.Fits operation) kinds a)
    (hb : List.Forall₂ (r.Fits operation) kinds b)
    (h : a.map ValueType.name = b.map ValueType.name) : a = b := by
  induction ha generalizing b with
  | nil => cases hb; rfl
  | cons ht _ ih =>
    obtain ⟨u, us, hu, hus, rfl⟩ := List.forall₂_cons_left_iff.1 hb
    obtain ⟨first, rest⟩ := List.cons.inj h
    rw [ht.eq_of_name_eq hu first, ih hus rest]

namespace Operation

variable {op : Operation} {r : Rules} {sigs : List Signature}

theorem Emits.hasSymbol {sig : Signature} (h : op.Emits r sig) : op.HasSymbol sig.symbol := by
  cases h with
  | plain => exact .own
  | typedSeal _ seals => exact .tagged seals
  | generated => exact .generated _

/-- The overloads that a tuple gives. -/
def tupleOverloads (op : Operation) (r : Rules) (tuple : List ValueType) : List OverloadKey :=
  if op.skip? r tuple = none then
    ⟨op.name, tuple.map ValueType.name⟩ ::
      (op.typedSealVariant? r tuple).toList.map Signature.overloadKey
  else []

theorem map_overloadKey_of_expandTuple {tuple : List ValueType}
    (h : op.expandTuple r tuple = .ok sigs) :
    sigs.map Signature.overloadKey = op.tupleOverloads r tuple := by
  rcases expandTuple_eq_ok_iff.1 h with ⟨dropped, rfl⟩ | ⟨kept, returns, _, rfl⟩
  · rw [tupleOverloads, if_neg dropped, List.map_nil]
  · rw [tupleOverloads, if_pos kept, List.map_cons]
    rfl

/-- The overloads of a tuple are its own and that of tagged sealing. -/
theorem inputs_of_mem_tupleOverloads {tuple : List ValueType} {k : OverloadKey}
    (h : k ∈ op.tupleOverloads r tuple) : k.inputs = tuple.map ValueType.name := by
  unfold tupleOverloads at h
  split at h
  · rcases List.mem_cons.1 h with rfl | h
    · rfl
    · obtain ⟨sig, hsig, rfl⟩ := List.mem_map.1 h
      obtain ⟨_, _, s, rest, rfl, rfl⟩ := typedSealVariant?_eq_some_iff.1 (Option.mem_toList.1 hsig)
      rfl
  · cases h

theorem nodup_tupleOverloads (op : Operation) (r : Rules) (tuple : List ValueType) :
    (op.tupleOverloads r tuple).Nodup := by
  unfold tupleOverloads
  split
  · cases hvariant : op.typedSealVariant? r tuple with
    | none => exact List.nodup_singleton _
    | some sig =>
      obtain ⟨seals, _, s, rest, rfl, rfl⟩ := typedSealVariant?_eq_some_iff.1 hvariant
      have name : op.name = Rules.sealOperation := beq_iff_eq.1 seals
      refine List.nodup_cons.2 ⟨fun h => ?_, List.nodup_singleton _⟩
      have same : op.name = Rules.typedSealSymbol :=
        congrArg OverloadKey.symbol (List.mem_singleton.1 h)
      rw [name] at same
      revert same
      decide
  · exact List.nodup_nil

theorem nodup_overloadKey_expandGenerator (op : Operation) (r : Rules) :
    ((op.expandGenerator r).map Signature.overloadKey).Nodup := by
  rw [expandGenerator, List.map_flatMap]
  refine nodup_flatMap_of_tells (Scalar.nodup_all.filter _) (fun s _ => ?_) ?_
  · -- The overloads of one type differ in the number of their inputs.
    rw [List.map_map]
    refine List.pairwise_map.2 (op.pairwise_length_generatorInputs.imp fun {a b} shorter same => ?_)
    have lengths := congrArg (fun k => k.inputs.length) same
    simp only [Function.comp_apply, Signature.overloadKey, Signature.inputs_ofOperation,
      List.length_map] at lengths
    omega
  · intro s _ t _ k hs ht
    obtain ⟨a, ha, rfl⟩ := List.mem_map.1 hs
    obtain ⟨b, hb, heq⟩ := List.mem_map.1 ht
    obtain ⟨_, _, rfl⟩ := List.mem_map.1 ha
    obtain ⟨_, _, rfl⟩ := List.mem_map.1 hb
    exact (Scalar.append_encryptedTitle_inj.1 (congrArg OverloadKey.symbol heq).symm).2

/-- No two functions of an operation are one overload. -/
theorem nodup_overloadKey_expand (h : op.expand r = .ok sigs) :
    (sigs.map Signature.overloadKey).Nodup := by
  by_cases hgen : op.isGenerator = true
  · obtain ⟨_, rfl⟩ := (expand_eq_ok_iff_of_generator hgen).1 h
    exact op.nodup_overloadKey_expandGenerator r
  · rw [Bool.not_eq_true] at hgen
    obtain ⟨_, groups, hgroups, rfl⟩ := (expand_eq_ok_iff_of_not_generator hgen).1 h
    have keys : groups.flatten.map Signature.overloadKey =
        (op.tuples r).flatMap (op.tupleOverloads r) := by
      rw [List.map_flatten, ← List.flatMap_def]
      exact flatMap_eq_flatMap_of_forall₂ hgroups fun _ _ => map_overloadKey_of_expandTuple
    rw [keys]
    refine nodup_flatMap_of_tells (ValueType.nodup_of_pairwise_lex (op.pairwise_lex_tuples r))
      (fun tuple _ => op.nodup_tupleOverloads r tuple) ?_
    intro a ha b hb k hka hkb
    have names := (inputs_of_mem_tupleOverloads hka).symm.trans (inputs_of_mem_tupleOverloads hkb)
    exact Rules.Fits.tuple_eq_of_names_eq (mem_tuples_iff.1 ha).1 (mem_tuples_iff.1 hb).1 names

end Operation

end FheSolidity
