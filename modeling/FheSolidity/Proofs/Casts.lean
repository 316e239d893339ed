import FheSolidity.Expansion.Casts
import FheSolidity.Proofs.Lists
import FheSolidity.Proofs.Scale

/-!
# The conversions

`ConvertsFrom` says which inputs an encrypted type has a conversion from. The list of all
conversions holds one for each of them, no two of which are one overload.
-/

namespace FheSolidity.Rules

/-- The inputs that a conversion to an encrypted `target` may have. -/
inductive ConvertsFrom (r : Rules) (target : Scalar) : List ValueType → Prop where
  | encrypted {s : Scalar} (h : r.canCast (.encrypted s) target = true) :
      ConvertsFrom r target [.encrypted s]
  | word (h : r.canCast (.plain .uint256) target = true) : ConvertsFrom r target [.plain .uint256]
  | wordInZone (h : r.canCast (.plain .uint256) target = true) :
      ConvertsFrom r target [.plain .uint256, .fixed .zone]
  | bool (h : r.canCast (.plain .bool) target = true) : ConvertsFrom r target [.plain .bool]
  | address (h : r.canCast (.plain .address) target = true) :
      ConvertsFrom r target [.plain .address]
  | ciphertext : ConvertsFrom r target [.fixed .bytes, .fixed .zone]
  | inputStruct : ConvertsFrom r target [.fixed (.input target)]

variable {r : Rules} {target : Scalar} {inputs : List ValueType}

theorem mem_castSources_iff : inputs ∈ r.castSources target ↔ r.ConvertsFrom target inputs := by
  simp only [castSources, List.mem_append, List.mem_map, List.mem_filter, Scalar.mem_all, true_and,
    List.mem_cons, List.not_mem_nil, or_false]
  constructor
  · rintro (((⟨_, ⟨⟨s, rfl⟩, h⟩, rfl⟩ | h) | ⟨_, ⟨⟨_, rfl | rfl, rfl⟩, h⟩, rfl⟩) | rfl | rfl)
    · exact .encrypted h
    · split at h
      · next hw =>
        rw [List.mem_cons, List.mem_singleton] at h
        rcases h with rfl | rfl
        · exact .word hw
        · exact .wordInZone hw
      · cases h
    · exact .bool h
    · exact .address h
    · exact .ciphertext
    · exact .inputStruct
  · intro h
    cases h with
    | encrypted h => exact .inl (.inl (.inl ⟨_, ⟨⟨_, rfl⟩, h⟩, rfl⟩))
    | word h => exact .inl (.inl (.inr (by simp [h])))
    | wordInZone h => exact .inl (.inl (.inr (by simp [h])))
    | bool h => exact .inl (.inr ⟨_, ⟨⟨_, .inl rfl, rfl⟩, h⟩, rfl⟩)
    | address h => exact .inl (.inr ⟨_, ⟨⟨_, .inr rfl, rfl⟩, h⟩, rfl⟩)
    | ciphertext => exact .inr (.inl rfl)
    | inputStruct => exact .inr (.inr rfl)

theorem mem_casts_iff {sig : Signature} : sig ∈ r.casts ↔
    ∃ target inputs, r.ConvertsFrom target inputs ∧ sig = castSignature target inputs := by
  simp only [casts, List.mem_flatMap, Scalar.mem_all, true_and, List.mem_map, mem_castSources_iff,
    eq_comm]

theorem castSignature_inj {t : Scalar} {other : List ValueType} :
    castSignature target inputs = castSignature t other ↔ target = t ∧ inputs = other := by
  constructor
  · intro h
    exact ⟨by simpa [castSignature] using congrArg Signature.returns h, congrArg Signature.inputs h⟩
  · rintro ⟨rfl, rfl⟩
    rfl

theorem castSignature_mem_casts_iff :
    castSignature target inputs ∈ r.casts ↔ r.ConvertsFrom target inputs := by
  rw [mem_casts_iff]
  constructor
  · rintro ⟨_, _, h, heq⟩
    obtain ⟨rfl, rfl⟩ := castSignature_inj.1 heq
    exact h
  · exact fun h => ⟨target, inputs, h, rfl⟩

/-- The value that a conversion really takes: one in the clear is widened first. -/
def castArgument : ValueType → ValueType
  | .plain s => .plain s.castSource
  | t => t

/-- Whatever converts has a conversion that takes it. -/
theorem convertsFrom_castArgument {t : ValueType} {s : Scalar} (ht : t.scalar? = some s)
    (h : r.canCast t target = true) : r.ConvertsFrom target [castArgument t] := by
  cases t with
  | encrypted => exact .encrypted h
  | plain s =>
    cases s with
    | bool => exact .bool h
    | address => exact .address h
    | uint8 | uint16 | uint32 | uint64 | uint128 | uint256 => exact .word h
  | fixed => cases ht

/-- The inputs of all conversions that any rules may offer. -/
def offeredSources (target : Scalar) : List (List ValueType) :=
  (Scalar.all.map ValueType.encrypted).map (fun t => [t])
    ++ [[.plain .uint256], [.plain .uint256, .fixed .zone]]
    ++ ([Scalar.bool, Scalar.address].map ValueType.plain).map (fun t => [t])
    ++ [[.fixed .bytes, .fixed .zone], [.fixed (.input target)]]

theorem castSources_sublist (r : Rules) (target : Scalar) :
    (r.castSources target).Sublist (offeredSources target) := by
  refine .append (.append (.append ?_ ?_) ?_) (.refl _)
  · exact List.filter_sublist.map _
  · split
    · exact .refl _
    · exact List.nil_sublist _
  · exact List.filter_sublist.map _

theorem nodup_names_offeredSources (target : Scalar) :
    ((offeredSources target).map (List.map ValueType.name)).Nodup := by
  cases target <;> decide

theorem castFunction_inj {s t : Scalar} : s.castFunction = t.castFunction ↔ s = t := by
  cases s <;> cases t <;> decide

/-- No two conversions are one overload. -/
theorem nodup_overloadKey_casts (r : Rules) : (r.casts.map Signature.overloadKey).Nodup := by
  rw [casts, List.map_flatMap]
  refine nodup_flatMap_of_tells Scalar.nodup_all (fun target _ => ?_) ?_
  · have names := ((r.castSources_sublist target).map (List.map ValueType.name)).nodup
      (nodup_names_offeredSources target)
    rw [List.map_map]
    refine .of_map OverloadKey.inputs ?_
    rwa [List.map_map]
  · intro s _ t _ k hs ht
    obtain ⟨a, ha, rfl⟩ := List.mem_map.1 hs
    obtain ⟨b, hb, heq⟩ := List.mem_map.1 ht
    obtain ⟨_, _, rfl⟩ := List.mem_map.1 ha
    obtain ⟨_, _, rfl⟩ := List.mem_map.1 hb
    exact castFunction_inj.1 (congrArg OverloadKey.symbol heq).symm

end FheSolidity.Rules
