import FheSolidity.Proofs.Casts
import FheSolidity.Proofs.Expansion.Overloads
import FheSolidity.Proofs.Rendering

/-!
# Overloads of a surface

Two functions of a surface can be one Solidity overload only if two of its operations share their
name: within one operation the inputs differ, and the functions of different operations and the
conversions differ in their names. The check for overloads that occur twice passes exactly for the
surfaces on which none does.
-/

namespace FheSolidity

/-- The overloads of an operation's functions. -/
def RenderedOperation.overloads (ro : RenderedOperation) : List OverloadKey :=
  (ro.functions.map RenderedFunction.signature).map Signature.overloadKey

theorem RenderedOperation.mem_overloads_iff {ro : RenderedOperation} {k : OverloadKey} :
    k ∈ ro.overloads ↔ ∃ f ∈ ro.functions, f.signature.overloadKey = k := by
  rw [overloads, List.map_map]
  exact List.mem_map

namespace Operation

variable {r : Rules} {op : Operation} {ro : RenderedOperation}

theorem nodup_overloads_of_render (h : op.render r = .ok ro) : ro.overloads.Nodup :=
  nodup_overloadKey_expand (render_eq_ok_iff.1 h).2.1

/-- A function of a rendered operation is a signature that the operation gives, and the dispatcher
knows the operation. -/
theorem emits_of_mem_render (h : op.render r = .ok ro) {f : RenderedFunction}
    (hf : f ∈ ro.functions) : op.Emits r f.signature ∧ op.name ∈ Dispatcher.functionIds := by
  obtain ⟨_, hexpand, hfs⟩ := render_eq_ok_iff.1 h
  have emits := (mem_expand_iff hexpand).1 (List.mem_map_of_mem hf)
  obtain ⟨shape, hshape, _⟩ := Signature.render_eq_ok_iff.1 (hfs f hf)
  have known := Signature.operation_mem_functionIds emits.family hshape
  rw [emits.operation] at known
  exact ⟨emits, known⟩

/-- The name of an overload tells the operation. -/
theorem name_eq_of_mem_overloads {other : Operation} {ro' : RenderedOperation}
    (h : op.render r = .ok ro) (h' : other.render r = .ok ro') {k k' : OverloadKey}
    (hk : k ∈ ro.overloads) (hk' : k' ∈ ro'.overloads) (same : k.symbol = k'.symbol) :
    op.name = other.name := by
  obtain ⟨f, hf, rfl⟩ := RenderedOperation.mem_overloads_iff.1 hk
  obtain ⟨g, hg, rfl⟩ := RenderedOperation.mem_overloads_iff.1 hk'
  obtain ⟨emits, known⟩ := emits_of_mem_render h hf
  obtain ⟨emits', known'⟩ := emits_of_mem_render h' hg
  have symbol : f.signature.symbol = g.signature.symbol := same
  exact emits.hasSymbol.name_eq known known' (symbol ▸ emits'.hasSymbol)

end Operation

namespace Surface

variable {r : Rules} {ops : List Operation} {choice : ErrorChoice} {surface : Surface}

/-- Where a function of an operation comes from. -/
theorem exists_render_of_mem_operations (h : Surface.ofOperations r ops choice = .ok surface)
    {ro : RenderedOperation} (hro : ro ∈ surface.operations) :
    ro.operation ∈ ops ∧ ro.operation.render r = .ok ro := by
  obtain ⟨op, hop, hrender⟩ := exists_of_forall₂_of_mem_right (ofOperations_eq_ok_iff.1 h).1 hro
  rw [(Operation.render_eq_ok_iff.1 hrender).1]
  exact ⟨hop, hrender⟩

/-- Every function of a surface is rendered from its signature. -/
theorem render_of_mem_functions (h : Surface.ofOperations r ops choice = .ok surface)
    {f : RenderedFunction} (hf : f ∈ surface.functions) : f.signature.render = .ok f := by
  rcases List.mem_append.1 hf with hf | hf
  · obtain ⟨ro, hro, hf⟩ := List.mem_flatMap.1 hf
    have hrender := (exists_render_of_mem_operations h hro).2
    exact (Operation.render_eq_ok_iff.1 hrender).2.2 f hf
  · exact (ofOperations_eq_ok_iff.1 h).2.2 f hf

/-- A name that is none for functions is free on every surface. -/
theorem symbol_ne_of_mem_functions (h : Surface.ofOperations r ops choice = .ok surface)
    {f : RenderedFunction} (hf : f ∈ surface.functions) {x : String}
    (hx : isFunctionName x = false) : f.signature.symbol ≠ x := by
  have isName : isFunctionName f.signature.symbol = true := by
    rcases List.mem_append.1 hf with hf | hf
    · obtain ⟨ro, hro, hf⟩ := List.mem_flatMap.1 hf
      obtain ⟨emits, known⟩ :=
        Operation.emits_of_mem_render (exists_render_of_mem_operations h hro).2 hf
      exact emits.hasSymbol.isFunctionName known
    · have hsig : f.signature ∈ r.casts :=
        (ofOperations_eq_ok_iff.1 h).2.1 ▸ List.mem_map_of_mem hf
      obtain ⟨target, inputs, _, hcast⟩ := Rules.mem_casts_iff.1 hsig
      exact hcast ▸ isFunctionName_castFunction target
  rintro rfl
  rw [isName] at hx
  cases hx

theorem overloads_eq_append (surface : Surface) :
    surface.signatures.map Signature.overloadKey =
      surface.operations.flatMap RenderedOperation.overloads ++
        (surface.casts.map RenderedFunction.signature).map Signature.overloadKey := by
  simp only [signatures, functions, operationFunctions, List.map_append, List.map_flatMap]
  rfl

/-- No conversion is an overload of an operation's function. -/
theorem disjoint_overloads_casts (h : Surface.ofOperations r ops choice = .ok surface) :
    (surface.operations.flatMap RenderedOperation.overloads).Disjoint
      (r.casts.map Signature.overloadKey) := by
  rw [List.disjoint_left]
  intro k hk hcast
  obtain ⟨ro, hro, hk⟩ := List.mem_flatMap.1 hk
  obtain ⟨f, hf, rfl⟩ := RenderedOperation.mem_overloads_iff.1 hk
  obtain ⟨emits, known⟩ :=
    Operation.emits_of_mem_render (exists_render_of_mem_operations h hro).2 hf
  obtain ⟨cast, hcast, same⟩ := List.mem_map.1 hcast
  obtain ⟨target, inputs, _, rfl⟩ := Rules.mem_casts_iff.1 hcast
  exact emits.hasSymbol.ne_castFunction known target (congrArg OverloadKey.symbol same).symm

/-- Operations of different names make a surface without a repeated overload. -/
theorem nodup_overloads_of_nodup_names (names : (ops.map Operation.name).Nodup)
    (h : Surface.ofOperations r ops choice = .ok surface) :
    (surface.signatures.map Signature.overloadKey).Nodup := by
  obtain ⟨hops, hcasts, _⟩ := ofOperations_eq_ok_iff.1 h
  have distinct : (surface.operations.map fun ro => ro.operation.name).Nodup := by
    rwa [map_eq_map_of_forall₂ hops fun op ro hrender =>
      congrArg Operation.name (Operation.render_eq_ok_iff.1 hrender).1]
  rw [overloads_eq_append, hcasts]
  refine List.Nodup.append ?_ r.nodup_overloadKey_casts (disjoint_overloads_casts h)
  refine nodup_flatMap_of_tells distinct.of_map (fun ro hro => ?_) ?_
  · exact Operation.nodup_overloads_of_render (exists_render_of_mem_operations h hro).2
  · intro ro hro ro' hro' k hk hk'
    have name := Operation.name_eq_of_mem_overloads (exists_render_of_mem_operations h hro).2
      (exists_render_of_mem_operations h hro').2 hk hk' rfl
    exact List.inj_on_of_nodup_map distinct hro hro' name

theorem repeatedOverloads_eq_nil_iff {sigs : List Signature} :
    repeatedOverloads sigs = [] ↔ (sigs.map Signature.overloadKey).Nodup := by
  rw [List.eq_nil_iff_forall_not_mem, List.nodup_iff_count_le_one]
  refine forall_congr' fun k => ?_
  rw [mem_repeatedOverloads, Nat.not_le, Nat.lt_succ_iff]

theorem checkOverloads_eq_ok_iff :
    surface.checkOverloads = .ok () ↔ (surface.signatures.map Signature.overloadKey).Nodup := by
  rw [← repeatedOverloads_eq_nil_iff, checkOverloads]
  split
  · next h => simp [h]
  · next h => simp [h]

theorem build_eq_ok_iff : Surface.build r ops choice = .ok surface ↔
    Surface.ofOperations r ops choice = .ok surface ∧
      (surface.signatures.map Signature.overloadKey).Nodup := by
  rw [build, bind_eq_ok_iff]
  simp only [check_bind_eq_ok_iff, checkOverloads_eq_ok_iff, pure, Except.pure, Except.ok.injEq]
  constructor
  · rintro ⟨s, hs, nodup, rfl⟩
    exact ⟨hs, nodup⟩
  · rintro ⟨hs, nodup⟩
    exact ⟨surface, hs, nodup, rfl⟩

theorem build_eq_ok_congr (choice' : ErrorChoice) :
    Surface.build r ops choice = .ok surface ↔ Surface.build r ops choice' = .ok surface := by
  rw [build_eq_ok_iff, build_eq_ok_iff, ofOperations_eq_ok_congr]

end Surface

end FheSolidity
