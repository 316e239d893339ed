import FheSolidity.Proofs.Documented
import FheSolidity.Proofs.Expansion.Overloads

/-!
# Generators

An operation whose inputs say nothing of the type of its encrypted result has one group of
functions for each encrypted type that supports it. `OptionalInputs` says which input lists a group
has: the declared one, and those that leave off a zone at the end and then a seed.
`expand_of_neutral_inputs` gives the whole expansion, and tells which declarations the templates
have a body for: only those of a random value.
-/

namespace FheSolidity.Operation

/-- The input lists that come from one declared list: that list, and the shorter ones in the order
in which they get shorter. -/
inductive OptionalInputs : List ValueType → List (List ValueType) → Prop where
  | seedAndZone (stem : List ValueType) :
      OptionalInputs (stem ++ [.fixed .seed, .fixed .zone])
        [stem ++ [.fixed .seed, .fixed .zone], stem ++ [.fixed .seed], stem]
  | zone (stem : List ValueType) (noSeed : stem.getLast? ≠ some (.fixed .seed)) :
      OptionalInputs (stem ++ [.fixed .zone]) [stem ++ [.fixed .zone], stem]
  | seed (stem : List ValueType) :
      OptionalInputs (stem ++ [.fixed .seed]) [stem ++ [.fixed .seed], stem]
  | none (types : List ValueType) (noZone : types.getLast? ≠ some (.fixed .zone))
      (noSeed : types.getLast? ≠ some (.fixed .seed)) : OptionalInputs types [types]

variable {types : List ValueType} {lists : List (List ValueType)}

theorem optionalEndings_append_singleton (t : FixedType) (ts : List FixedType)
    (stem : List ValueType) : optionalEndings (t :: ts) (stem ++ [.fixed t]) =
      (stem ++ [.fixed t]) :: optionalEndings ts stem := by
  rw [optionalEndings, if_pos List.getLast?_concat, List.dropLast_concat]

theorem optionalEndings_of_getLast?_ne {t : FixedType} {ts : List FixedType}
    (h : types.getLast? ≠ some (.fixed t)) :
    optionalEndings (t :: ts) types = optionalEndings ts types := by
  rw [optionalEndings, if_neg h]

theorem OptionalInputs.eq_optionalEndings (h : OptionalInputs types lists) :
    lists = optionalEndings [.zone, .seed] types := by
  cases h with
  | seedAndZone stem =>
    have zone : stem ++ [.fixed .seed, .fixed .zone] =
        (stem ++ [.fixed .seed]) ++ [.fixed .zone] := by simp
    rw [zone, optionalEndings_append_singleton, optionalEndings_append_singleton, optionalEndings]
  | zone stem noSeed =>
    rw [optionalEndings_append_singleton, optionalEndings_of_getLast?_ne noSeed, optionalEndings]
  | seed stem =>
    have noZone : (stem ++ [ValueType.fixed .seed]).getLast? ≠ some (.fixed .zone) := by simp
    rw [optionalEndings_of_getLast?_ne noZone, optionalEndings_append_singleton, optionalEndings]
  | none types noZone noSeed =>
    rw [optionalEndings_of_getLast?_ne noZone, optionalEndings_of_getLast?_ne noSeed,
      optionalEndings]

theorem exists_optionalInputs (types : List ValueType) : ∃ lists, OptionalInputs types lists := by
  by_cases hasZone : types.getLast? = some (.fixed .zone)
  · obtain ⟨stem, rfl⟩ := List.getLast?_eq_some_iff.1 hasZone
    by_cases hasSeed : stem.getLast? = some (.fixed .seed)
    · obtain ⟨stem, rfl⟩ := List.getLast?_eq_some_iff.1 hasSeed
      rw [List.append_assoc]
      exact ⟨_, .seedAndZone stem⟩
    · exact ⟨_, .zone stem hasSeed⟩
  · by_cases hasSeed : types.getLast? = some (.fixed .seed)
    · obtain ⟨stem, rfl⟩ := List.getLast?_eq_some_iff.1 hasSeed
      exact ⟨_, .seed stem⟩
    · exact ⟨_, .none types hasZone hasSeed⟩

theorem optionalInputs_iff :
    OptionalInputs types lists ↔ lists = optionalEndings [.zone, .seed] types := by
  refine ⟨OptionalInputs.eq_optionalEndings, ?_⟩
  rintro rfl
  obtain ⟨lists, h⟩ := exists_optionalInputs types
  exact h.eq_optionalEndings ▸ h

/-- The functions of generators that the templates have a body for make random values. -/
theorem random_inputs_of_plans {shape : Shape} {sig : Signature} (plans : shape.Plans sig)
    (family : sig.family = .operation) (unranked : ∀ t ∈ sig.inputs, t.scalar? = none) :
    ∃ form : RandomForm, sig.inputs = form.inputs := by
  rw [← plans.inputs] at unranked ⊢
  cases shape with
  | unary | binary | ternary | sealing => cases unranked (.encrypted _) List.mem_cons_self
  | cast => cases plans.family.trans family
  | random f target form => exact ⟨form, rfl⟩

variable {op : Operation} {r : Rules}

/-- What all inputs of a generator are declared as. -/
theorem isGenerator_of_neutral_inputs (returns : op.returns = .encrypted)
    (inputs : op.inputs = types.map .fixed)
    (neutral : ∀ t ∈ types, t.scalar? = none ∧ t ≠ .fixed .bytes) : op.isGenerator = true := by
  simp only [isGenerator, returns, inputs, beq_self_eq_true, Bool.true_and, List.all_map,
    List.all_eq_true, Function.comp_apply, isNeutral, Bool.and_eq_true, Option.isNone_iff_eq_none,
    Bool.not_eq_true', ValueType.isByteString, beq_eq_false_iff_ne]
  exact neutral

theorem fixedInputs_of_inputs_eq_map (inputs : op.inputs = types.map .fixed) :
    op.fixedInputs = types := by
  rw [fixedInputs, inputs, List.filterMap_map]
  exact List.filterMap_some

/-- The expansion of a generator with a function of every type that supports it renders exactly if
no type does, or the declared inputs are those of a random value. -/
theorem exists_renderAll_expandGenerator_iff (known : op.name ∈ Dispatcher.functionIds)
    (returns : op.returns = .encrypted) (inputs : op.inputs = types.map .fixed)
    (unranked : ∀ t ∈ types, t.scalar? = none) (generator : op.isGenerator = true) :
    (∃ fs, Signature.renderAll (op.expandGenerator r) = .ok fs) ↔
      (∀ s, r.allows s op.name = false) ∨
        types = [] ∨ types = [.fixed .seed] ∨ types = [.fixed .seed, .fixed .zone] := by
  constructor
  · rintro ⟨fs, rendered⟩
    by_cases supported : ∃ s, r.allows s op.name = true
    · right
      obtain ⟨s, allowed⟩ := supported
      have declared : types ∈ op.generatorInputs := by
        rw [generatorInputs, fixedInputs_of_inputs_eq_map inputs]
        exact self_mem_optionalEndings _ types
      have mem := mem_expandGenerator_iff.2 ⟨s, allowed, types, declared, rfl⟩
      obtain ⟨signatures, own⟩ := Signature.renderAll_eq_ok_iff.1 rendered
      rw [← signatures] at mem
      obtain ⟨f, hf, same⟩ := List.mem_map.1 mem
      have plans := RenderedFunction.plans_of_render (own f hf)
      rw [same] at plans
      obtain ⟨form, hform⟩ := random_inputs_of_plans plans rfl unranked
      have declaredInputs : types = form.inputs := hform
      cases form with
      | unseeded => exact .inl declaredInputs
      | seeded => exact .inr (.inl declaredInputs)
      | seededInZone => exact .inr (.inr declaredInputs)
    · simp only [not_exists, Bool.not_eq_true] at supported
      exact .inl supported
  · intro condition
    refine Signature.exists_renderAll_eq_ok fun sig hsig => ?_
    obtain ⟨s, allowed, variant, hvariant, rfl⟩ := mem_expandGenerator_iff.1 hsig
    rcases condition with unsupported | declared
    · simp [unsupported s] at allowed
    · have form : op.Documented "random" := by
        refine .random ?_ returns
        rw [inputs]
        rcases declared with rfl | rfl | rfl
        · exact .inl rfl
        · exact .inr (.inl rfl)
        · exact .inr (.inr rfl)
      obtain ⟨shape, hshape, _⟩ :=
        form.exists_shape_of_emits known (.generated generator allowed hvariant : op.Emits r _)
      exact ⟨shape, hshape⟩

/-- **Generators.** An operation with an encrypted result, all of whose inputs are declared by
types that say nothing of it, has for each encrypted type that supports it, lowest first, one
function for every list that its inputs give when their optional end is left off. The function has
the title of its type behind the operation's name and returns that type, and no two functions are
one overload. If the dispatcher knows the operation, then all these functions have bodies exactly if
there are none, or the inputs are nothing, a seed, or a seed and a zone. -/
theorem expand_of_neutral_inputs (r : Rules) (returns : op.returns = .encrypted)
    (inputs : op.inputs = types.map .fixed)
    (neutral : ∀ t ∈ types, t.scalar? = none ∧ t ≠ .fixed .bytes) :
    ∃ (supporting : List Scalar) (lists : List (List ValueType)) (sigs : List Signature),
      supporting.Pairwise (· < ·) ∧ (∀ s, s ∈ supporting ↔ r.allows s op.name = true) ∧
      OptionalInputs types lists ∧ op.expand r = .ok sigs ∧
      sigs = (supporting.flatMap fun s => lists.map fun inputs =>
        { family := .operation, operation := op.name,
          symbol := op.name ++ Text.capitalize s.encryptedName, inputs,
          returns := some (.encrypted s) }) ∧
      (sigs.map Signature.overloadKey).Nodup ∧
      (op.name ∈ Dispatcher.functionIds → ((∃ fs, Signature.renderAll sigs = .ok fs) ↔
        (∀ s, r.allows s op.name = false) ∨
          types = [] ∨ types = [.fixed .seed] ∨ types = [.fixed .seed, .fixed .zone])) := by
  have generator := isGenerator_of_neutral_inputs returns inputs neutral
  have check : op.checkPlainReturn = .ok () := by
    rw [checkPlainReturn, if_neg (by simp [returns])]
  refine ⟨Scalar.all.filter (r.allows · op.name), op.generatorInputs, op.expandGenerator r,
    Scalar.pairwise_lt_all.filter _, fun s => by simp [Scalar.mem_all], ?_,
    (expand_eq_ok_iff_of_generator generator).2 ⟨check, rfl⟩, ?_,
    nodup_overloadKey_expandGenerator op r, fun known => ?_⟩
  · rw [optionalInputs_iff, generatorInputs, fixedInputs_of_inputs_eq_map inputs]
  · simp only [Scalar.capitalize_encryptedName]
    rfl
  · exact exists_renderAll_expandGenerator_iff known returns inputs
      (fun t ht => (neutral t ht).1) generator

/-- Random values with a seed and a zone: three functions for each of the seven types that the
deployed dispatcher makes them of, all with a body. With a zone alone there are two for each type,
and not all of them have one. -/
theorem expand_of_neutral_inputs_random :
    let seeded : Operation :=
      { name := "random", inputs := [.fixed (.fixed .seed), .fixed (.fixed .zone)] }
    let zoned : Operation := { name := "random", inputs := [.fixed (.fixed .zone)] }
    (∃ sigs, seeded.expand .standard = .ok sigs ∧ sigs.length = 21 ∧
        ∃ fs, Signature.renderAll sigs = .ok fs) ∧
      ∃ sigs, zoned.expand .standard = .ok sigs ∧ sigs.length = 14 ∧
        ¬ ∃ fs, Signature.renderAll sigs = .ok fs := by
  intro seeded zoned
  constructor
  · have returns : seeded.returns = .encrypted := rfl
    have inputs : seeded.inputs = [.fixed .seed, .fixed .zone].map .fixed := rfl
    obtain ⟨_, _, sigs, _, _, _, made, _, _, renders⟩ :=
      expand_of_neutral_inputs .standard returns inputs (by decide)
    have expanded : seeded.expand .standard = .ok _ := rfl
    refine ⟨sigs, made, ?_, (renders (by decide)).2 (by simp)⟩
    rw [← Except.ok.inj (expanded.symm.trans made)]
    decide
  · have returns : zoned.returns = .encrypted := rfl
    have inputs : zoned.inputs = [.fixed .zone].map .fixed := rfl
    obtain ⟨_, _, sigs, _, _, _, made, _, _, renders⟩ :=
      expand_of_neutral_inputs .standard returns inputs (by decide)
    have expanded : zoned.expand .standard = .ok _ := rfl
    refine ⟨sigs, made, ?_, fun rendered => ?_⟩
    · rw [← Except.ok.inj (expanded.symm.trans made)]
      decide
    · have supports : Rules.standard.allows .uint8 zoned.name = true := by decide
      rcases (renders (by decide)).1 rendered with unsupported | declared
      · exact absurd supports (by rw [unsupported]; decide)
      · simp at declared

end FheSolidity.Operation
