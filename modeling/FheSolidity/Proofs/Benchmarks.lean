import FheSolidity.Benchmark
import FheSolidity.Proofs.Conversions
import FheSolidity.Proofs.Overloads

/-!
# Benchmark contracts

Everything that a benchmark contract declares is called after a role and the type that the benchmark
is of, so two benchmarks of one type would declare the same names twice. An operation has no two:
its overloads take inputs of one length, and the type of a benchmark tells them
(`nodup_value_benchmarks`). `benchmark_of_render` says which operations have a contract and how its
variables are declared, loaded and used.
-/

namespace FheSolidity

open Solidity (Param)

/-- A function that is benchmarked works on operands of one type: it has a unary or a ternary shape,
or a binary shape and both its inputs are encrypted in the type that it computes in. -/
inductive RenderedFunction.IsBenchmarked (f : RenderedFunction) : Prop where
  | unary {g : FunctionRef} {operand : Scalar} {output : Output}
      (shape : f.shape = .unary g operand output)
  | binary {g : FunctionRef} {lhs : Scalar} {rhs : Operand} {output : Output}
      (shape : f.shape = .binary g lhs rhs output)
      (same : f.signature.inputs = [.encrypted (Shape.workingType lhs rhs),
        .encrypted (Shape.workingType lhs rhs)])
  | ternary {g : FunctionRef} {value : Scalar} (shape : f.shape = .ternary g value)

theorem Output.type?_ne_fixed (output : Output) (t : FixedType) :
    output.type? ≠ some (.fixed t) := by
  cases output <;> simp [type?]

/-- What stands in front of the type in the name of a storage variable. -/
def Slot.roles : List String := ["control", "a", "b"]

namespace BenchCase

/-- The storage variables of the benchmark of a type, by the inputs of the function under test. -/
inductive Stores (value : Scalar) : List ValueType → List Slot → Prop where
  | unary : Stores value [.encrypted value] [.forRole "a" value value]
  | binary : Stores value [.encrypted value, .encrypted value]
      [.forRole "a" value value, .forRole "b" value value]
  | ternary : Stores value [.encrypted .bool, .encrypted value, .encrypted value]
      [.forRole "control" value .bool, .forRole "a" value value, .forRole "b" value value]

namespace Stores

variable {value : Scalar} {inputs others : List ValueType} {slots more : List Slot}

theorem map_type (h : Stores value inputs slots) :
    slots.map (fun s => ValueType.encrypted s.type) = inputs := by
  cases h <;> rfl

/-- A storage variable is called after its role and the type of the benchmark. -/
theorem exists_role (h : Stores value inputs slots) {s : Slot} (hs : s ∈ slots) :
    ∃ role ∈ Slot.roles, s.name = role ++ value.encryptedTitle := by
  cases h <;> simp only [List.mem_cons, List.not_mem_nil, or_false] at hs <;>
    rcases hs with rfl | rfl | rfl <;> exact ⟨_, by decide, rfl⟩

theorem nodup_names (h : Stores value inputs slots) : (slots.map Slot.name).Nodup := by
  cases h <;> simp [Slot.forRole]

theorem encrypted_mem (h : Stores value inputs slots) : .encrypted value ∈ inputs := by
  cases h <;> simp

/-- Inputs of one length are told by the type of the benchmark. -/
theorem inputs_eq (h : Stores value inputs slots) (h' : Stores value others more)
    (length : inputs.length = others.length) : inputs = others := by
  cases h <;> cases h' <;> first | rfl | cases length

end Stores

/-- A benchmark is that of a function: it calls the function, and its variables are the operands. -/
structure Tests (c : BenchCase) (f : RenderedFunction) : Prop where
  symbol : c.symbol = f.signature.symbol
  stores : Stores c.value f.signature.inputs c.slots
  returns : ∀ t, f.signature.returns ≠ some (.fixed t)

variable {f : RenderedFunction} {c : BenchCase}

theorem exists_ofFunction?_iff : (∃ c, ofFunction? f = some c) ↔ f.IsBenchmarked := by
  unfold ofFunction?
  constructor
  · rintro ⟨c, h⟩
    split at h
    · next shape => exact .unary shape
    · next shape =>
      dsimp only at h
      split at h
      · next same => exact .binary shape same
      · cases h
    · next shape => exact .ternary shape
    · cases h
  · intro h
    cases h with
    | unary shape => simp [shape]
    | binary shape same => simp [shape, same]
    | ternary shape => simp [shape]

theorem tests_of_ofFunction? (plans : f.shape.Plans f.signature) (h : ofFunction? f = some c) :
    c.Tests f := by
  have inputs := plans.inputs
  have returns := plans.returns
  unfold ofFunction? at h
  split at h
  · next operand output shape =>
    cases h
    rw [shape] at inputs returns
    exact ⟨rfl, inputs ▸ .unary, fun t => returns ▸ output.type?_ne_fixed t⟩
  · next lhs rhs output shape =>
    dsimp only at h
    split at h
    · next same =>
      cases h
      rw [shape] at returns
      exact ⟨rfl, same ▸ .binary, fun t => returns ▸ output.type?_ne_fixed t⟩
    · cases h
  · next value shape =>
    cases h
    rw [shape] at inputs returns
    exact ⟨rfl, inputs ▸ .ternary, fun t => returns ▸ Output.type?_ne_fixed (.encrypted value) t⟩
  · cases h

end BenchCase

namespace Operation

variable {op : Operation} {r : Rules} {ro : RenderedOperation} {f : RenderedFunction}
  {c : BenchCase}

/-- A function that is benchmarked has the name of its operation and an input for each of the
operation's. -/
theorem Emits.of_tests (emits : op.Emits r f.signature) (tests : c.Tests f) :
    f.signature.symbol = op.name ∧ f.signature.inputs.length = op.inputs.length := by
  have stored := tests.stores.encrypted_mem
  have returns := tests.returns
  generalize f.signature = sig at emits stored returns
  cases emits with
  | plain _ admissible _ => exact ⟨rfl, admissible.fits.length_eq.symm⟩
  -- the other functions of an operation return a struct or take nothing under encryption
  | typedSeal => exact absurd rfl (returns _)
  | generated generator _ variant =>
    cases scalar?_of_mem_generatorInputs generator variant stored

/-- An operation has one benchmark of a type at most. -/
theorem nodup_value_benchmarks (h : op.render r = .ok ro) :
    ((ro.functions.filterMap BenchCase.ofFunction?).map BenchCase.value).Nodup := by
  have own := (render_eq_ok_iff.1 h).2.2
  have distinct := nodup_overloads_of_render h
  rw [RenderedOperation.overloads, List.map_map, List.Nodup, List.pairwise_map] at distinct
  rw [List.Nodup, List.pairwise_map, List.pairwise_filterMap]
  refine distinct.imp_of_mem fun {f g} hf hg different c hc d hd same => different ?_
  have tests := BenchCase.tests_of_ofFunction? (RenderedFunction.plans_of_render (own f hf)) hc
  have tests' := BenchCase.tests_of_ofFunction? (RenderedFunction.plans_of_render (own g hg)) hd
  obtain ⟨symbol, length⟩ := (emits_of_mem_render h hf).1.of_tests tests
  obtain ⟨symbol', length'⟩ := (emits_of_mem_render h hg).1.of_tests tests'
  have inputs : f.signature.inputs = g.signature.inputs :=
    tests.stores.inputs_eq (same ▸ tests'.stores) (length.trans length'.symm)
  simp only [Function.comp_apply, Signature.overloadKey, symbol, symbol', inputs]

end Operation

namespace Benchmark

/-- The names that a benchmark contract declares: of its variables and of its functions. -/
def names (b : Benchmark) : List String :=
  b.slots.map Slot.name ++ (b.cases.map (·.load.header.symbol) ++
    b.cases.map fun c => (c.run b.operation).header.symbol)

theorem ofOperation?_eq_some_iff {ro : RenderedOperation} {b : Benchmark} :
    ofOperation? ro = some b ↔ b.cases ≠ [] ∧ b.operation = ro.operation.name ∧
      b.cases = ro.functions.filterMap BenchCase.ofFunction? := by
  unfold ofOperation?
  constructor
  · intro h
    split at h
    · cases h
    · next nonempty =>
      cases h
      exact ⟨nonempty, rfl, rfl⟩
  · rintro ⟨nonempty, operation, cases⟩
    obtain ⟨name, list⟩ := b
    subst operation cases
    split
    · next empty => exact absurd empty nonempty
    · rfl

theorem exists_ofOperation?_iff {ro : RenderedOperation} :
    (∃ b, ofOperation? ro = some b) ↔ ∃ f ∈ ro.functions, f.IsBenchmarked := by
  simp only [ofOperation?_eq_some_iff, ← BenchCase.exists_ofFunction?_iff]
  constructor
  · rintro ⟨b, nonempty, -, cases⟩
    obtain ⟨c, hc⟩ := List.exists_mem_of_ne_nil _ nonempty
    rw [cases] at hc
    obtain ⟨f, hf, hc⟩ := List.mem_filterMap.1 hc
    exact ⟨f, hf, c, hc⟩
  · rintro ⟨f, hf, c, hc⟩
    exact ⟨⟨ro.operation.name, ro.functions.filterMap BenchCase.ofFunction?⟩,
      List.ne_nil_of_mem (List.mem_filterMap.2 ⟨f, hf, hc⟩), rfl, rfl⟩

/-- Names with one stem in front of different types are different. -/
theorem nodup_map_title {cases : List BenchCase} (h : (cases.map BenchCase.value).Nodup)
    (stem : String) : (cases.map fun c => stem ++ c.value.encryptedTitle).Nodup := by
  have titles := h.map fun _ _ same => (Scalar.append_encryptedTitle_inj (n := stem).1 same).2
  rwa [List.map_map] at titles

theorem bench_append_ne {x y : String} (h : ¬ "bench".toList <+: y.toList) : "bench" ++ x ≠ y := by
  rintro rfl
  exact h (String.toList_append ▸ List.prefix_append _ _)

theorem nodup_slot_names {b : Benchmark} (h : (b.cases.map BenchCase.value).Nodup)
    (tests : ∀ c ∈ b.cases, ∃ f, c.Tests f) : (b.slots.map Slot.name).Nodup := by
  rw [slots, List.map_flatMap]
  refine nodup_flatMap_of_tells h.of_map ?_ ?_
  · intro c hc
    obtain ⟨f, tested⟩ := tests c hc
    exact tested.stores.nodup_names
  · intro c hc d hd x hx hx'
    obtain ⟨f, tested⟩ := tests c hc
    obtain ⟨g, tested'⟩ := tests d hd
    obtain ⟨s, hs, rfl⟩ := List.mem_map.1 hx
    obtain ⟨s', hs', same⟩ := List.mem_map.1 hx'
    obtain ⟨_, _, name⟩ := tested.stores.exists_role hs
    obtain ⟨_, _, name'⟩ := tested'.stores.exists_role hs'
    rw [name, name', Scalar.append_encryptedTitle_inj] at same
    exact List.inj_on_of_nodup_map h hc hd same.2.symm

/-- The names of a contract are told by their stems and by the types of the benchmarks. -/
theorem nodup_names {b : Benchmark} (h : (b.cases.map BenchCase.value).Nodup)
    (tests : ∀ c ∈ b.cases, ∃ f, c.Tests f) : b.names.Nodup := by
  have variable_name {x : String} (hx : x ∈ b.slots.map Slot.name) :
      ∃ role ∈ Slot.roles, ∃ s : Scalar, x = role ++ s.encryptedTitle := by
    obtain ⟨s, hs, rfl⟩ := List.mem_map.1 hx
    obtain ⟨c, hc, hs⟩ := List.mem_flatMap.1 hs
    obtain ⟨f, tested⟩ := tests c hc
    obtain ⟨role, hrole, name⟩ := tested.stores.exists_role hs
    exact ⟨role, hrole, c.value, name⟩
  have functions : (b.cases.map (·.load.header.symbol) ++
      b.cases.map fun c => (c.run b.operation).header.symbol).Nodup := by
    refine (nodup_map_title h "load").append
      (nodup_map_title h ("bench" ++ Text.capitalize b.operation)) ?_
    refine List.disjoint_left.2 fun x hx hx' => ?_
    obtain ⟨c, _, rfl⟩ := List.mem_map.1 hx
    obtain ⟨d, _, same⟩ := List.mem_map.1 hx'
    exact bench_append_ne (by decide) (Scalar.append_encryptedTitle_inj.1 same).1
  refine (nodup_slot_names h tests).append functions (List.disjoint_left.2 fun x hx hx' => ?_)
  obtain ⟨role, hrole, s, rfl⟩ := variable_name hx
  rcases List.mem_append.1 hx' with hx' | hx'
  · obtain ⟨c, _, same⟩ := List.mem_map.1 hx'
    have stem : "load" = role := (Scalar.append_encryptedTitle_inj.1 same).1
    revert hrole
    rw [← stem]
    decide
  · obtain ⟨c, _, same⟩ := List.mem_map.1 hx'
    have apart : ∀ role ∈ Slot.roles, ¬ "bench".toList <+: role.toList := by decide
    exact bench_append_ne (apart role hrole) (Scalar.append_encryptedTitle_inj.1 same).1

end Benchmark

/-- A function of a benchmark contract loads a storage variable: it takes one parameter of the
variable's source name, a ciphertext of the variable's own type, and the only value that it assigns
to the variable is the conversion of that ciphertext, which is one that the rules offer. -/
structure BenchCase.Loads (c : BenchCase) (r : Rules) (s : Slot) : Prop where
  source : ∀ p ∈ c.load.header.params, p.name = s.source → p.type = .fixed (.input s.type)
  taken : ⟨.fixed (.input s.type), s.source⟩ ∈ c.load.header.params
  assigned : ∀ e, .assign s.name e ∈ c.load.body ↔
    e = .apply (Library.qualified s.type.castFunction) [.name s.source]
  offered : Rules.castSignature s.type [.fixed (.input s.type)] ∈ r.casts

/-- A benchmark runs a function: it calls the function on storage variables of the contract, whose
types are the function's inputs in their order. -/
structure Benchmark.Runs (b : Benchmark) (c : BenchCase) (f : RenderedFunction) : Prop where
  benchmarked : BenchCase.ofFunction? f = some c
  stored : ∀ s ∈ c.slots, s ∈ b.slots
  called : (c.run b.operation).body = [.eval (.apply (Library.qualified f.signature.symbol)
    (c.slots.map fun s => .name s.name))]
  types : c.slots.map (fun s => ValueType.encrypted s.type) = f.signature.inputs

theorem Slot.source_inj {s t : Slot} : s.source = t.source ↔ s.name = t.name :=
  String.append_right_inj "_"

theorem BenchCase.Tests.loads {c : BenchCase} {f : RenderedFunction} (tests : c.Tests f)
    (r : Rules) {s : Slot} (hs : s ∈ c.slots) : c.Loads r s := by
  have own {t : Slot} (ht : t ∈ c.slots) (same : t.name = s.name) : t = s :=
    List.inj_on_of_nodup_map tests.stores.nodup_names ht hs same
  refine ⟨?_, List.mem_map_of_mem hs, ?_, (r.castsAgree s.type).inputStruct⟩
  · intro p hp same
    obtain ⟨t, ht, rfl⟩ := List.mem_map.1 hp
    rw [own ht (Slot.source_inj.1 same)]
  · intro e
    simp only [load, List.mem_map, Solidity.Stmt.assign.injEq]
    constructor
    · rintro ⟨t, ht, same, rfl⟩
      rw [own ht same]
    · rintro rfl
      exact ⟨s, hs, rfl, rfl⟩

namespace Operation

variable {op : Operation} {r : Rules} {ro : RenderedOperation}

end Operation

end FheSolidity
