import FheSolidity.Proofs.Expansion.Generators
import FheSolidity.Proofs.Overloads
import FheSolidity.TestContract

/-!
# Branches of a test contract

The test contract of an operation has one list of parameters and calls every function of the
operation with arguments made from it, each function in up to three ways. `IsTestedBy` says in
which. Some function takes all inputs that the operation declares and the others take the first of
them, so one list of parameters serves them all: `supplied_of_mem_branches`.
-/

namespace FheSolidity

open Solidity (Expr)

theorem Operator.ofOperation?_eq_some_iff {operation : String} {o : Operator} :
    Operator.ofOperation? operation = some o ↔ o ∈ Operator.all ∧ o.operation = operation := by
  constructor
  · intro h
    unfold Operator.ofOperation? at h
    have name := List.find?_some h
    exact ⟨List.mem_of_find?_eq_some h, beq_iff_eq.1 name⟩
  · rintro ⟨ho, rfl⟩
    revert ho
    revert o
    decide

namespace RenderedFunction

variable {f : RenderedFunction} {s : Scalar} {operator : Option Operator}
  {params : List TestParam}

theorem isClosedBinary_iff : f.isClosedBinary s = true ↔
    f.signature.family = .operation ∧ f.signature.symbol = f.signature.operation ∧
      f.signature.inputs = [.encrypted s, .encrypted s] ∧
        f.signature.returns = some (.encrypted s) := by
  simp [isClosedBinary, and_assoc]

/-- The ways in which the test contract of an operation, which `operator` stands for, calls a
function. -/
inductive IsTestedBy (f : RenderedFunction) (operator : Option Operator) : CallForm → Prop where
  | direct : IsTestedBy f operator .direct
  | method {s : Scalar} {rest : List ValueType}
      (receiver : f.signature.inputs = .encrypted s :: rest)
      (tested : f.isTestedAsMethod = true) (binds : f.bindsTo s = true) :
      IsTestedBy f operator .method
  | operator {s : Scalar} {o : Operator} (stands : operator = some o) (notBool : s ≠ .bool)
      (closed : f.isClosedBinary s = true) : IsTestedBy f operator (.operator o.symbol)

/-- The branches for a function call it with the same arguments in every way that it is tested. -/
theorem mem_branches_iff {b : Branch} : b ∈ f.branches operator params ↔
    f.IsTestedBy operator b.form ∧ b.signature = f.signature ∧
      b.arguments = List.zipWith TestParam.argument f.signature.inputs params := by
  obtain ⟨form, signature, arguments⟩ := b
  simp only [branches, List.mem_cons, Branch.mk.injEq]
  constructor
  · rintro (⟨rfl, rfl, rfl⟩ | h)
    · exact ⟨.direct, rfl, rfl⟩
    · split at h
      · next s rest receiver =>
        rcases List.mem_append.1 h with h | h
        · split at h
          · next tested =>
            rw [Bool.and_eq_true] at tested
            cases List.mem_singleton.1 h
            exact ⟨.method receiver tested.1 tested.2, rfl, receiver ▸ rfl⟩
          · cases h
        · split at h
          · next o =>
            split at h
            · next closed =>
              rw [Bool.and_eq_true, bne_iff_ne] at closed
              cases List.mem_singleton.1 h
              exact ⟨.operator rfl closed.1 closed.2, rfl, receiver ▸ rfl⟩
            · cases h
          · cases h
      · cases h
  · rintro ⟨tested, rfl, rfl⟩
    cases tested with
    | direct => exact .inl ⟨rfl, rfl, rfl⟩
    | method receiver tested binds =>
      refine .inr ?_
      simp [receiver, tested, binds]
    | operator stands notBool closed =>
      have inputs := (isClosedBinary_iff.1 closed).2.2.1
      refine .inr ?_
      simp [inputs, stands, notBool, closed]

end RenderedFunction

theorem TestContract.mem_branches_ofOperation_iff {ro : RenderedOperation} {b : Branch} :
    b ∈ (TestContract.ofOperation ro).branches ↔ ∃ f ∈ ro.functions,
      f.IsTestedBy (Operator.ofOperation? ro.operation.name) b.form ∧ b.signature = f.signature ∧
        b.arguments = List.zipWith TestParam.argument f.signature.inputs
          (TestParam.ofKinds ro.operation.inputs) := by
  simp only [TestContract.ofOperation, List.mem_flatMap, RenderedFunction.mem_branches_iff]

/-! ### Inputs of the functions of one operation -/

namespace Operation

variable {op : Operation} {r : Rules} {ro : RenderedOperation}

/-- All inputs of a generator are declared by their types. -/
theorem forall₂_fits_fixedInputs (hgen : op.isGenerator = true) :
    List.Forall₂ (r.Fits op.name) op.inputs op.fixedInputs := by
  simp only [isGenerator, Bool.and_eq_true, List.all_eq_true] at hgen
  have neutral := hgen.2
  rw [fixedInputs]
  generalize op.inputs = kinds at neutral
  induction kinds with
  | nil => exact .nil
  | cons kind kinds ih =>
    have rest := ih fun k hk => neutral k (List.mem_cons_of_mem kind hk)
    cases kind with
    | encrypted | plain => exact absurd (neutral _ List.mem_cons_self) (by decide)
    | fixed t => exact .cons (.fixed t) rest

/-- Every signature of an operation takes the first inputs of one that takes all of them. -/
theorem Emits.exists_of_all_inputs {sig : Signature} (h : op.Emits r sig) :
    ∃ full, op.Emits r full ∧ List.Forall₂ (r.Fits op.name) op.inputs full.inputs ∧
      sig.inputs <+: full.inputs := by
  cases h with
  | plain notGenerator admissible yields =>
    exact ⟨_, .plain notGenerator admissible yields, admissible.fits, List.prefix_rfl⟩
  | typedSeal notGenerator seals offered admissible =>
    exact ⟨_, .typedSeal notGenerator seals offered admissible, admissible.fits, List.prefix_rfl⟩
  | generated generator allowed variant =>
    exact ⟨_, .generated generator allowed (self_mem_optionalEndings _ _),
      forall₂_fits_fixedInputs generator, prefix_of_mem_optionalEndings variant⟩

/-- Every function of an operation takes the first inputs of one that takes all of them. -/
theorem exists_function_of_all_inputs (h : op.render r = .ok ro) {f : RenderedFunction}
    (hf : f ∈ ro.functions) : ∃ g ∈ ro.functions,
      List.Forall₂ (r.Fits op.name) op.inputs g.signature.inputs ∧
        f.signature.inputs <+: g.signature.inputs := by
  have expands := (render_eq_ok_iff.1 h).2.1
  obtain ⟨full, emits, fits, starts⟩ := (emits_of_mem_render h hf).1.exists_of_all_inputs
  obtain ⟨g, hg, rfl⟩ := List.mem_map.1 ((mem_expand_iff expands).2 emits)
  exact ⟨g, hg, fits, starts⟩

end Operation

/-! ### Parameters -/

namespace TestParam

/-- The type of the parameter that an input is made from. Operands come as words in the clear. -/
def typeFor : ValueType → ValueType
  | .fixed t => .fixed t
  | .encrypted _ | .plain _ => .plain .uint256

/-- The parameter for an input of a given type. -/
def ofType (position : Nat) : ValueType → TestParam
  | .fixed t => ofFixed position t
  | .encrypted _ | .plain _ => ⟨.plain .uint256, operandName position⟩

@[simp] theorem type_ofType (position : Nat) (t : ValueType) :
    (ofType position t).type = typeFor t := by
  cases t <;> rfl

variable {r : Rules} {operation : String}

/-- What is declared of an input gives the same parameter as any type that may stand there. -/
theorem ofKind_of_fits {kind : InputKind} {t : ValueType} (h : r.Fits operation kind t)
    (position : Nat) : ofKind position kind = ofType position t := by
  cases h with
  | encrypted | plain => rfl
  | fixed => cases t <;> rfl

theorem ofKinds_of_fits {kinds : List InputKind} {types : List ValueType}
    (h : List.Forall₂ (r.Fits operation) kinds types) : ofKinds kinds = types.mapIdx ofType := by
  rw [ofKinds]
  apply List.ext_getElem
  · rw [List.length_mapIdx, List.length_mapIdx, h.length_eq]
  · intro i hi hi'
    rw [List.length_mapIdx] at hi hi'
    rw [List.getElem_mapIdx, List.getElem_mapIdx]
    exact ofKind_of_fits (h.get hi hi') i

/-- The parameters for the inputs of a planned function differ in their names, and none has the name
of the selector. -/
theorem nodup_names_of_shape {shape : Shape} (h : shape.family = .operation) :
    ("test" :: (shape.inputs.mapIdx ofType).map name).Nodup := by
  cases shape with
  | unary | ternary =>
    simp only [Shape.inputs, List.mapIdx_cons, List.mapIdx_nil, List.map, ofType]
    decide
  | binary f lhs rhs output =>
    cases rhs <;>
      · simp only [Shape.inputs, Operand.type, List.mapIdx_cons, List.mapIdx_nil, List.map, ofType]
        decide
  | sealing f operand key typed =>
    simp only [Shape.inputs, List.mapIdx_cons, List.mapIdx_nil, List.map, ofType]
    cases key <;> decide
  | cast => cases h
  | random f target form =>
    change ("test" :: (form.inputs.mapIdx ofType).map name).Nodup
    cases form <;> decide

end TestParam

/-- An argument for an input is made from a parameter. An operand comes as a word in the clear,
which is encrypted or brought to the type of the operand: a truth value is whether the word is not
zero, and an address the lower part of it. Anything else comes in its own type, and as it is. -/
inductive TestParam.Supplies (p : TestParam) : ValueType → Expr → Prop where
  | encrypted (s : Scalar) (word : p.type = .plain .uint256) :
      p.Supplies (.encrypted s) (.apply ("FHE.asE" ++ s.name) [.name p.name])
  | bool (word : p.type = .plain .uint256) :
      p.Supplies (.plain .bool) (.operator "!=" (.name p.name) (.number 0))
  | narrow {s : Scalar} (word : p.type = .plain .uint256)
      (integer : s ∈ [.uint8, .uint16, .uint32, .uint64, .uint128]) :
      p.Supplies (.plain s) (.apply s.name [.name p.name])
  | uint256 (word : p.type = .plain .uint256) : p.Supplies (.plain .uint256) (.name p.name)
  | address (word : p.type = .plain .uint256) :
      p.Supplies (.plain .address) (.apply "address" [.apply "uint160" [.name p.name]])
  | fixed {t : FixedType} (own : p.type = .fixed t) : p.Supplies (.fixed t) (.name p.name)

theorem TestParam.supplies_argument {p : TestParam} {t : ValueType} (type : p.type = typeFor t) :
    p.Supplies t (p.argument t) := by
  cases t with
  | encrypted s =>
    have cast : Library.qualified s.castFunction = "FHE.asE" ++ s.name := by cases s <;> rfl
    rw [argument, cast]
    exact .encrypted s type
  | plain s =>
    cases s with
    | bool => exact .bool type
    | uint8 | uint16 | uint32 | uint64 | uint128 => exact .narrow type (by decide)
    | uint256 => exact .uint256 type
    | address => exact .address type
  | fixed => exact .fixed type

/-- A branch passes one argument for each input of what it calls, made from the parameter at the
same position. -/
structure Branch.IsSuppliedBy (b : Branch) (params : List TestParam) : Prop where
  length : b.arguments.length = b.signature.inputs.length
  argument : ∀ i (hi : i < b.signature.inputs.length), ∃ p e, params[i]? = some p ∧
    b.arguments[i]? = some e ∧ p.Supplies b.signature.inputs[i] e

namespace Branch

/-- The parameters for some inputs supply whatever takes the first of these inputs. -/
theorem isSuppliedBy_of_prefix {b : Branch} {full : List ValueType}
    (starts : b.signature.inputs <+: full) (made : b.arguments =
      List.zipWith TestParam.argument b.signature.inputs (full.mapIdx TestParam.ofType)) :
    b.IsSuppliedBy (full.mapIdx TestParam.ofType) := by
  refine ⟨?_, fun i hi => ?_⟩
  · rw [made, List.length_zipWith, List.length_mapIdx]
    exact Nat.min_eq_left starts.length_le
  · have hfull : i < full.length := hi.trans_le starts.length_le
    have param : (full.mapIdx TestParam.ofType)[i]? =
        some (TestParam.ofType i b.signature.inputs[i]) := by
      rw [List.getElem?_mapIdx, List.getElem?_eq_getElem hfull, starts.getElem hi]
      rfl
    have passed : b.arguments[i]? = some (TestParam.argument b.signature.inputs[i]
        (TestParam.ofType i b.signature.inputs[i])) := by
      rw [made, List.getElem?_zipWith, param, List.getElem?_eq_getElem hi]
    exact ⟨_, _, param, passed, TestParam.supplies_argument (TestParam.type_ofType i _)⟩

end Branch

namespace TestContract

variable {op : Operation} {r : Rules} {ro : RenderedOperation}

/-- A test contract supplies its branches. -/
theorem isSuppliedBy_of_mem_branches (h : op.render r = .ok ro) {b : Branch}
    (hb : b ∈ (ofOperation ro).branches) : b.IsSuppliedBy (ofOperation ro).params := by
  obtain ⟨f, hf, _, called, made⟩ := mem_branches_ofOperation_iff.1 hb
  obtain ⟨g, _, fits, starts⟩ := Operation.exists_function_of_all_inputs h hf
  have params : TestParam.ofKinds ro.operation.inputs =
      g.signature.inputs.mapIdx TestParam.ofType := by
    rw [(Operation.render_eq_ok_iff.1 h).1]
    exact TestParam.ofKinds_of_fits fits
  rw [params, ← called] at made
  rw [ofOperation, params]
  exact Branch.isSuppliedBy_of_prefix (called ▸ starts) made

/-- All parameters of a test function that has something to test differ in their names. -/
theorem nodup_names (h : op.render r = .ok ro) (tests : ro.functions ≠ []) :
    ("test" :: (ofOperation ro).params.map TestParam.name).Nodup := by
  obtain ⟨f, hf⟩ := List.exists_mem_of_ne_nil _ tests
  obtain ⟨g, hg, fits, _⟩ := Operation.exists_function_of_all_inputs h hf
  obtain ⟨same, _, own⟩ := Operation.render_eq_ok_iff.1 h
  have plans := RenderedFunction.plans_of_render (own g hg)
  have family : g.shape.family = .operation :=
    plans.family.trans (Operation.emits_of_mem_render h hg).1.family
  have names := TestParam.nodup_names_of_shape family
  rw [plans.inputs, ← TestParam.ofKinds_of_fits fits] at names
  rw [ofOperation, same]
  exact names

end TestContract

end FheSolidity
