import FheSolidity.Abi
import FheSolidity.Proofs.Expansion.Success
import FheSolidity.Proofs.TestContracts.Branches

/-!
# Outputs of a test contract

A test function declares one output for all its branches, and each branch returns what it makes of
its own call. `Operation.returnsBytes` reads off an operation whether its functions return bytes,
and all of them agree with it, so that one declaration can fit every branch. `ReturnsType` is the
typing of the few statements that branches consist of.
-/

namespace FheSolidity

open Solidity (Expr Stmt)

/-- Whether values of a type are handed back as bytes: byte strings are, and so are structs of
sealed data, which hold one. -/
def ValueType.holdsBytes : ValueType → Bool
  | .fixed .bytes | .fixed (.sealed _) => true
  | _ => false

theorem RenderedFunction.returnsBytes_eq_any (f : RenderedFunction) :
    f.returnsBytes = f.signature.returns.any ValueType.holdsBytes := by
  unfold returnsBytes
  split
  · next h => rw [h]; rfl
  · next h => rw [h]; rfl
  · next notBytes notSealed =>
    cases returns : f.signature.returns with
    | none => rfl
    | some t =>
      cases t with
      | encrypted | plain => rfl
      | fixed t =>
        cases t with
        | bytes => exact absurd returns notBytes
        | sealed family => exact absurd returns (notSealed family)
        | bytes32 | seed | zone | input => rfl

/-! ### Functions of one operation -/

/-- The inputs of a planned function tell whether it returns bytes: only sealing does, and nothing
else takes an encrypted value with a key. -/
theorem Shape.Plans.returns_holdsBytes_iff {shape : Shape} {sig : Signature} (h : shape.Plans sig) :
    sig.returns.any ValueType.holdsBytes = true ↔
      ∃ (s : Scalar) (key : KeyType), sig.inputs = [.encrypted s, .fixed key.type] := by
  rw [← h.returns, ← h.inputs]
  cases shape with
  | unary f operand output =>
    cases output <;> simp [Shape.returns, Shape.inputs, Output.type?, ValueType.holdsBytes]
  | binary f lhs rhs output =>
    cases rhs <;> cases output <;>
      simp [Shape.returns, Shape.inputs, Output.type?, Operand.type, ValueType.holdsBytes]
  | ternary f value => simp [Shape.returns, Shape.inputs, ValueType.holdsBytes]
  | sealing f operand key typed =>
    cases typed <;> simp [Shape.returns, Shape.inputs, sealedType, ValueType.holdsBytes]
  | cast f target source =>
    cases source with
    | plain p zoned =>
      cases zoned <;>
        simp [Shape.returns, Shape.inputs, CastSource.inputs, ValueType.holdsBytes]
    | encrypted | ciphertext | inputStruct =>
      simp [Shape.returns, Shape.inputs, CastSource.inputs, ValueType.holdsBytes]
  | random f target form =>
    cases form <;>
      simp [Shape.returns, Shape.inputs, RandomForm.inputs, RandomForm.isSeeded,
        RandomForm.isZoned, ValueType.holdsBytes]

namespace Operation

/-- Whether the functions of an operation return bytes. They do if that is declared, and also if
an encrypted result is declared of byte strings. -/
def returnsBytes (op : Operation) : Bool :=
  match op.returns with
  | .explicit t => t.holdsBytes
  | .encrypted => op.inputs.contains (.fixed (.fixed .bytes))
  | .plain | .nothing => false

variable {op : Operation} {r : Rules} {ro : RenderedOperation} {tuple : List ValueType}
  {returns : Option ValueType}

/-- A byte string stands only where it is declared. -/
theorem bytes_mem_iff_of_fits (fits : List.Forall₂ (r.Fits op.name) op.inputs tuple) :
    .fixed .bytes ∈ tuple ↔ .fixed (.fixed .bytes) ∈ op.inputs := by
  constructor
  · intro mem
    obtain ⟨kind, hkind, fit⟩ := exists_of_forall₂_of_mem_right fits mem
    cases fit
    exact hkind
  · intro mem
    obtain ⟨t, ht, fit⟩ := exists_of_forall₂_of_mem_left fits mem
    cases fit
    exact ht

/-- What a tuple yields holds bytes if the operation returns them. -/
theorem Yields.any_holdsBytes (h : op.Yields tuple returns)
    (fits : List.Forall₂ (r.Fits op.name) op.inputs tuple) :
    returns.any ValueType.holdsBytes = op.returnsBytes := by
  have bytes := bytes_mem_iff_of_fits fits
  cases h with
  | plain declared | explicit declared | nothing declared =>
    simp [returnsBytes, declared, ValueType.holdsBytes]
  | bytes declared mem =>
    simp [returnsBytes, declared, ValueType.holdsBytes, bytes.1 mem]
  | promoted declared notMem =>
    have undeclared : .fixed (.fixed .bytes) ∉ op.inputs := fun mem => notMem (bytes.2 mem)
    simp [returnsBytes, declared, ValueType.holdsBytes, undeclared]

/-- Generators are not declared of byte strings. -/
theorem returnsBytes_of_generator (hgen : op.isGenerator = true) : op.returnsBytes = false := by
  rw [isGenerator, Bool.and_eq_true, beq_iff_eq, List.all_eq_true] at hgen
  obtain ⟨declared, neutral⟩ := hgen
  have undeclared : .fixed (.fixed .bytes) ∉ op.inputs := fun mem =>
    absurd (neutral _ mem) (by decide)
  simp [returnsBytes, declared, undeclared]

/-- **Functions of an operation agree on bytes.** The tagged variant of sealing, whose result is
declared nowhere, has the inputs of an untagged function, which could not be planned unless it
returned bytes itself. -/
theorem returnsBytes_eq_of_mem (h : op.render r = .ok ro) {f : RenderedFunction}
    (hf : f ∈ ro.functions) : f.returnsBytes = op.returnsBytes := by
  obtain ⟨_, expands, own⟩ := render_eq_ok_iff.1 h
  rw [RenderedFunction.returnsBytes_eq_any]
  have emits := (emits_of_mem_render h hf).1
  have plans := RenderedFunction.plans_of_render (own f hf)
  generalize f.signature = sig at emits plans
  cases emits with
  | plain _ admissible yields => exact yields.any_holdsBytes admissible.fits
  | generated generator => rw [returnsBytes_of_generator generator]; rfl
  | typedSeal notGenerator _ _ admissible =>
    have check := ((expand_eq_ok_iff_of_not_generator notGenerator).1 expands).1
    obtain ⟨returns, yields⟩ := exists_yields_of_fits check notGenerator admissible.fits
    have emits' : op.Emits r (.ofOperation op.name _ returns) :=
      .plain notGenerator admissible yields
    obtain ⟨g, hg, untagged⟩ := List.mem_map.1 ((mem_expand_iff expands).2 emits')
    have plans' := RenderedFunction.plans_of_render (own g hg)
    rw [untagged] at plans'
    rw [← yields.any_holdsBytes admissible.fits, Bool.eq_iff_iff]
    exact plans.returns_holdsBytes_iff.trans plans'.returns_holdsBytes_iff.symm

end Operation

/-! ### Return statements -/

/-- The types of the expressions that are made from a call whose type is `t`, if it has one. -/
inductive Solidity.HasType (call : Expr) (t : Option ValueType) : Expr → ValueType → Prop where
  | call {u : ValueType} (returns : t = some u) : HasType call t call u
  | number (n : Nat) : HasType call t (.number n) (.plain .uint256)
  /-- Decrypting a handle gives its value in the clear. -/
  | decrypted {e : Expr} {s : Scalar} (handle : HasType call t e (.encrypted s)) :
      HasType call t (.apply (Library.qualified "decrypt") [e]) (.plain s)
  /-- A struct of sealed data has a field of bytes. -/
  | data {e : Expr} {family : SealFamily} (struct : HasType call t e (.fixed (.sealed family))) :
      HasType call t (.member e "data") (.fixed .bytes)
  /-- Every number converts to a word. -/
  | word {e : Expr} {s : Scalar} (value : HasType call t e (.plain s)) (notBool : s ≠ .bool)
      (notAddress : s ≠ .address) : HasType call t (.apply "uint256" [e]) (.plain .uint256)
  /-- An address only converts to the number of its own width, and that to a word. -/
  | addressWord {e : Expr} (value : HasType call t e (.plain .address)) :
      HasType call t (.apply "uint256" [.apply "uint160" [e]]) (.plain .uint256)

/-- Statements that are run after a call of type `t` return a value of type `u` in every case. -/
inductive Solidity.ReturnsType (call : Expr) (t : Option ValueType) (u : ValueType) :
    List Stmt → Prop where
  | ret {e : Expr} (value : HasType call t e u) : ReturnsType call t u [.ret e]
  | eval (e : Expr) {rest : List Stmt} (after : ReturnsType call t u rest) :
      ReturnsType call t u (.eval e :: rest)
  | ifThen {condition e : Expr} {rest : List Stmt}
      (decides : HasType call t condition (.plain .bool)) (value : HasType call t e u)
      (otherwise : ReturnsType call t u rest) :
      ReturnsType call t u (.ifThen condition (.ret e) :: rest)

open Solidity (HasType ReturnsType)

namespace Branch

variable {call e : Expr} {t : Option ValueType}

/-- A value in the clear is handed back as a word. -/
theorem returnsType_scalarResult {s : Scalar} (value : HasType call t e (.plain s)) :
    ReturnsType call t (.plain .uint256) (scalarResult s e) := by
  cases s with
  | bool => exact .ifThen value (.number 1) (.ret (.number 0))
  | address => exact .ret (.addressWord value)
  | uint256 => exact .ret value
  | uint8 | uint16 | uint32 | uint64 | uint128 =>
    exact .ret (.word value (by decide) (by decide))

/-- A result that holds bytes is handed back as bytes, and every other one as a word. -/
theorem returnsType_result (call : Expr) (t : Option ValueType) :
    ReturnsType call t (if t.any ValueType.holdsBytes then .fixed .bytes else .plain .uint256)
      (result call t) := by
  cases t with
  | none => exact .eval call (.ret (.number 0))
  | some u =>
    cases u with
    | encrypted s => exact returnsType_scalarResult (.decrypted (.call rfl))
    | plain s => exact returnsType_scalarResult (.call rfl)
    | fixed u =>
      cases u with
      | bytes => exact .ret (.call rfl)
      | sealed family => exact .ret (.data (.call rfl))
      | bytes32 | seed | zone | input => exact .eval call (.ret (.number 0))

end Branch

namespace TestContract

/-- The type of the output of a test function. -/
def outputType (c : TestContract) : ValueType :=
  if c.returnsBytes then .fixed .bytes else .plain .uint256

theorem outputDeclaration_eq (c : TestContract) :
    c.outputDeclaration = c.outputType.declaration ++ " output" := by
  unfold outputDeclaration outputType
  split
  · rfl
  · rfl

/-- The declaration file promises the TypeScript type of the output. -/
theorem promised_eq (c : TestContract) : Abi.promised c = Abi.tsType c.outputType := by
  unfold Abi.promised outputType
  split
  · rfl
  · rfl

variable {op : Operation} {r : Rules} {ro : RenderedOperation}

/-- A test contract with something to test declares bytes if its operation returns them. -/
theorem returnsBytes_ofOperation (h : op.render r = .ok ro) {f : RenderedFunction}
    (hf : f ∈ ro.functions) : (ofOperation ro).returnsBytes = f.returnsBytes := by
  have agree : ∀ g ∈ ro.functions, g.returnsBytes = f.returnsBytes := by
    intro g hg
    rw [Operation.returnsBytes_eq_of_mem h hg, Operation.returnsBytes_eq_of_mem h hf]
  change ro.functions.any RenderedFunction.returnsBytes = f.returnsBytes
  cases own : f.returnsBytes with
  | true => exact List.any_eq_true.2 ⟨f, hf, own⟩
  | false =>
    rw [List.any_eq_false]
    intro g hg
    rw [agree g hg, own]
    decide

end TestContract

end FheSolidity
