import FheSolidity.Proofs.Catalog.Extraction
import FheSolidity.Proofs.Guards

/-!
# Tagged sealing

The body of tagged sealing hands its operand on to the function that has the name of the operation
and tags the bytes that come back. A catalog gets such a body for the seal operation, which then
has the untagged function too, but also for any other operation that declares a sealed struct as
its result. `delegate_of_isTagged` says which function is called in either case.
-/

namespace FheSolidity

open Solidity (Expr)

/-- The overload that a function which tags its result hands its operand on to. -/
def RenderedFunction.delegate (f : RenderedFunction) : OverloadKey where
  symbol := f.signature.operation
  inputs := f.signature.inputs.map ValueType.name

/-- Tagged sealing returns a struct of sealed data. -/
theorem Shape.Plans.returns_of_isTagged {shape : Shape} {sig : Signature} (h : shape.Plans sig)
    (tagged : shape.isTagged = true) :
    sig.family = .operation ∧ ∃ family, sig.returns = some (.fixed (.sealed family)) := by
  cases shape with
  | unary | binary | ternary | cast | random => cases tagged
  | sealing f operand key typed =>
    cases typed with
    | false => cases tagged
    | true => exact ⟨h.family.symm, operand.sealFamily, h.returns.symm⟩

namespace RenderedFunction

variable {f : RenderedFunction}

/-- The body of tagged sealing is one call on the parameters of the function. -/
theorem body_of_isTagged (h : f.signature.render = .ok f) (tagged : f.shape.isTagged = true) :
    ∃ struct tag, f.decl.body =
      [.ret (.struct struct [.field "data" (.apply f.signature.operation
        (f.decl.header.params.map fun p => Expr.name p.name)), .field "utype" tag])] := by
  have inputs := (plans_of_render h).inputs
  rw [decl_of_render h, Shape.declare, ← inputs]
  generalize f.shape = shape at tagged
  cases shape with
  | unary | binary | ternary | cast | random => cases tagged
  | sealing f operand key typed =>
    cases typed with
    | false => cases tagged
    | true => exact ⟨operand.sealFamily.name, Shape.tag operand, rfl⟩

end RenderedFunction

namespace Operation

variable {op : Operation} {r : Rules} {sig : Signature} {family : SealFamily}

/-- Apart from the tagged variant of sealing, only a declared result is a struct of sealed data. -/
theorem Emits.of_returns_sealed (h : op.Emits r sig)
    (returns : sig.returns = some (.fixed (.sealed family))) :
    (sig.symbol = op.name ∧ op.returns = .explicit (.fixed (.sealed family))) ∨
      Rules.isSeal op.name = true ∧ op.isGenerator = false ∧ op.Admissible r sig.inputs := by
  cases h with
  | generated => cases returns
  | typedSeal notGenerator seals _ admissible => exact .inr ⟨seals, notGenerator, admissible⟩
  | plain _ _ yields =>
    cases returns
    cases yields with
    | explicit declared => exact .inl ⟨rfl, declared⟩

/-- An operation with a declared result has a function of its own name for every admissible
tuple. -/
theorem exists_function_of_explicit {ro : RenderedOperation} {tuple : List ValueType}
    {t : ValueType} (h : op.render r = .ok ro) (notGenerator : op.isGenerator = false)
    (admissible : op.Admissible r tuple) (declared : op.returns = .explicit t) :
    ∃ g ∈ ro.functions, g.signature = .ofOperation op.name tuple (some t) := by
  have emits : op.Emits r (.ofOperation op.name tuple (some t)) :=
    .plain notGenerator admissible (.explicit declared)
  exact List.mem_map.1 ((mem_expand_iff (render_eq_ok_iff.1 h).2.1).2 emits)

end Operation

namespace Surface

variable {text : String} {r : Rules} {ops : List Operation} {choice : ErrorChoice}
  {surface : Surface} {f g : RenderedFunction}

/-- On a surface that was built an overload is one function. -/
theorem eq_of_overloadKey_eq (h : Surface.build r ops choice = .ok surface)
    (hf : f ∈ surface.functions) (hg : g ∈ surface.functions)
    (same : f.signature.overloadKey = g.signature.overloadKey) : f = g := by
  have distinct := (build_eq_ok_iff.1 h).2
  rw [signatures, List.map_map] at distinct
  exact List.inj_on_of_nodup_map distinct hf hg same

/-- One function with an overload settles which functions have it. -/
theorem overloadKey_eq_iff (h : Surface.build r ops choice = .ok surface)
    (hg : g ∈ surface.functions) {k : OverloadKey} (called : g.signature.overloadKey = k) :
    ∀ f ∈ surface.functions, f.signature.overloadKey = k ↔ f = g := by
  intro f hf
  constructor
  · intro same
    exact eq_of_overloadKey_eq h hf hg (same.trans called.symm)
  · rintro rfl
    exact called

/-- A function of a surface that is no conversion comes from an operation. -/
theorem exists_operation_of_family (h : Surface.ofOperations r ops choice = .ok surface)
    (hf : f ∈ surface.functions) (family : f.signature.family = .operation) :
    ∃ ro ∈ surface.operations, f ∈ ro.functions := by
  rcases List.mem_append.1 hf with hf | hf
  · exact List.mem_flatMap.1 hf
  · have cast : f.signature ∈ r.casts :=
      (ofOperations_eq_ok_iff.1 h).2.1 ▸ List.mem_map_of_mem hf
    obtain ⟨_, _, _, heq⟩ := Rules.mem_casts_iff.1 cast
    rw [heq] at family
    cases family

/-- **What tagged sealing calls.** On the surface of a catalog, a function that tags its result
calls a function of its operation's name on its own parameters. Exactly one function of the surface
is meant by that, and it has the same inputs. For the seal operation it is another function, which
returns bytes. For any other operation, which has then declared its result to be a struct of sealed
data, it is the calling function itself. -/
theorem delegate_of_isTagged (read : Catalog.extract text = .ok ops)
    (built : Surface.build r ops choice = .ok surface) (hf : f ∈ surface.functions)
    (tagged : f.shape.isTagged = true) :
    (∃ struct tag, f.decl.body =
      [.ret (.struct struct [.field "data" (.apply f.signature.operation
        (f.decl.header.params.map fun p => Expr.name p.name)), .field "utype" tag])]) ∧
    ∃ g ∈ surface.functions,
      (∀ g' ∈ surface.functions, g'.signature.overloadKey = f.delegate ↔ g' = g) ∧
      g.signature.inputs = f.signature.inputs ∧
      (f.signature.operation = Rules.sealOperation →
        g ≠ f ∧ g.signature.returns = some (.fixed .bytes)) ∧
      (f.signature.operation ≠ Rules.sealOperation → g = f ∧ ∃ op ∈ ops,
        op.name = f.signature.operation ∧
          ∃ family, op.returns = .explicit (.fixed (.sealed family))) := by
  have made := (build_eq_ok_iff.1 built).1
  have own := render_of_mem_functions made hf
  refine ⟨RenderedFunction.body_of_isTagged own tagged, ?_⟩
  obtain ⟨family, sealed, returns⟩ :=
    (RenderedFunction.plans_of_render own).returns_of_isTagged tagged
  obtain ⟨ro, hro, hmem⟩ := exists_operation_of_family made hf family
  obtain ⟨hop, hrender⟩ := exists_render_of_mem_operations made hro
  have emits := (Operation.emits_of_mem_render hrender hmem).1
  have name := emits.operation
  by_cases seals : ro.operation.name = Rules.sealOperation
  · have sealing := Catalog.eq_sealing_of_mem_extract read hop seals
    rcases emits.of_returns_sealed returns with ⟨_, declared⟩ | ⟨_, notGenerator, admissible⟩
    · rw [sealing] at declared
      cases declared
    · -- The tuple that the tagged variant comes from has its untagged function as well.
      have declared : ro.operation.returns = .explicit (.fixed .bytes) := by rw [sealing]; rfl
      obtain ⟨g, hg, hsig⟩ :=
        Operation.exists_function_of_explicit hrender notGenerator admissible declared
      have hg : g ∈ surface.functions :=
        List.mem_append_left _ (List.mem_flatMap.2 ⟨ro, hro, hg⟩)
      have called : g.signature.overloadKey = f.delegate := by
        rw [hsig, RenderedFunction.delegate, name]
        rfl
      have inputs : g.signature.inputs = f.signature.inputs := by rw [hsig]; rfl
      have bytes : g.signature.returns = some (.fixed .bytes) := by rw [hsig]; rfl
      have other : g ≠ f := by
        rintro rfl
        rw [bytes] at returns
        cases returns
      exact ⟨g, hg, overloadKey_eq_iff built hg called, inputs, fun _ => ⟨other, bytes⟩,
        fun unsealed => absurd (name.trans seals) unsealed⟩
  · rcases emits.of_returns_sealed returns with ⟨symbol, declared⟩ | ⟨isSeal, _⟩
    · have called : f.signature.overloadKey = f.delegate := by
        rw [Signature.overloadKey, RenderedFunction.delegate, symbol, name]
      exact ⟨f, hf, overloadKey_eq_iff built hf called, rfl,
        fun sealed => absurd (name.symm.trans sealed) seals,
        fun _ => ⟨rfl, _, hop, name.symm, _, declared⟩⟩
    · exact absurd (beq_iff_eq.1 isSeal) seals

/-- A catalog that declares sealing under its other name: the tagged function for booleans calls
the untagged one. -/
theorem delegate_of_isTagged_reencrypt :
    ∃ surface, Catalog.extract "func Reencrypt(utype byte, value []byte, key []byte) {}\n" =
        .ok [Catalog.sealing] ∧
      Surface.build .standard [Catalog.sealing] = .ok surface ∧
      ∃ f ∈ surface.functions, f.shape.isTagged = true ∧
        f.signature.inputs = [.encrypted .bool, .fixed .bytes32] ∧
        f.signature.operation = Rules.sealOperation ∧
        ∃ g ∈ surface.functions, g.signature.overloadKey = f.delegate ∧ g ≠ f ∧
          g.signature.returns = some (.fixed .bytes) := by
  have read := Catalog.extract_reencrypt
  obtain ⟨surface, built, f, hf, tagged, inputs, operation⟩ : ∃ surface,
      Surface.build .standard [Catalog.sealing] = .ok surface ∧
      ∃ f ∈ surface.functions, f.shape.isTagged = true ∧
        f.signature.inputs = [.encrypted .bool, .fixed .bytes32] ∧
        f.signature.operation = Rules.sealOperation :=
    ⟨_, build_eq_ok_iff.2 ⟨rfl, by decide +kernel⟩, by decide +kernel⟩
  obtain ⟨g, hg, only, _, sealing, _⟩ := (delegate_of_isTagged read built hf tagged).2
  exact ⟨surface, read, built, f, hf, tagged, inputs, operation, g, hg, (only g hg).2 rfl,
    sealing operation⟩

/-- A catalog may declare a struct of sealed data as the result of another operation. The only
function of that name then calls itself. -/
theorem delegate_of_decrypt_self :
    let decrypt : Operation :=
      { name := "decrypt"
        inputs := [.fixed (.encrypted .uint32), .fixed (.fixed .bytes32)]
        returns := .explicit (.fixed (.sealed .uint)) }
    ∃ surface, Catalog.extract ("// Input1 type: euint32\n// Return type: SealedUint\n" ++
        "func Decrypt(utype byte, value []byte, publicKey [32]byte, tp *TxParams) " ++
        "([]byte, error) \x7b\n\x7d\n") = .ok [decrypt] ∧
      Surface.build .standard [decrypt] = .ok surface ∧
      ∃ f ∈ surface.functions, f.shape.isTagged = true ∧ f.signature.overloadKey = f.delegate ∧
        ¬∃ g ∈ surface.functions, g.signature.symbol = f.signature.operation ∧
          g.signature.inputs = f.signature.inputs ∧
          g.signature.returns = some (.fixed .bytes) := by
  exact ⟨_, by decide +kernel, build_eq_ok_iff.2 ⟨rfl, by decide +kernel⟩, by decide +kernel⟩

end Surface

end FheSolidity
