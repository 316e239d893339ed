import FheSolidity.Proofs.Conversions
import FheSolidity.Proofs.Scopes

/-!
# Guards

A body first replaces every encrypted parameter that was never set by an encryption of zero, for
which it calls the conversion from `uint256` to the parameter's own type. The rules need not offer
that conversion to encrypted addresses, and the expander does not ask for it: `zeros_resolve_iff`
says for which operations every such call has a conversion that it can mean.
-/

namespace FheSolidity

open Solidity (Expr Stmt Param)

namespace Shape

/-- Whether this plans sealing with a tagged result. -/
def isTagged : Shape → Bool
  | .sealing _ _ _ typed => typed
  | _ => false

variable {x y : String} {s t : Scalar}

@[simp] theorem guard_inj : guard x s = guard y t ↔ x = y ∧ s = t := by
  constructor
  · intro h
    simp only [guard, Expr.apply, Stmt.ifThen.injEq, Stmt.assign.injEq, Expr.call.injEq,
      Expr.name.injEq] at h
    exact ⟨h.2.1, Rules.castFunction_inj.1 h.2.2.1⟩
  · rintro ⟨rfl, rfl⟩
    rfl

@[simp] theorem guard_ne_word (value : Expr) : guard x s ≠ .word y value := by
  simp [guard]

@[simp] theorem guard_ne_ret (value : Expr) : guard x s ≠ .ret value := by
  simp [guard]

@[simp] theorem guard_not_mem_finish (call : Expr) (output : Output) :
    guard x s ∉ finish call output := by
  cases output <;> simp [finish, guard]

@[simp] theorem guard_mem_operandGuard_iff {operand : Operand} :
    guard x s ∈ operandGuard y operand ↔ operand.type = .encrypted s ∧ x = y := by
  cases operand <;> simp [operandGuard, Operand.type, and_comm, eq_comm]

/-- The guards of a body are those of the encrypted parameters. The tagged form of sealing has
none: it passes its operand on. -/
theorem guard_mem_body_iff (shape : Shape) (operation : String) :
    guard x s ∈ shape.body operation ↔ shape.isTagged = false ∧
      ⟨.encrypted s, x⟩ ∈ Solidity.paramsOf shape.inputs shape.paramNames := by
  cases shape with
  | unary f operand output =>
    simp [body, unaryBody, inputs, paramNames, Solidity.paramsOf, isTagged, and_comm]
  | binary f lhs rhs output =>
    simp [body, binaryBody, inputs, paramNames, Solidity.paramsOf, isTagged, and_comm, eq_comm]
  | ternary f value =>
    simp [body, ternaryBody, inputs, paramNames, Solidity.paramsOf, isTagged, and_comm]
  | sealing f operand key typed =>
    cases typed with
    | false => simp [body, sealingBody, inputs, paramNames, Solidity.paramsOf, isTagged, and_comm]
    | true => simp [body, typedSealingBody, isTagged]
  | cast f target source =>
    cases source with
    | encrypted source =>
      simp [body, castBody, inputs, CastSource.inputs, paramNames, Solidity.paramsOf, isTagged,
        and_comm]
    | plain p zoned =>
      cases zoned <;>
        simp [body, castBody, inputs, CastSource.inputs, paramNames, Solidity.paramsOf]
    | ciphertext | inputStruct =>
      simp [body, castBody, inputs, CastSource.inputs, paramNames, Solidity.paramsOf]
  | random f target form =>
    cases form <;>
      simp [body, randomBody, inputs, RandomForm.inputs, RandomForm.isSeeded, RandomForm.isZoned,
        paramNames, Solidity.paramsOf]

end Shape

namespace RenderedFunction

variable {f : RenderedFunction} {x : String} {s : Scalar}

/-- A rendered function guards its encrypted parameters, unless it tags what sealing returns. -/
theorem guard_mem_body_iff (h : f.signature.render = .ok f) :
    Shape.guard x s ∈ f.decl.body ↔
      f.shape.isTagged = false ∧ ⟨.encrypted s, x⟩ ∈ f.decl.header.params := by
  rw [decl_of_render h, Shape.declare, ← (plans_of_render h).inputs]
  exact f.shape.guard_mem_body_iff f.signature.operation

/-- An encrypted parameter stands at an encrypted input. -/
theorem exists_mem_params_iff (h : f.signature.render = .ok f) :
    (∃ x, ⟨.encrypted s, x⟩ ∈ f.decl.header.params) ↔ .encrypted s ∈ f.signature.inputs := by
  rw [← paramTypes_decl h, Solidity.Header.paramTypes, List.mem_map]
  constructor
  · rintro ⟨x, hx⟩
    exact ⟨_, hx, rfl⟩
  · rintro ⟨⟨type, x⟩, hx, rfl⟩
    exact ⟨x, hx⟩

end RenderedFunction

/-- The conversion that a guard calls is offered to every type but the encrypted address, which has
it if the rules name `uint256` among the sources of addresses. -/
theorem Rules.castSignature_word_mem_casts_iff {r : Rules} {s : Scalar} :
    castSignature s [.plain .uint256] ∈ r.casts ↔
      s ≠ .address ∨ .plain .uint256 ∈ r.addressSources := by
  have asks : r.ConvertsFrom s [.plain .uint256] ↔ r.canCast (.plain .uint256) s = true :=
    convertsFrom_castSource_iff (p := .uint256)
  rw [castSignature_mem_casts_iff, asks]
  by_cases address : s = .address
  · simp [canCast, convertsTo, address, Scalar.castSource]
  · simp [canCast, convertsTo, address, Scalar.castSource]

namespace Operation

variable {op : Operation} {r : Rules} {ro : RenderedOperation}

/-- **Zeros of uninitialized parameters.** The functions of an operation guard their encrypted
parameters and nothing else, apart from the tagged forms of sealing, which guard none. The zeros of
all these guards have a conversion from `uint256` to make them exactly if addresses are among what
`uint256` converts to, or no function with guards takes an encrypted address. -/
theorem zeros_resolve_iff (h : op.render r = .ok ro) :
    (∀ f ∈ ro.functions, ∀ x s, Shape.guard x s ∈ f.decl.body ↔
        f.shape.isTagged = false ∧ ⟨.encrypted s, x⟩ ∈ f.decl.header.params) ∧
      ((∀ f ∈ ro.functions, ∀ x s, Shape.guard x s ∈ f.decl.body →
          Rules.castSignature s [.plain .uint256] ∈ r.casts) ↔
        .plain .uint256 ∈ r.addressSources ∨
          ∀ f ∈ ro.functions, f.shape.isTagged = false →
            .encrypted .address ∉ f.signature.inputs) := by
  have own := (render_eq_ok_iff.1 h).2.2
  have guards : ∀ f ∈ ro.functions, ∀ x s, Shape.guard x s ∈ f.decl.body ↔
      f.shape.isTagged = false ∧ ⟨.encrypted s, x⟩ ∈ f.decl.header.params :=
    fun f hf x s => RenderedFunction.guard_mem_body_iff (own f hf)
  refine ⟨guards, ?_⟩
  simp only [Rules.castSignature_word_mem_casts_iff]
  constructor
  · intro resolve
    by_cases offered : .plain .uint256 ∈ r.addressSources
    · exact .inl offered
    · refine .inr fun f hf untagged address => ?_
      obtain ⟨x, hx⟩ := (RenderedFunction.exists_mem_params_iff (own f hf)).2 address
      rcases resolve f hf x .address ((guards f hf x .address).2 ⟨untagged, hx⟩) with other | found
      · exact other rfl
      · exact offered found
  · rintro (offered | noAddress) f hf x s guarded
    · exact .inr offered
    · obtain ⟨untagged, hx⟩ := (guards f hf x s).1 guarded
      refine .inl ?_
      rintro rfl
      exact noAddress f hf untagged
        ((RenderedFunction.exists_mem_params_iff (own f hf)).1 ⟨x, hx⟩)

/-- In the rules of the deployed dispatcher `uint256` converts to addresses, so the zeros of all
comparisons resolve, those of addresses included. -/
theorem zeros_resolve_iff_eq :
    let op : Operation :=
      { name := "eq", inputs := [.encrypted, .encrypted], returns := .explicit (.encrypted .bool) }
    ∃ ro, op.render .standard = .ok ro ∧
      (∃ f ∈ ro.functions, .encrypted .address ∈ f.signature.inputs) ∧
      ∀ f ∈ ro.functions, ∀ x s, Shape.guard x s ∈ f.decl.body →
        Rules.castSignature s [.plain .uint256] ∈ Rules.standard.casts := by
  intro op
  have made : op.render .standard = .ok _ := rfl
  exact ⟨_, made, by decide +kernel, (zeros_resolve_iff made).2.2 (.inl (by decide))⟩

/-- Where nothing converts to addresses, a function of an address still makes its zero by a
conversion, which then does not exist. -/
theorem zero_of_address_unresolved :
    let op : Operation :=
      { name := "req", inputs := [.fixed (.encrypted .address)], returns := .nothing }
    let r := Rules.standard.withAddressSources []
    ∃ ro, op.render r = .ok ro ∧ ∃ f ∈ ro.functions,
      Shape.guard "value" .address ∈ f.decl.body ∧
        Rules.castSignature .address [.plain .uint256] ∉ r.casts :=
  ⟨_, rfl, _, List.mem_singleton_self _, List.mem_cons_self, by decide +kernel⟩

end Operation

end FheSolidity
