import FheSolidity.Proofs.Expansion.Generators
import FheSolidity.Proofs.Expansion.Success
import FheSolidity.Proofs.Rendering

/-!
# Documented operations

The expander drops what it does not like in silence, and a shape that is missing ends the whole
run, so the two have to agree on what an operation may be. `Operation.Documented` lists the forms of
operations that catalogs are documented to have. Whatever the rules are, every tuple of such an
operation that the expander keeps has a shape, and all its shapes are of the kind of its form.
-/

namespace FheSolidity

/-- A declared result that the dispatcher's raw result can be made into, on whatever operands. -/
inductive ReturnKind.IsRaw : ReturnKind → Prop where
  | encrypted : IsRaw .encrypted
  | nothing : IsRaw .nothing
  | explicitEncrypted (s : Scalar) : IsRaw (.explicit (.encrypted s))
  | explicitPlain (s : Scalar) : IsRaw (.explicit (.plain s))

namespace Operation

/-- The documented forms of operations, each with the label of its shapes. -/
inductive Documented (op : Operation) : String → Prop where
  | unary (name : op.name ≠ Rules.sealOperation) (inputs : op.inputs = [.encrypted])
      (returns : op.returns = .plain ∨ op.returns.IsRaw) : Documented op "unary"
  | binary (name : op.name ≠ Rules.sealOperation)
      (inputs : op.inputs = [.encrypted, .encrypted] ∨ op.inputs = [.encrypted, .plain])
      (returns : op.returns.IsRaw) : Documented op "binary"
  | ternary (name : op.name ≠ Rules.sealOperation)
      (inputs : op.inputs = [.fixed (.encrypted .bool), .encrypted, .encrypted])
      (sameType : op.sameType = true) (returns : op.returns = .encrypted) : Documented op "ternary"
  | sealing (name : op.name = Rules.sealOperation) (key : KeyType)
      (inputs : op.inputs = [.encrypted, .fixed (.fixed key.type)])
      (returns : op.returns = .explicit (.fixed .bytes)) : Documented op "seal"
  | random (inputs : op.inputs = [] ∨ op.inputs = [.fixed (.fixed .seed)] ∨
        op.inputs = [.fixed (.fixed .seed), .fixed (.fixed .zone)])
      (returns : op.returns = .encrypted) : Documented op "random"

variable {op : Operation} {r : Rules} {tuple : List ValueType} {returns : Option ValueType}
  {f : FunctionRef} {label : String}

/-- The result of operands, none of them a byte string, can be made of the raw result. -/
theorem Yields.exists_output (yields : op.Yields tuple returns) (notBytes : .fixed .bytes ∉ tuple)
    (raw : op.returns = .plain ∨ op.returns.IsRaw) : ∃ output : Output, output.type? = returns := by
  cases yields with
  | @plain s => exact ⟨.plain s, rfl⟩
  | @explicit t declared =>
    rw [declared] at raw
    rcases raw with raw | raw
    · cases raw
    · cases raw with
      | explicitEncrypted s => exact ⟨.encrypted s, rfl⟩
      | explicitPlain s => exact ⟨.plain s, rfl⟩
  | nothing => exact ⟨.nothing, rfl⟩
  | bytes _ mem => exact absurd mem notBytes
  | @promoted s => exact ⟨.encrypted s, rfl⟩

theorem Documented.checkPlainReturn (form : op.Documented label) :
    op.checkPlainReturn = .ok () := by
  rw [checkPlainReturn_eq_ok_iff]
  intro declared
  cases form with
  | unary _ inputs => exact .inl inputs
  | binary _ _ returns =>
    rw [declared] at returns
    cases returns
  | ternary _ _ _ returns | sealing _ _ _ returns | random _ returns =>
    rw [declared] at returns
    cases returns

/-- Of the documented forms, the generators are the last. -/
theorem Documented.isGenerator_iff (form : op.Documented label) :
    op.isGenerator = true ↔ label = "random" := by
  cases form with
  | unary _ inputs => simp [isGenerator, inputs, isNeutral]
  | binary _ inputs => rcases inputs with inputs | inputs <;> simp [isGenerator, inputs, isNeutral]
  | ternary _ inputs => simp [isGenerator, inputs, isNeutral]
  | sealing _ _ inputs => simp [isGenerator, inputs, isNeutral]
  | random inputs returns =>
    rcases inputs with inputs | inputs | inputs <;>
      simp [isGenerator, inputs, returns, isNeutral, ValueType.scalar?, ValueType.isByteString]

/-- A choice between two values of one type is made in that type, the condition being the lowest. -/
theorem isHighest_choice (s : Scalar) :
    IsHighest s [.encrypted .bool, .encrypted s, .encrypted s] := by
  have lowest : Scalar.bool ≤ s := Nat.zero_le _
  refine ⟨⟨.encrypted s, by simp, rfl⟩, fun t ht u hu => ?_⟩
  simp only [List.mem_cons, List.not_mem_nil, or_false] at ht
  rcases ht with rfl | rfl | rfl <;> cases hu
  · exact lowest
  · exact le_refl _
  · exact le_refl _

/-- Each admissible tuple of a documented operation, with its result, is that of a shape of the
form's kind. -/
theorem Documented.exists_shape_of_admissible (form : op.Documented label)
    (hgen : op.isGenerator = false) (admissible : op.Admissible r tuple)
    (yields : op.Yields tuple returns) (f : FunctionRef) :
    ∃ shape, Signature.operationShape? f tuple returns = some shape ∧ shape.label = label := by
  have fits := admissible.fits
  cases form with
  | unary _ inputs raw =>
    rw [inputs] at fits
    rcases fits with _ | ⟨@⟨s⟩, ⟨⟩⟩
    obtain ⟨output, rfl⟩ := yields.exists_output (by simp) raw
    exact ⟨.unary f s output, Signature.operationShape?_eq_some_iff.2 ⟨rfl, rfl, rfl, rfl⟩, rfl⟩
  | binary _ inputs raw =>
    rcases inputs with inputs | inputs <;> rw [inputs] at fits
    · rcases fits with _ | ⟨@⟨s⟩, _ | ⟨@⟨t⟩, ⟨⟩⟩⟩
      obtain ⟨output, rfl⟩ := yields.exists_output (by simp) (.inr raw)
      exact ⟨.binary f s (.encrypted t) output,
        Signature.operationShape?_eq_some_iff.2 ⟨rfl, rfl, rfl, rfl⟩, rfl⟩
    · rcases fits with _ | ⟨@⟨s⟩, _ | ⟨_ | ⟨p⟩, ⟨⟩⟩⟩
      obtain ⟨output, rfl⟩ := yields.exists_output (by simp) (.inr raw)
      exact ⟨.binary f s (.plain p) output,
        Signature.operationShape?_eq_some_iff.2 ⟨rfl, rfl, rfl, rfl⟩, rfl⟩
  | ternary _ inputs same declared =>
    have sameType := admissible.sameType same
    rw [inputs] at fits sameType
    rcases fits with _ | ⟨_ | _ | ⟨⟩, _ | ⟨@⟨s⟩, _ | ⟨@⟨t⟩, ⟨⟩⟩⟩⟩
    have values : ValueType.encrypted s = .encrypted t := sameType _ _ (by simp) (by simp)
    cases values
    cases yields.unique (.promoted declared (by simp) (isHighest_choice s))
    exact ⟨.ternary f s, Signature.operationShape?_eq_some_iff.2 ⟨rfl, rfl, rfl, rfl⟩, rfl⟩
  | sealing _ key inputs declared =>
    rw [inputs] at fits
    rcases fits with _ | ⟨@⟨s⟩, _ | ⟨_ | _ | ⟨⟩, ⟨⟩⟩⟩
    cases yields.unique (.explicit declared)
    exact ⟨.sealing f s key false,
      Signature.operationShape?_eq_some_iff.2 ⟨rfl, rfl, rfl, rfl⟩, rfl⟩
  | random inputs declared =>
    have generator := (Documented.random inputs declared).isGenerator_iff.2 rfl
    simp [hgen] at generator

/-- The tagged variant of a documented sealing has a shape too. -/
theorem Documented.exists_shape_of_typedSeal (form : op.Documented label)
    (hgen : op.isGenerator = false) (seals : Rules.isSeal op.name = true) {s : Scalar}
    {rest : List ValueType} (admissible : op.Admissible r (.encrypted s :: rest))
    (f : FunctionRef) :
    ∃ shape, Signature.operationShape? f (.encrypted s :: rest)
      (some (.fixed (.sealed s.sealFamily))) = some shape ∧ shape.label = label := by
  have fits := admissible.fits
  cases form with
  | unary name | binary name | ternary name => exact absurd (beq_iff_eq.1 seals) name
  | sealing _ key inputs =>
    rw [inputs] at fits
    rcases fits with _ | ⟨_, _ | ⟨_ | _ | ⟨⟩, ⟨⟩⟩⟩
    exact ⟨.sealing f s key true,
      Signature.operationShape?_eq_some_iff.2 ⟨rfl, rfl, rfl, rfl⟩, rfl⟩
  | random inputs declared =>
    have generator := (Documented.random inputs declared).isGenerator_iff.2 rfl
    simp [hgen] at generator

/-- The functions of a documented generator take what a form of random values takes. -/
theorem exists_form_of_mem_generatorInputs {inputs : List ValueType}
    (declared : op.inputs = [] ∨ op.inputs = [.fixed (.fixed .seed)] ∨
      op.inputs = [.fixed (.fixed .seed), .fixed (.fixed .zone)])
    (h : inputs ∈ op.generatorInputs) : ∃ form : RandomForm, form.inputs = inputs := by
  rw [generatorInputs, fixedInputs] at h
  rcases declared with declared | declared | declared <;> rw [declared] at h
  · obtain rfl : inputs = [] := by simpa [optionalEndings] using h
    exact ⟨.unseeded, rfl⟩
  · have endings : inputs = [.fixed .seed] ∨ inputs = [] := by simpa [optionalEndings] using h
    rcases endings with rfl | rfl
    · exact ⟨.seeded, rfl⟩
    · exact ⟨.unseeded, rfl⟩
  · have endings : inputs = [.fixed .seed, .fixed .zone] ∨ inputs = [.fixed .seed] ∨
        inputs = [] := by
      simpa [optionalEndings] using h
    rcases endings with rfl | rfl | rfl
    · exact ⟨.seededInZone, rfl⟩
    · exact ⟨.seeded, rfl⟩
    · exact ⟨.unseeded, rfl⟩

theorem Documented.exists_shape_of_generated (form : op.Documented label)
    (hgen : op.isGenerator = true) {inputs : List ValueType} (h : inputs ∈ op.generatorInputs)
    (s : Scalar) (f : FunctionRef) :
    ∃ shape, Signature.operationShape? f inputs (some (.encrypted s)) = some shape ∧
      shape.label = label := by
  have random := form.isGenerator_iff.1 hgen
  cases form with
  | random declared =>
    obtain ⟨form, rfl⟩ := exists_form_of_mem_generatorInputs declared h
    exact ⟨.random f s form, Signature.operationShape?_eq_some_iff.2 ⟨rfl, rfl, rfl, rfl⟩, rfl⟩
  | unary | binary | ternary | sealing => exact absurd random (by decide)

/-- Whatever a documented operation expands to has a shape of the form's kind. -/
theorem Documented.exists_shape_of_emits (form : op.Documented label) {sig : Signature}
    (known : op.name ∈ Dispatcher.functionIds) (emits : op.Emits r sig) :
    ∃ shape, sig.shape = .ok shape ∧ shape.label = label := by
  obtain ⟨f, hf⟩ := Signature.exists_dispatcherFunction known
  have planned : ∃ shape, Signature.operationShape? f sig.inputs sig.returns = some shape ∧
      shape.label = label := by
    cases emits with
    | plain hgen admissible yields => exact form.exists_shape_of_admissible hgen admissible yields f
    | typedSeal hgen seals _ admissible =>
      exact form.exists_shape_of_typedSeal hgen seals admissible f
    | generated hgen _ variant => exact form.exists_shape_of_generated hgen variant _ f
  obtain ⟨shape, hshape, hlabel⟩ := planned
  refine ⟨shape, Signature.shape_eq_ok_of_operation emits.family ?_ hshape, hlabel⟩
  rw [emits.operation]
  exact hf

/-- **Documented operations are complete.** Whatever the rules are, an operation that the
dispatcher knows and that has one of the documented forms expands and renders without an error. It
gets one function for each signature it expands to, and every function has a shape of the form's
kind. -/
theorem render_of_documented (r : Rules) (known : op.name ∈ Dispatcher.functionIds)
    (form : op.Documented label) :
    ∃ sigs ro, op.expand r = .ok sigs ∧ op.render r = .ok ro ∧
      ro.functions.map RenderedFunction.signature = sigs ∧
        ∀ f ∈ ro.functions, f.signature.shape = .ok f.shape ∧ f.shape.label = label := by
  obtain ⟨sigs, hsigs⟩ := exists_expand_eq_ok r form.checkPlainReturn
  have planned : ∀ sig ∈ sigs, ∃ shape, sig.shape = .ok shape ∧ shape.label = label :=
    fun sig hsig => form.exists_shape_of_emits known ((mem_expand_iff hsigs).1 hsig)
  obtain ⟨fs, hfs⟩ := Signature.exists_renderAll_eq_ok fun sig hsig =>
    (planned sig hsig).imp fun _ h => h.1
  obtain ⟨signatures, own⟩ := Signature.renderAll_eq_ok_iff.1 hfs
  refine ⟨sigs, ⟨op, fs⟩, hsigs, render_eq_ok_iff.2 ⟨rfl, ?_, own⟩, signatures, fun f hf => ?_⟩
  · exact signatures ▸ hsigs
  · obtain ⟨shape, hshape, heq⟩ := Signature.render_eq_ok_iff.1 (own f hf)
    have same : f.shape = shape := congrArg RenderedFunction.shape heq
    obtain ⟨shape', hshape', hlabel⟩ := planned _ (signatures ▸ List.mem_map_of_mem hf)
    cases hshape.symm.trans hshape'
    exact ⟨same ▸ hshape, same ▸ hlabel⟩

/-- Sealing for a key of 32 bytes, in the rules of the deployed dispatcher: an untagged and a
tagged function for each of the eight encrypted types. -/
theorem render_of_documented_sealoutput :
    let op : Operation :=
      { name := "sealoutput", inputs := [.encrypted, .fixed (.fixed .bytes32)]
        returns := .explicit (.fixed .bytes) }
    op.name ∈ Dispatcher.functionIds ∧ op.Documented "seal" ∧
      ∃ sigs ro, sigs.length = 16 ∧ op.expand .standard = .ok sigs ∧
        op.render .standard = .ok ro ∧ ro.functions.map RenderedFunction.signature = sigs ∧
          ∀ f ∈ ro.functions, f.signature.shape = .ok f.shape ∧ f.shape.label = "seal" := by
  intro op
  have known : op.name ∈ Dispatcher.functionIds := by decide
  have form : op.Documented "seal" := .sealing rfl .bytes32 rfl rfl
  obtain ⟨sigs, ro, hsigs, hro, signatures, shapes⟩ := render_of_documented .standard known form
  have length : ∃ sigs', op.expand .standard = .ok sigs' ∧ sigs'.length = 16 :=
    ⟨_, rfl, by decide +kernel⟩
  obtain ⟨sigs', hsigs', hlength⟩ := length
  cases hsigs.symm.trans hsigs'
  exact ⟨known, form, sigs, ro, hlength, hsigs, hro, signatures, shapes⟩

end Operation

end FheSolidity
