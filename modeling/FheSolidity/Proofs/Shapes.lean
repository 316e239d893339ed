import FheSolidity.Proofs.Scale
import FheSolidity.Proofs.Steps

/-!
# Shapes and their signatures

A shape tells the inputs and the result of every function that it is the plan of. `Shape.Plans`
says when it is the plan of a signature's function: the inputs and the result are those of the
signature, and the body calls the dispatcher function that the signature needs by its number. A
signature has the shape that plans it; `Signature.RefusedWith` says what is reported of one that no
shape plans.
-/

namespace FheSolidity

/-- What becomes of the raw result, as the type that is returned. -/
def Output.type? : Output → Option ValueType
  | .encrypted s => some (.encrypted s)
  | .plain s => some (.plain s)
  | .nothing => none

/-- What sealing an encrypted `operand` returns: a byte string, or if `typed` the struct of the
family that the operand belongs to. -/
def sealedType (operand : Scalar) (typed : Bool) : FixedType :=
  if typed then .sealed operand.sealFamily else .bytes

/-- The inputs of a conversion to an encrypted `target`. -/
def CastSource.inputs (target : Scalar) : CastSource → List ValueType
  | .encrypted s => [.encrypted s]
  | .plain s zoned => .plain s :: if zoned then [.fixed .zone] else []
  | .ciphertext => [.fixed .bytes, .fixed .zone]
  | .inputStruct => [.fixed (.input target)]

/-- The inputs of a generator. -/
def RandomForm.inputs (form : RandomForm) : List ValueType :=
  (if form.isSeeded then [.fixed .seed] else []) ++ if form.isZoned then [.fixed .zone] else []

namespace Shape

/-- The inputs of a function with this plan. -/
def inputs : Shape → List ValueType
  | .unary _ operand _ => [.encrypted operand]
  | .binary _ lhs rhs _ => [.encrypted lhs, rhs.type]
  | .ternary _ value => [.encrypted .bool, .encrypted value, .encrypted value]
  | .sealing _ operand key _ => [.encrypted operand, .fixed key.type]
  | .cast _ target source => source.inputs target
  | .random _ _ form => form.inputs

/-- The result of a function with this plan. -/
def returns : Shape → Option ValueType
  | .unary _ _ output | .binary _ _ _ output => output.type?
  | .ternary _ value => some (.encrypted value)
  | .sealing _ operand _ typed => some (.fixed (sealedType operand typed))
  | .cast _ target _ | .random _ target _ => some (.encrypted target)

/-- Whether this plans a conversion or a function of an operation. -/
def family : Shape → Family
  | .cast .. => .cast
  | _ => .operation

/-- The dispatcher function that a function of an operation needs. -/
def functionName (operation : String) : Shape → String
  | .cast _ _ source => Signature.castFunctionName source
  | _ => operation

/-- A shape is the plan of a signature's function. -/
structure Plans (shape : Shape) (sig : Signature) : Prop where
  family : shape.family = sig.family
  inputs : shape.inputs = sig.inputs
  returns : shape.returns = sig.returns
  function : shape.function.name = shape.functionName sig.operation
  known : Dispatcher.functionId? shape.function.name = some shape.function.ordinal
  /-- Nothing converts to its own type. -/
  noIdentity : ∀ f s, shape ≠ .cast f s (.encrypted s)

/-- A shape names a parameter for each input. -/
theorem length_paramNames (shape : Shape) : shape.paramNames.length = shape.inputs.length := by
  cases shape with
  | unary | binary | ternary | sealing => rfl
  | cast _ _ source =>
    cases source with
    | encrypted | ciphertext | inputStruct => rfl
    | plain _ zoned => cases zoned <;> rfl
  | random _ _ form => cases form <;> rfl

/-- The working type of a binary operation is the highest of its inputs. -/
theorem isHighest_workingType (lhs : Scalar) (rhs : Operand) :
    IsHighest (workingType lhs rhs) [.encrypted lhs, rhs.type] := by
  have scalar : rhs.type.scalar? = some rhs.scalar := by cases rhs <;> rfl
  exact promoted?_eq_some_iff.1 (promoted?_pair rfl scalar)

end Shape

namespace Signature

variable {sig : Signature} {shape : Shape} {f : FunctionRef}

theorem dispatcherFunction_eq_ok_iff {name : String} :
    dispatcherFunction name = .ok f ↔
      f.name = name ∧ Dispatcher.functionId? f.name = some f.ordinal := by
  unfold dispatcherFunction
  constructor
  · intro h
    split at h
    · next ordinal known =>
      cases h
      exact ⟨rfl, known⟩
    · cases h
  · rintro ⟨rfl, known⟩
    simp only [known]

theorem dispatcherFunction_eq_error_iff {name : String} {e : TemplateError} :
    dispatcherFunction name = .error e ↔
      name ∉ Dispatcher.functionIds ∧ e = .unknownFunctionId name := by
  rw [← Dispatcher.functionId?_isSome, dispatcherFunction]
  cases Dispatcher.functionId? name with
  | none => simp [eq_comm]
  | some ordinal => simp

theorem mem_functionIds_of_dispatcherFunction {name : String} (h : dispatcherFunction name = .ok f) :
    name ∈ Dispatcher.functionIds := by
  by_contra unknown
  rw [dispatcherFunction_eq_error_iff.2 ⟨unknown, rfl⟩] at h
  cases h

theorem exists_dispatcherFunction {name : String} (h : name ∈ Dispatcher.functionIds) :
    ∃ f, dispatcherFunction name = .ok f := by
  cases hf : dispatcherFunction name with
  | ok f => exact ⟨f, rfl⟩
  | error e => exact absurd h (dispatcherFunction_eq_error_iff.1 hf).1

theorem output?_eq_some_iff {returns : Option ValueType} {output : Output} :
    output? returns = some output ↔ output.type? = returns := by
  constructor
  · intro h
    unfold output? at h
    split at h <;> cases h <;> rfl
  · rintro rfl
    cases output <;> rfl

theorem sealTyped?_eq_some_iff {operand : Scalar} {t : FixedType} {typed : Bool} :
    sealTyped? operand t = some typed ↔ sealedType operand typed = t := by
  constructor
  · intro h
    unfold sealTyped? at h
    split at h
    · cases h
      rfl
    · split at h
      · next own =>
        cases h
        rw [own]
        rfl
      · cases h
    · cases h
  · rintro rfl
    cases typed with
    | false => rfl
    | true => exact if_pos rfl

theorem castSource?_eq_some_iff {target : Scalar} {inputs : List ValueType} {source : CastSource} :
    castSource? target inputs = some source ↔
      source.inputs target = inputs ∧ source ≠ .encrypted target := by
  constructor
  · intro h
    unfold castSource? at h
    split at h
    case h_1 | h_5 =>
      split at h
      · cases h <;> simp_all [CastSource.inputs]
      · cases h <;> simp_all [CastSource.inputs]
    case h_2 | h_3 | h_4 =>
      cases h
      exact ⟨rfl, by simp⟩
    case h_6 => cases h
  · rintro ⟨rfl, different⟩
    cases source with
    | encrypted s =>
      refine if_neg ?_
      rintro rfl
      exact different rfl
    | plain s zoned => cases zoned <;> rfl
    | ciphertext => rfl
    | inputStruct => exact if_pos rfl

/-- A function of an operation has the shape with its inputs and its result. -/
theorem operationShape?_eq_some_iff {inputs : List ValueType} {returns : Option ValueType} :
    operationShape? f inputs returns = some shape ↔
      shape.family = .operation ∧ shape.function = f ∧ shape.inputs = inputs ∧
        shape.returns = returns := by
  constructor
  · intro h
    unfold operationShape? at h
    split at h
    case h_1 | h_4 | h_5 =>
      obtain ⟨output, houtput, rfl⟩ := Option.map_eq_some_iff.1 h
      exact ⟨rfl, rfl, rfl, output?_eq_some_iff.1 houtput⟩
    case h_2 | h_3 =>
      obtain ⟨typed, htyped, rfl⟩ := Option.map_eq_some_iff.1 h
      exact ⟨rfl, rfl, rfl, congrArg (some ∘ ValueType.fixed) (sealTyped?_eq_some_iff.1 htyped)⟩
    case h_6 =>
      split at h
      · next same =>
        obtain ⟨rfl, rfl⟩ := same
        cases h
        exact ⟨rfl, rfl, rfl, rfl⟩
      · cases h
    case h_7 | h_8 | h_9 =>
      cases h
      exact ⟨rfl, rfl, rfl, rfl⟩
    case h_10 => cases h
  · rintro ⟨family, rfl, rfl, rfl⟩
    cases shape with
    | unary _ operand output => cases output <;> rfl
    | binary _ lhs rhs output => cases rhs <;> cases output <;> rfl
    | ternary _ value => exact if_pos ⟨rfl, rfl⟩
    | sealing _ operand key typed =>
      have tagged := sealTyped?_eq_some_iff.2 (rfl : sealedType operand typed = _)
      cases key <;> simp [operationShape?, Shape.inputs, Shape.returns, Shape.function,
        KeyType.type, tagged]
    | cast => cases family
    | random _ target form => cases form <;> rfl

theorem castShape_eq_ok_iff : sig.castShape = .ok shape ↔
    ∃ f target source, sig.returns = some (.encrypted target) ∧
      castSource? target sig.inputs = some source ∧
        dispatcherFunction (castFunctionName source) = .ok f ∧ shape = .cast f target source := by
  unfold castShape
  constructor
  · intro h
    split at h
    · next target hreturns =>
      split at h
      · next source hsource =>
        obtain ⟨f, hf, h⟩ := bind_eq_ok_iff.1 h
        cases h
        exact ⟨f, target, source, hreturns, hsource, hf, rfl⟩
      · cases h
    · cases h
  · rintro ⟨f, target, source, hreturns, hsource, hf, rfl⟩
    simp only [hreturns, hsource]
    exact bind_eq_ok_iff.2 ⟨f, hf, rfl⟩

/-- The dispatcher has a function for every conversion. -/
theorem castFunctionName_mem_functionIds (source : CastSource) :
    castFunctionName source ∈ Dispatcher.functionIds := by
  cases source <;> simp only [castFunctionName] <;> decide

theorem eq_unsupported_of_castShape {e : TemplateError} (h : sig.castShape = .error e) :
    e = sig.unsupported := by
  unfold castShape at h
  split at h
  · split at h
    · next source _ =>
      rcases bind_eq_error_iff.1 h with h | ⟨_, _, h⟩
      · exact absurd (castFunctionName_mem_functionIds source)
          (dispatcherFunction_eq_error_iff.1 h).1
      · cases h
    · cases h
      rfl
  · cases h
    rfl

/-- A signature has exactly the shape that plans its function. -/
theorem shape_eq_ok_iff_plans : sig.shape = .ok shape ↔ shape.Plans sig := by
  unfold Signature.shape
  cases hfamily : sig.family with
  | cast =>
    simp only [castShape_eq_ok_iff, castSource?_eq_some_iff, dispatcherFunction_eq_ok_iff]
    constructor
    · rintro ⟨f, target, source, hreturns, ⟨hinputs, different⟩, ⟨hname, known⟩, rfl⟩
      refine ⟨hfamily.symm, hinputs, hreturns.symm, hname, known, fun g s same => different ?_⟩
      cases same
      rfl
    · intro plans
      have family := plans.family.trans hfamily
      cases shape with
      | cast f target source =>
        refine ⟨f, target, source, plans.returns.symm, ⟨plans.inputs, ?_⟩,
          ⟨plans.function, plans.known⟩, rfl⟩
        rintro rfl
        exact plans.noIdentity f target rfl
      | unary | binary | ternary | sealing | random => cases family
  | operation =>
    rw [bind_eq_ok_iff]
    constructor
    · rintro ⟨f, hf, h⟩
      split at h
      · next hshape =>
        cases h
        obtain ⟨family, hfunction, hinputs, hreturns⟩ := operationShape?_eq_some_iff.1 hshape
        obtain ⟨hname, known⟩ := dispatcherFunction_eq_ok_iff.1 hf
        rw [← hfunction] at hname known
        refine ⟨family.trans hfamily.symm, hinputs, hreturns, ?_, known, ?_⟩
        · cases shape with
          | cast => cases family
          | unary | binary | ternary | sealing | random => exact hname
        · rintro g s rfl
          cases family
      · cases h
    · intro plans
      have family := plans.family.trans hfamily
      have name : shape.function.name = sig.operation := by
        cases shape with
        | cast => cases family
        | unary | binary | ternary | sealing | random => exact plans.function
      have hshape := operationShape?_eq_some_iff.2 ⟨family, rfl, plans.inputs, plans.returns⟩
      refine ⟨_, dispatcherFunction_eq_ok_iff.2 ⟨name, plans.known⟩, ?_⟩
      rw [hshape]
      rfl

/-- The dispatcher knows the operation of every function that has a shape. -/
theorem operation_mem_functionIds (family : sig.family = .operation) (h : sig.shape = .ok shape) :
    sig.operation ∈ Dispatcher.functionIds := by
  rw [Signature.shape, family] at h
  obtain ⟨f, hf, _⟩ := bind_eq_ok_iff.1 h
  exact mem_functionIds_of_dispatcherFunction hf

theorem shape_eq_ok_of_operation (family : sig.family = .operation)
    (hf : dispatcherFunction sig.operation = .ok f)
    (hshape : operationShape? f sig.inputs sig.returns = some shape) : sig.shape = .ok shape := by
  rw [Signature.shape, family]
  refine bind_eq_ok_iff.2 ⟨f, hf, ?_⟩
  rw [hshape]
  rfl

/-- What is reported of a signature without a shape. -/
inductive RefusedWith (sig : Signature) : TemplateError → Prop where
  /-- The dispatcher does not know the operation, whatever the types are. -/
  | unknown (family : sig.family = .operation) (unknown : sig.operation ∉ Dispatcher.functionIds) :
      sig.RefusedWith (.unknownFunctionId sig.operation)
  /-- The function is known, but there is no plan for the types, which are all listed. -/
  | unsupported (known : sig.family = .operation → sig.operation ∈ Dispatcher.functionIds)
      (unplanned : ∀ shape : Shape, ¬ shape.Plans sig) :
      sig.RefusedWith (.unsupportedShape sig.symbol sig.inputs.length
        (",".intercalate (sig.inputs.map ValueType.name))
        (match sig.returns with
          | some t => t.name
          | none => "none"))

theorem RefusedWith.unique {e e' : TemplateError} (h : sig.RefusedWith e)
    (h' : sig.RefusedWith e') : e = e' := by
  cases h with
  | unknown family unknown =>
    cases h' with
    | unknown => rfl
    | unsupported known => exact absurd (known family) unknown
  | unsupported known =>
    cases h' with
    | unknown family unknown => exact absurd (known family) unknown
    | unsupported => rfl

/-- A signature that is refused has no plan. -/
theorem RefusedWith.not_plans {e : TemplateError} (h : sig.RefusedWith e) : ¬ shape.Plans sig := by
  cases h with
  | unknown family unknown =>
    intro plans
    exact unknown (operation_mem_functionIds family (shape_eq_ok_iff_plans.2 plans))
  | unsupported _ unplanned => exact unplanned shape

theorem refusedWith_of_shape {e : TemplateError} (h : sig.shape = .error e) :
    sig.RefusedWith e := by
  have unplanned (shape : Shape) : ¬ shape.Plans sig := by
    intro plans
    rw [shape_eq_ok_iff_plans.2 plans] at h
    cases h
  unfold Signature.shape at h
  cases hfamily : sig.family with
  | cast =>
    rw [hfamily] at h
    rw [eq_unsupported_of_castShape h]
    exact .unsupported (fun family => by simp [hfamily] at family) unplanned
  | operation =>
    rw [hfamily] at h
    rcases bind_eq_error_iff.1 h with h | ⟨f, hf, h⟩
    · obtain ⟨unknown, rfl⟩ := dispatcherFunction_eq_error_iff.1 h
      exact .unknown hfamily unknown
    · split at h
      · cases h
      · cases h
        exact .unsupported (fun _ => mem_functionIds_of_dispatcherFunction hf) unplanned

theorem shape_eq_error_iff_refusedWith {e : TemplateError} :
    sig.shape = .error e ↔ sig.RefusedWith e := by
  constructor
  · exact refusedWith_of_shape
  · intro refused
    cases h : sig.shape with
    | ok shape => exact absurd (shape_eq_ok_iff_plans.1 h) refused.not_plans
    | error e' => rw [(refusedWith_of_shape h).unique refused]

/-- **Nothing is lost in a shape.** A signature has a shape exactly if one of the plans has its
inputs and its result and the dispatcher knows the function that the plan calls; and then that is
its shape. A binary operation is computed in the highest type of its inputs and returns no fixed
type. Of every other signature it is reported that the dispatcher does not know the operation, or
else that the types are not supported. -/
theorem shape_iff_plans (sig : Signature) :
    (∀ shape, sig.shape = .ok shape ↔ shape.Plans sig) ∧
      (∀ f lhs rhs output, sig.shape = .ok (.binary f lhs rhs output) →
        IsHighest (Shape.workingType lhs rhs) sig.inputs ∧ ∀ t, sig.returns ≠ some (.fixed t)) ∧
      ∀ e, sig.shape = .error e ↔ sig.RefusedWith e := by
  refine ⟨fun shape => shape_eq_ok_iff_plans, ?_, fun e => shape_eq_error_iff_refusedWith⟩
  intro f lhs rhs output h
  have plans := shape_eq_ok_iff_plans.1 h
  constructor
  · rw [← plans.inputs]
    exact Shape.isHighest_workingType lhs rhs
  · intro t
    rw [← plans.returns]
    cases output <;> simp [Shape.returns, Output.type?]

end Signature

end FheSolidity
