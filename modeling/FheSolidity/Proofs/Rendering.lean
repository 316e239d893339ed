import FheSolidity.Proofs.Shapes

/-!
# Rendered functions and surfaces

What a successful rendering says: the body of a function names a parameter for each input, and the
functions of a surface are those of the signatures that its operations expand to, in their order.
-/

namespace FheSolidity

namespace Signature

variable {sig : Signature} {shape : Shape}

/-- A shape names a parameter for each input. -/
theorem length_paramNames_of_shape (h : sig.shape = .ok shape) :
    shape.paramNames.length = sig.inputs.length := by
  rw [shape.length_paramNames, (shape_eq_ok_iff_plans.1 h).inputs]

theorem render_eq_ok_iff {f : RenderedFunction} :
    sig.render = .ok f ↔ ∃ shape, sig.shape = .ok shape ∧ f = sig.renderAs shape := by
  simp only [render, bind_eq_ok_iff, pure, Except.pure, Except.ok.injEq]
  exact exists_congr fun _ => and_congr_right fun _ => eq_comm

theorem signature_eq_of_render {f : RenderedFunction} (h : sig.render = .ok f) :
    f.signature = sig := by
  obtain ⟨shape, _, rfl⟩ := render_eq_ok_iff.1 h
  rfl

/-- The functions of several signatures are in their order, and each is that of its own. -/
theorem renderAll_eq_ok_iff {sigs : List Signature} {fs : List RenderedFunction} :
    renderAll sigs = .ok fs ↔
      fs.map RenderedFunction.signature = sigs ∧ ∀ f ∈ fs, f.signature.render = .ok f := by
  rw [renderAll, mapM_eq_ok_iff]
  constructor
  · intro h
    refine ⟨?_, fun f hf => ?_⟩
    · rw [map_eq_map_of_forall₂ h fun _ _ => signature_eq_of_render, List.map_id']
    · obtain ⟨sig, _, hsig⟩ := exists_of_forall₂_of_mem_right h hf
      rwa [signature_eq_of_render hsig]
  · rintro ⟨rfl, h⟩
    rw [List.forall₂_map_left_iff, List.forall₂_same]
    exact h

theorem exists_renderAll_eq_ok {sigs : List Signature}
    (h : ∀ sig ∈ sigs, ∃ shape, sig.shape = .ok shape) : ∃ fs, renderAll sigs = .ok fs := by
  refine exists_mapM_eq_ok fun sig hsig => ?_
  obtain ⟨shape, hshape⟩ := h sig hsig
  exact ⟨_, render_eq_ok_iff.2 ⟨shape, hshape, rfl⟩⟩

end Signature

/-- The shape of a function is the plan of its signature. -/
theorem RenderedFunction.plans_of_render {f : RenderedFunction} (h : f.signature.render = .ok f) :
    f.shape.Plans f.signature := by
  obtain ⟨shape, hshape, heq⟩ := Signature.render_eq_ok_iff.1 h
  have own : f.shape = shape := congrArg RenderedFunction.shape heq
  rw [own]
  exact Signature.shape_eq_ok_iff_plans.1 hshape

variable {r : Rules} {ops : List Operation} {choice : ErrorChoice} {surface : Surface}

/-- The functions of an operation are those of the signatures it expands to. -/
theorem Operation.render_eq_ok_iff {op : Operation} {ro : RenderedOperation} :
    op.render r = .ok ro ↔ ro.operation = op ∧
      op.expand r = .ok (ro.functions.map RenderedFunction.signature) ∧
        ∀ f ∈ ro.functions, f.signature.render = .ok f := by
  simp only [Operation.render, bind_eq_ok_iff, atStage_eq_ok_iff, pure, Except.pure,
    Except.ok.injEq, Signature.renderAll_eq_ok_iff]
  constructor
  · rintro ⟨sigs, hexpand, fs, ⟨rfl, hfs⟩, rfl⟩
    exact ⟨rfl, hexpand, hfs⟩
  · rintro ⟨rfl, hexpand, hfs⟩
    exact ⟨_, hexpand, ro.functions, ⟨rfl, hfs⟩, rfl⟩

/-- An operation fails with the error of its expansion or with that of its first signature without a
body. -/
theorem Operation.render_eq_error_iff {op : Operation} {e : GeneratorError} :
    op.render r = .error e ↔
      (∃ cause, op.expand r = .error cause ∧ e = .expansion cause) ∨
        ∃ sigs cause, op.expand r = .ok sigs ∧ Signature.renderAll sigs = .error cause ∧
          e = .template cause := by
  rw [render, bind_eq_error_iff, atStage_eq_error_iff]
  simp only [bind_pure_eq_error_iff, atStage_eq_error_iff, atStage_eq_ok_iff, exists_and_left]

/-! ### Several operations -/

namespace Operation

variable {ros : List RenderedOperation} {e : GeneratorError}

/-- Which error would be reported plays no part if no operation fails. -/
theorem renderEach_eq_ok_iff : renderEach r ops choice = .ok ros ↔
    List.Forall₂ (fun op ro => op.render r = .ok ro) ops ros := by
  rw [renderEach, mapError_eq_ok_iff, mapM_eq_ok_iff]

theorem mem_failures_iff : e ∈ failures r ops ↔ ∃ op ∈ ops, op.render r = .error e := by
  rw [failures, List.mem_filterMap]
  refine exists_congr fun op => and_congr_right fun _ => ?_
  cases op.render r <;> simp

/-- The first failure is what rendering the operations one after the other fails with. -/
theorem head?_failures_eq_some_iff :
    (failures r ops).head? = some e ↔ ops.mapM (render r) = .error e := by
  induction ops with
  | nil => simp [failures, pure, Except.pure]
  | cons op ops ih =>
    rw [List.mapM_cons, bind_eq_error_iff]
    cases own : op.render r with
    | error cause => simp [failures, own]
    | ok ro =>
      have rest : failures r (op :: ops) = failures r ops := by simp [failures, own]
      rw [rest, ih]
      constructor
      · intro later
        exact .inr ⟨ro, rfl, bind_pure_eq_error_iff.2 later⟩
      · rintro (first | ⟨_, _, later⟩)
        · cases first
        · exact bind_pure_eq_error_iff.1 later

/-- Operations fail with the choice among the errors of those that fail. -/
theorem renderEach_eq_error_iff : renderEach r ops choice = .error e ↔
    ∃ first others, failures r ops = first :: others ∧ choice.pick first others = e := by
  simp only [renderEach, mapError_eq_error_iff, ← head?_failures_eq_some_iff]
  constructor
  · rintro ⟨first, head, picked⟩
    obtain ⟨others, split⟩ := List.head?_eq_some_iff.1 head
    rw [split] at picked
    exact ⟨first, others, split, picked⟩
  · rintro ⟨first, others, split, picked⟩
    rw [split]
    exact ⟨first, rfl, picked⟩

/-- Whatever the choice, it is the error of an operation. -/
theorem exists_of_renderEach_eq_error (h : renderEach r ops choice = .error e) :
    ∃ op ∈ ops, op.render r = .error e := by
  obtain ⟨first, others, split, rfl⟩ := renderEach_eq_error_iff.1 h
  rw [← mem_failures_iff, split]
  exact choice.pick_mem first others

/-- One after the other, the operations fail with the error of the first that fails. -/
theorem renderEach_first_eq_error_iff : renderEach r ops .first = .error e ↔
    ∃ before op after, ops = before ++ op :: after ∧ (∀ o ∈ before, ∃ ro, o.render r = .ok ro) ∧
      op.render r = .error e := by
  rw [← mapM_eq_error_iff, ← head?_failures_eq_some_iff, renderEach_eq_error_iff,
    List.head?_eq_some_iff]
  constructor
  · rintro ⟨first, others, split, rfl⟩
    exact ⟨others, split⟩
  · rintro ⟨others, split⟩
    exact ⟨e, others, split, rfl⟩

end Operation

/-- A surface holds the functions of its operations, in their order, and every conversion. -/
theorem Surface.ofOperations_eq_ok_iff : Surface.ofOperations r ops choice = .ok surface ↔
    List.Forall₂ (fun op ro => op.render r = .ok ro) ops surface.operations ∧
      surface.casts.map RenderedFunction.signature = r.casts ∧
        ∀ f ∈ surface.casts, f.signature.render = .ok f := by
  simp only [Surface.ofOperations, bind_eq_ok_iff, Operation.renderEach_eq_ok_iff,
    atStage_eq_ok_iff, pure, Except.pure, Except.ok.injEq, Signature.renderAll_eq_ok_iff]
  constructor
  · rintro ⟨operations, hops, casts, hcasts, rfl⟩
    exact ⟨hops, hcasts⟩
  · rintro ⟨hops, hcasts⟩
    exact ⟨surface.operations, hops, surface.casts, hcasts, rfl⟩

/-- A surface that is made is made whatever error would have been reported. -/
theorem Surface.ofOperations_eq_ok_congr (choice' : ErrorChoice) :
    Surface.ofOperations r ops choice = .ok surface ↔
      Surface.ofOperations r ops choice' = .ok surface := by
  rw [ofOperations_eq_ok_iff, ofOperations_eq_ok_iff]

end FheSolidity
