import FheSolidity.Proofs.Casts
import FheSolidity.Proofs.Rendering

/-!
# The conversions and the cast matrix

The rules say twice what converts: `Rules.canCast` answers the question for one type, and
`Rules.casts` lists the functions that convert. Whatever the rules are, the two agree
(`Rules.CastsAgree`), the list holds nothing else, and every function on it has a body.
-/

namespace FheSolidity.Rules

variable {r : Rules} {target : Scalar} {inputs : List ValueType}

/-- The conversions to an encrypted `target` are those that `canCast` allows. A value in the clear
is converted as it is if it is a `bool` or an `address`, and else as a `uint256`. -/
structure CastsAgree (r : Rules) (target : Scalar) : Prop where
  encrypted : ∀ s, castSignature target [.encrypted s] ∈ r.casts ↔
    r.canCast (.encrypted s) target = true
  plain : ∀ p, r.canCast (.plain p) target = true ↔
    castSignature target [.plain (if p = .bool ∨ p = .address then p else .uint256)] ∈ r.casts
  inZone : castSignature target [.plain .uint256, .fixed .zone] ∈ r.casts ↔
    castSignature target [.plain .uint256] ∈ r.casts
  ciphertext : castSignature target [.fixed .bytes, .fixed .zone] ∈ r.casts
  inputStruct : castSignature target [.fixed (.input target)] ∈ r.casts

/-- The inputs that a conversion to an encrypted `target` has in some rules. -/
inductive CastInputs (target : Scalar) : List ValueType → Prop where
  | encrypted (s : Scalar) : CastInputs target [.encrypted s]
  | plain {p : Scalar} (canonical : p = .bool ∨ p = .address ∨ p = .uint256) :
      CastInputs target [.plain p]
  | inZone : CastInputs target [.plain .uint256, .fixed .zone]
  | ciphertext : CastInputs target [.fixed .bytes, .fixed .zone]
  | inputStruct : CastInputs target [.fixed (.input target)]

theorem castSource_eq_ite (p : Scalar) :
    p.castSource = if p = .bool ∨ p = .address then p else .uint256 := by
  cases p <;> decide

/-- A value in the clear converts exactly if what it is widened to does. -/
theorem canCast_castSource (r : Rules) (p target : Scalar) :
    r.canCast (.plain p.castSource) target = r.canCast (.plain p) target := by
  cases p <;> rfl

theorem convertsFrom_encrypted_iff {s : Scalar} :
    r.ConvertsFrom target [.encrypted s] ↔ r.canCast (.encrypted s) target = true := by
  constructor
  · rintro ⟨h⟩
    exact h
  · exact .encrypted

theorem convertsFrom_castSource_iff {p : Scalar} :
    r.ConvertsFrom target [.plain p.castSource] ↔ r.canCast (.plain p) target = true := by
  constructor
  · intro h
    rw [← canCast_castSource]
    generalize p.castSource = source at h
    cases h with
    | word h | bool h | address h => exact h
  · exact convertsFrom_castArgument rfl

theorem convertsFrom_inZone_iff :
    r.ConvertsFrom target [.plain .uint256, .fixed .zone] ↔
      r.ConvertsFrom target [.plain .uint256] := by
  constructor
  · intro h
    cases h with
    | wordInZone h => exact .word h
  · intro h
    cases h with
    | word h => exact .wordInZone h

theorem ConvertsFrom.castInputs (h : r.ConvertsFrom target inputs) : CastInputs target inputs := by
  cases h with
  | encrypted => exact .encrypted _
  | word => exact .plain (.inr (.inr rfl))
  | wordInZone => exact .inZone
  | bool => exact .plain (.inl rfl)
  | address => exact .plain (.inr (.inl rfl))
  | ciphertext => exact .ciphertext
  | inputStruct => exact .inputStruct

theorem castsAgree (r : Rules) (target : Scalar) : r.CastsAgree target where
  encrypted s := by rw [castSignature_mem_casts_iff, convertsFrom_encrypted_iff]
  plain p := by
    rw [← castSource_eq_ite, castSignature_mem_casts_iff, convertsFrom_castSource_iff]
  inZone := by
    rw [castSignature_mem_casts_iff, castSignature_mem_casts_iff, convertsFrom_inZone_iff]
  ciphertext := castSignature_mem_casts_iff.2 .ciphertext
  inputStruct := castSignature_mem_casts_iff.2 .inputStruct

/-- What a conversion starts from; never the type that it leads to. -/
theorem ConvertsFrom.exists_source (h : r.ConvertsFrom target inputs) :
    ∃ source : CastSource, source.inputs target = inputs ∧ source ≠ .encrypted target := by
  cases h with
  | @encrypted s h =>
    refine ⟨.encrypted s, rfl, ?_⟩
    rintro ⟨⟩
    rw [r.not_canCast_self] at h
    cases h
  | word => exact ⟨.plain .uint256 false, rfl, by simp⟩
  | wordInZone => exact ⟨.plain .uint256 true, rfl, by simp⟩
  | bool => exact ⟨.plain .bool false, rfl, by simp⟩
  | address => exact ⟨.plain .address false, rfl, by simp⟩
  | ciphertext => exact ⟨.ciphertext, rfl, by simp⟩
  | inputStruct => exact ⟨.inputStruct, rfl, by simp⟩

theorem ConvertsFrom.exists_shape (h : r.ConvertsFrom target inputs) :
    ∃ f source, (castSignature target inputs).shape = .ok (.cast f target source) := by
  obtain ⟨source, hsource⟩ := h.exists_source
  obtain ⟨f, hf⟩ := Signature.exists_dispatcherFunction
    (Signature.castFunctionName_mem_functionIds source)
  have planned : (castSignature target inputs).castShape = .ok (.cast f target source) :=
    Signature.castShape_eq_ok_iff.2
      ⟨f, target, source, rfl, Signature.castSource?_eq_some_iff.2 hsource, hf, rfl⟩
  exact ⟨f, source, planned⟩

/-- **The conversions are the cast matrix.** Whatever the rules are, the list of conversions agrees
with the question of what converts; it holds nothing else and no overload twice, every function on
it is planned as a conversion, and all of them are rendered, one for each signature. -/
theorem casts_complete (r : Rules) :
    (∀ target, r.CastsAgree target) ∧
      (∀ sig ∈ r.casts, ∃ target inputs, sig = castSignature target inputs ∧
        CastInputs target inputs ∧ ∃ f source, sig.shape = .ok (.cast f target source)) ∧
      (r.casts.map Signature.overloadKey).Nodup ∧
      ∃ fs, Signature.renderAll r.casts = .ok fs ∧
        fs.map RenderedFunction.signature = r.casts := by
  have listed : ∀ sig ∈ r.casts, ∃ target inputs, sig = castSignature target inputs ∧
      CastInputs target inputs ∧ ∃ f source, sig.shape = .ok (.cast f target source) := by
    intro sig hsig
    obtain ⟨target, inputs, converts, rfl⟩ := mem_casts_iff.1 hsig
    exact ⟨target, inputs, rfl, converts.castInputs, converts.exists_shape⟩
  refine ⟨r.castsAgree, listed, r.nodup_overloadKey_casts, ?_⟩
  have planned : ∀ sig ∈ r.casts, ∃ shape, sig.shape = .ok shape := by
    intro sig hsig
    obtain ⟨target, _, _, _, f, source, hshape⟩ := listed sig hsig
    exact ⟨_, hshape⟩
  obtain ⟨fs, hfs⟩ := Signature.exists_renderAll_eq_ok planned
  exact ⟨fs, hfs, (Signature.renderAll_eq_ok_iff.1 hfs).1⟩

end FheSolidity.Rules
