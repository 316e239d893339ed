import FheSolidity.Proofs.Casts
import FheSolidity.Proofs.Expansion.Exact
import FheSolidity.Proofs.Expansion.Generators
import FheSolidity.Shape

/-!
# Mixed operands

A function of an encrypted `s` and a `p` in the clear is computed in the higher of the two, which
has to support the operation, and each operand of another type is converted to it. The expander
asks for this where both inputs are declared as families of operands. A type that is declared by
name gets past the question, so `mixed_sound_iff` is an equivalence: the functions of an operation
are sound if the question was asked, and otherwise exactly if the declared types happen to agree.
-/

namespace FheSolidity

/-- A function of an encrypted `s` and a `p` in the clear can be computed in the higher of the two,
and the conversions that its body calls exist. -/
structure Rules.MixedSound (r : Rules) (operation : String) (s p : Scalar) : Prop where
  computes : r.ComputesIn operation [.encrypted s, .plain p] (max s p)
  conversion : ∀ t ∈ [ValueType.encrypted s, .plain p], t ≠ .encrypted (max s p) →
    Rules.castSignature (max s p) [Rules.castArgument t] ∈ r.casts

/-- Whatever the rules can compute has its conversions. -/
theorem Rules.ComputesIn.mixedSound {r : Rules} {operation : String} {s p : Scalar}
    (h : r.ComputesIn operation [.encrypted s, .plain p] (max s p)) :
    r.MixedSound operation s p := by
  refine ⟨h, fun t ht hne => Rules.castSignature_mem_casts_iff.2 ?_⟩
  have converts := h.converts t ht hne
  rw [List.mem_cons, List.mem_singleton] at ht
  rcases ht with rfl | rfl
  · exact Rules.convertsFrom_castArgument (s := s) rfl converts
  · exact Rules.convertsFrom_castArgument (s := p) rfl converts

/-- The body of a mixed function of an operation is binary: it dispatches on the higher of its two
operands. -/
theorem Signature.shape_of_mixed {sig : Signature} {s p : Scalar} {shape : Shape}
    (family : sig.family = .operation) (inputs : sig.inputs = [.encrypted s, .plain p])
    (h : sig.shape = .ok shape) : ∃ f output, shape = .binary f s (.plain p) output := by
  rw [Signature.shape, family] at h
  obtain ⟨f, _, h⟩ := bind_eq_ok_iff.1 h
  rw [inputs] at h
  simp only [operationShape?] at h
  cases houtput : output? sig.returns with
  | none => simp [houtput] at h
  | some output =>
    rw [houtput] at h
    cases h
    exact ⟨f, output, rfl⟩

namespace Operation

variable {op : Operation} {r : Rules} {sigs : List Signature}

/-- A generator has no input that takes part in promotion. -/
theorem isGenerator_eq_false_of_fits {tuple : List ValueType} {t : ValueType} {s : Scalar}
    (fits : List.Forall₂ (r.Fits op.name) op.inputs tuple) (mem : t ∈ tuple)
    (scalar : t.scalar? = some s) : op.isGenerator = false := by
  obtain ⟨kind, declared, fit⟩ := exists_of_forall₂_of_mem_right fits mem
  rw [Bool.eq_false_iff]
  intro hgen
  simp only [isGenerator, Bool.and_eq_true, List.all_eq_true] at hgen
  have neutral := hgen.2 kind declared
  cases fit with
  | encrypted | plain => cases neutral
  | fixed => simp [isNeutral, scalar] at neutral

/-- Declared types aside, the rules ask nothing of a mixed tuple beyond the kinds of its inputs. -/
theorem admissible_mixed_of_declared (declared : ¬op.HasTwoOperands) {s p : Scalar}
    (fits : List.Forall₂ (r.Fits op.name) op.inputs [.encrypted s, .plain p]) :
    op.Admissible r [.encrypted s, .plain p] where
  fits := fits
  noBooleans two := absurd two declared
  oneEncryptedType a b h := by simp at h
  sameType _ t u ht hu := by
    have only {v : ValueType} (hv : (.encrypted, v) ∈ op.inputs.zip [.encrypted s, .plain p]) :
        v = .encrypted s := by
      have mem := (List.of_mem_zip hv).2
      cases (List.forall₂_iff_zip.1 fits).2 hv with
      | encrypted => simpa using mem
    exact (only ht).trans (only hu).symm
  working two := absurd two declared

/-- An emitted mixed signature comes from an admissible tuple. -/
theorem Emits.admissible_of_mixed {sig : Signature} (emits : op.Emits r sig) {s p : Scalar}
    (inputs : sig.inputs = [.encrypted s, .plain p]) :
    op.Admissible r [.encrypted s, .plain p] := by
  cases emits with
  | plain _ admissible => exact inputs ▸ admissible
  | typedSeal _ _ _ admissible => exact inputs ▸ admissible
  | @generated _ variantInputs generator _ variant =>
    have same : variantInputs = [.encrypted s, .plain p] := inputs
    subst same
    have neutral := scalar?_of_mem_generatorInputs generator variant List.mem_cons_self
    cases neutral

/-- **Mixed operands.** Every mixed function of an operation is sound if and only if both inputs
are declared as families of operands, or every encrypted `s` and every `p` in the clear that its
declared inputs let through can be computed in the higher of the two. -/
theorem mixed_sound_iff (h : op.expand r = .ok sigs) :
    (∀ sig ∈ sigs, ∀ s p, sig.inputs = [.encrypted s, .plain p] →
        (∀ shape, sig.shape = .ok shape → ∃ f output, shape = .binary f s (.plain p) output) ∧
          r.MixedSound op.name s p) ↔
      op.HasTwoOperands ∨ ∀ s p, List.Forall₂ (r.Fits op.name) op.inputs [.encrypted s, .plain p] →
        r.ComputesIn op.name [.encrypted s, .plain p] (max s p) := by
  constructor
  · intro sound
    by_cases two : op.HasTwoOperands
    · exact .inl two
    · refine .inr fun s p fits => ?_
      have hgen := isGenerator_eq_false_of_fits fits List.mem_cons_self rfl
      obtain ⟨sig, hsig, inputs⟩ := exists_mem_expand_of_admissible hgen h
        (admissible_mixed_of_declared two fits)
      exact (sound sig hsig s p inputs).2.computes
  · intro condition sig hsig s p inputs
    have emits := (mem_expand_iff h).1 hsig
    refine ⟨fun _ => Signature.shape_of_mixed emits.family inputs, ?_⟩
    have admissible := emits.admissible_of_mixed inputs
    rcases condition with two | declared
    · obtain ⟨w, computes⟩ := admissible.working two
      have highest := promoted?_eq_some_iff.1
        (promoted?_pair (t := .encrypted s) (u := .plain p) rfl rfl)
      exact (computes.highest.unique highest ▸ computes).mixedSound
    · exact (declared s p admissible.fits).mixedSound

/-- Both inputs of `div` are families of operands, and all its mixed functions are sound. -/
theorem mixed_sound_iff_div :
    let op : Operation := { name := "div", inputs := [.encrypted, .plain] }
    ∃ sigs, op.expand .standard = .ok sigs ∧ sigs ≠ [] ∧
      ∀ sig ∈ sigs, ∀ s p, sig.inputs = [.encrypted s, .plain p] →
        (∀ shape, sig.shape = .ok shape → ∃ f output, shape = .binary f s (.plain p) output) ∧
          Rules.standard.MixedSound op.name s p :=
  ⟨_, rfl, by decide +kernel, (mixed_sound_iff rfl).2 (.inl ⟨rfl, by simp⟩)⟩

/-- A word declared by name gets past the rules: `div` is emitted for it, computed in a type that
has no division. -/
theorem div_by_declared_word_unsound :
    let op : Operation := { name := "div", inputs := [.encrypted, .fixed (.plain .uint256)] }
    ∃ sigs, op.expand .standard = .ok sigs ∧ ∃ sig ∈ sigs,
      sig.inputs = [.encrypted .uint8, .plain .uint256] ∧
        Rules.standard.allows (max .uint8 .uint256) op.name = false :=
  ⟨_, rfl, .ofOperation "div" [.encrypted .uint8, .plain .uint256] (some (.encrypted .uint256)),
    by decide +kernel, rfl, by decide⟩

end Operation

end FheSolidity
