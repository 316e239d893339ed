import FheSolidity.Proofs.Expansion.Success

/-!
# When expansion fails

An expansion has one way to fail: a result in the clear that is not declared of exactly one
encrypted input. `PlainReturnFault` says this of the declaration alone, so no rule has a part in
it. The other error that the result of a tuple can have, an encrypted result without an input that
determines its type, is that of generators, and their tuples are never asked for a result.
-/

namespace FheSolidity.Operation

/-- What is reported of a result in the clear without exactly one encrypted input: the kind of an
only input, and else how many inputs are declared. -/
inductive PlainReturnFault (op : Operation) : ExpansionError → Prop where
  | input {kind : InputKind} (declared : op.returns = .plain) (only : op.inputs = [kind])
      (notFamily : kind ≠ .encrypted) (notFixed : ∀ s, kind ≠ .fixed (.encrypted s)) :
      PlainReturnFault op (.plainReturnInput op.name kind.name)
  | arity (declared : op.returns = .plain) (notOne : op.inputs.length ≠ 1) :
      PlainReturnFault op (.plainReturnArity op.name op.inputs.length)

variable {op : Operation} {r : Rules}

theorem plainReturnFault_of_check_error {e : ExpansionError}
    (check : op.checkPlainReturn = .error e) : op.PlainReturnFault e := by
  unfold checkPlainReturn at check
  split at check
  · next declared =>
    split at check
    · cases check
    · cases check
    · next kind notFamily notFixed only =>
      cases check
      exact .input declared only notFamily notFixed
    · next _ _ notSingle =>
      cases check
      refine .arity declared fun one => ?_
      obtain ⟨kind, only⟩ := List.length_eq_one_iff.1 one
      exact notSingle kind only
  · cases check

/-- A faulty declaration does not pass the check. -/
theorem PlainReturnFault.check_ne_ok {e : ExpansionError} (fault : op.PlainReturnFault e) :
    op.checkPlainReturn ≠ .ok () := by
  rw [Ne, checkPlainReturn_eq_ok_iff]
  intro passes
  cases fault with
  | input declared only notFamily notFixed =>
    rcases passes declared with inputs | ⟨s, inputs⟩
    · exact notFamily (List.cons.inj (only.symm.trans inputs)).1
    · exact notFixed s (List.cons.inj (only.symm.trans inputs)).1
  | arity declared notOne =>
    rcases passes declared with inputs | ⟨s, inputs⟩ <;> exact notOne (by rw [inputs]; rfl)

/-- A declaration has at most one fault. -/
theorem PlainReturnFault.unique {e e' : ExpansionError} (fault : op.PlainReturnFault e)
    (fault' : op.PlainReturnFault e') : e = e' := by
  cases fault with
  | input _ only =>
    cases fault' with
    | input _ only' => rw [(List.cons.inj (only.symm.trans only')).1]
    | arity _ notOne => exact absurd (by rw [only]; rfl) notOne
  | arity _ notOne =>
    cases fault' with
    | input _ only => exact absurd (by rw [only]; rfl) notOne
    | arity => rfl

theorem checkPlainReturn_eq_error_iff {e : ExpansionError} :
    op.checkPlainReturn = .error e ↔ op.PlainReturnFault e := by
  refine ⟨plainReturnFault_of_check_error, fun fault => ?_⟩
  cases check : op.checkPlainReturn with
  | ok => exact absurd check fault.check_ne_ok
  | error e' => rw [(plainReturnFault_of_check_error check).unique fault]

theorem exists_plainReturnFault_iff : (∃ e, op.PlainReturnFault e) ↔ op.returns = .plain ∧
    ¬ (op.inputs = [.encrypted] ∨ ∃ s, op.inputs = [.fixed (.encrypted s)]) := by
  rw [← Classical.not_imp, ← checkPlainReturn_eq_ok_iff]
  constructor
  · rintro ⟨e, fault⟩
    exact fault.check_ne_ok
  · intro fails
    cases check : op.checkPlainReturn with
    | ok => exact absurd check fails
    | error e => exact ⟨e, plainReturnFault_of_check_error check⟩

/-- Past the check there is nothing left to fail, so its errors are all there are. -/
theorem expand_eq_error_iff {e : ExpansionError} :
    op.expand r = .error e ↔ op.PlainReturnFault e := by
  rw [← checkPlainReturn_eq_error_iff]
  refine ⟨fun fails => ?_, expand_of_check_error⟩
  cases check : op.checkPlainReturn with
  | ok =>
    obtain ⟨sigs, made⟩ := exists_expand_eq_ok r check
    rw [made] at fails
    cases fails
  | error e' =>
    rw [expand_of_check_error check] at fails
    rw [Except.error.inj fails]

/-- A tuple that is made and kept has a result. -/
theorem exists_resolveReturn_eq_ok (check : op.checkPlainReturn = .ok ())
    (notGenerator : op.isGenerator = false) {tuple : List ValueType} (made : tuple ∈ op.tuples r) :
    ∃ returns, op.resolveReturn tuple = .ok returns := by
  obtain ⟨returns, yields⟩ := exists_yields_of_fits check notGenerator (mem_tuples_iff.1 made).1
  exact ⟨returns, resolveReturn_eq_ok_iff.2 yields⟩

/-- **Failure.** Whatever the rules are, an operation fails to expand exactly if it declares a
result in the clear of anything but one encrypted input, and what is reported is that fault. Every
tuple that an expansion makes and keeps has a result, so it is never reported that an encrypted
result cannot be determined. -/
theorem expand_fails_iff (op : Operation) (r : Rules) :
    ((∃ e, op.expand r = .error e) ↔ op.returns = .plain ∧
        ¬ (op.inputs = [.encrypted] ∨ ∃ s, op.inputs = [.fixed (.encrypted s)])) ∧
      (∀ e, op.expand r = .error e ↔ op.PlainReturnFault e) ∧
      ((∀ e, op.expand r ≠ .error e) → op.isGenerator = false →
        ∀ tuple ∈ op.tuples r, op.skip? r tuple = none →
          ∃ returns, op.resolveReturn tuple = .ok returns) ∧
      ∀ name, op.expand r ≠ .error (.unresolvableReturn name) := by
  refine ⟨?_, fun e => expand_eq_error_iff, fun succeeds notGenerator tuple made _ => ?_, ?_⟩
  · simp only [expand_eq_error_iff, exists_plainReturnFault_iff]
  · cases check : op.checkPlainReturn with
    | ok => exact exists_resolveReturn_eq_ok check notGenerator made
    | error e => exact absurd (expand_of_check_error check) (succeeds e)
  · intro name fails
    cases expand_eq_error_iff.1 fails

/-- A result in the clear of a value that is in the clear already is refused, also by rules under
which no operation exists. `add` expands, and so its mixed tuples have results. -/
theorem expand_fails_iff_decrypt_add :
    let decrypt : Operation := { name := "decrypt", inputs := [.plain], returns := .plain }
    let closed : Rules := { Rules.standard with filter := fun _ => .only [] }
    let add : Operation := { name := "add", inputs := [.encrypted, .plain] }
    decrypt.expand closed = .error (.plainReturnInput "decrypt" "plaintext") ∧
      (∀ e, add.expand .standard ≠ .error e) ∧ add.isGenerator = false ∧
      [.encrypted .uint8, .plain .uint16] ∈ add.tuples .standard ∧
      add.skip? .standard [.encrypted .uint8, .plain .uint16] = none ∧
      ∃ returns, add.resolveReturn [.encrypted .uint8, .plain .uint16] = .ok returns := by
  intro decrypt closed add
  have fault : decrypt.PlainReturnFault (.plainReturnInput decrypt.name InputKind.plain.name) :=
    .input rfl rfl (by simp) (by simp)
  have succeeds : ∀ e, add.expand .standard ≠ .error e := by
    have made : add.expand .standard = .ok _ := rfl
    intro e
    rw [made]
    simp
  have made : [.encrypted .uint8, .plain .uint16] ∈ add.tuples .standard := by decide
  have kept : add.skip? .standard [.encrypted .uint8, .plain .uint16] = none := by decide
  exact ⟨((expand_fails_iff decrypt closed).2.1 _).2 fault, succeeds, rfl, made, kept,
    (expand_fails_iff add .standard).2.2.1 succeeds rfl _ made kept⟩

end FheSolidity.Operation
