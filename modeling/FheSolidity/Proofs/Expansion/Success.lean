import FheSolidity.Proofs.Expansion.Emitted

/-!
# When expansion succeeds

The expander asks one question before it looks at any tuple: whether a result in the clear is
declared of one encrypted input. If the answer is right it never fails afterwards, because every
tuple that it makes then yields a result. The only operations whose tuples may lack one are the
generators, and of those it makes no tuples.
-/

namespace FheSolidity.Operation

variable {op : Operation} {r : Rules} {tuple : List ValueType}

/-- The check comes first, so its error is the error of the expansion. -/
theorem expand_of_check_error {e : ExpansionError} (check : op.checkPlainReturn = .error e) :
    op.expand r = .error e :=
  bind_eq_error_iff.2 (.inl check)

/-- A result in the clear is declared of exactly one encrypted input. -/
theorem checkPlainReturn_eq_ok_iff : op.checkPlainReturn = .ok () ↔
    (op.returns = .plain →
      op.inputs = [.encrypted] ∨ ∃ s, op.inputs = [.fixed (.encrypted s)]) := by
  unfold checkPlainReturn
  split
  · next declared =>
    simp only [declared, true_implies]
    split
    · next h => simp [h]
    · next s h => simp [h]
    · next kind hne hne' h =>
      simp only [h, reduceCtorEq, List.cons.injEq, and_true, false_iff, not_or, not_exists]
      exact ⟨hne, hne'⟩
    · next hne hne' _ =>
      simp only [reduceCtorEq, false_iff, not_or, not_exists]
      exact ⟨hne, hne'⟩
  · next declared => simp [declared]

/-- An operation that is no generator has an input that its encrypted result depends on. -/
theorem exists_not_isNeutral (declared : op.returns = .encrypted)
    (hgen : op.isGenerator = false) : ∃ kind ∈ op.inputs, isNeutral kind = false := by
  simp only [isGenerator, declared, beq_self_eq_true, Bool.true_and, List.all_eq_false] at hgen
  obtain ⟨kind, hkind, h⟩ := hgen
  exact ⟨kind, hkind, by simpa using h⟩

/-- Unless it is a byte string, what stands at such an input takes part in promotion. -/
theorem scalar?_ne_none_of_fits {kind : InputKind} {t : ValueType} (fit : r.Fits op.name kind t)
    (counts : isNeutral kind = false) (notBytes : t ≠ .fixed .bytes) : t.scalar? ≠ none := by
  cases fit with
  | encrypted | plain => simp [ValueType.scalar?]
  | fixed =>
    intro none
    simp [isNeutral, none, ValueType.isByteString, notBytes] at counts

/-- Every tuple that is made yields a result. -/
theorem exists_yields_of_fits (check : op.checkPlainReturn = .ok ())
    (hgen : op.isGenerator = false) (fits : List.Forall₂ (r.Fits op.name) op.inputs tuple) :
    ∃ returns, op.Yields tuple returns := by
  cases declared : op.returns with
  | plain =>
    rcases checkPlainReturn_eq_ok_iff.1 check declared with inputs | ⟨s, inputs⟩
    · rw [inputs] at fits
      rcases fits with _ | ⟨⟨⟩, ⟨⟩⟩
      exact ⟨_, .plain declared rfl⟩
    · rw [inputs] at fits
      rcases fits with _ | ⟨⟨⟩, ⟨⟩⟩
      exact ⟨_, .plain declared rfl⟩
  | explicit t => exact ⟨_, .explicit declared⟩
  | nothing => exact ⟨_, .nothing declared⟩
  | encrypted =>
    by_cases mem : .fixed .bytes ∈ tuple
    · exact ⟨_, .bytes declared mem⟩
    · obtain ⟨kind, hkind, counts⟩ := exists_not_isNeutral declared hgen
      obtain ⟨t, ht, fit⟩ := exists_of_forall₂_of_mem_left fits hkind
      have scalar := scalar?_ne_none_of_fits fit counts fun same => mem (same ▸ ht)
      have promoted : promoted? tuple ≠ none := fun none =>
        scalar (promoted?_eq_none_iff.1 none t ht)
      obtain ⟨s, hs⟩ := Option.ne_none_iff_exists'.1 promoted
      exact ⟨_, .promoted declared mem (promoted?_eq_some_iff.1 hs)⟩

/-- Past the check of a result in the clear, nothing in an expansion fails. -/
theorem exists_expand_eq_ok (r : Rules) (check : op.checkPlainReturn = .ok ()) :
    ∃ sigs, op.expand r = .ok sigs := by
  cases hgen : op.isGenerator with
  | true => exact ⟨_, (expand_eq_ok_iff_of_generator hgen).2 ⟨check, rfl⟩⟩
  | false =>
    have groups : ∃ groups, (op.tuples r).mapM (op.expandTuple r) = .ok groups := by
      refine exists_mapM_eq_ok fun tuple htuple => ?_
      by_cases kept : op.skip? r tuple = none
      · obtain ⟨returns, yields⟩ := exists_yields_of_fits check hgen (mem_tuples_iff.1 htuple).1
        exact ⟨_, expandTuple_eq_ok_iff.2 (.inr ⟨kept, returns, yields, rfl⟩)⟩
      · exact ⟨_, expandTuple_eq_ok_iff.2 (.inl ⟨kept, rfl⟩)⟩
    obtain ⟨groups, hgroups⟩ := groups
    exact ⟨_, (expand_eq_ok_iff_of_not_generator hgen).2
      ⟨check, groups, mapM_eq_ok_iff.1 hgroups, rfl⟩⟩

end FheSolidity.Operation
