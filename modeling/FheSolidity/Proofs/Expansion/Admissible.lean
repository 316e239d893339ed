import FheSolidity.Proofs.Expansion.Order

/-!
# Admissible tuples

`Admissible` gathers in one place, and without the order in which the expander asks, what the rules
demand of a tuple of input types. The tuples that the expander makes and does not drop are exactly
these.
-/

namespace FheSolidity

/-- What may stand at an input of a kind. An operand under encryption has to support the operation;
a declared type stands there whatever the rules say. -/
inductive Rules.Fits (r : Rules) (operation : String) : InputKind → ValueType → Prop where
  | encrypted {s : Scalar} (allowed : r.allows s operation = true) :
      r.Fits operation .encrypted (.encrypted s)
  | plain (s : Scalar) : r.Fits operation .plain (.plain s)
  | fixed (t : ValueType) : r.Fits operation (.fixed t) t

/-- An operation can be computed in `w`: its operands are promoted to `w`, it exists there, and
every operand of another type converts. -/
structure Rules.ComputesIn (r : Rules) (operation : String) (tuple : List ValueType) (w : Scalar) :
    Prop where
  highest : IsHighest w tuple
  allowed : r.allows w operation = true
  converts : ∀ t ∈ tuple, t ≠ .encrypted w → r.canCast t w = true

/-- Two inputs, each of which is any value of a family: under encryption or in the clear. -/
structure Operation.HasTwoOperands (op : Operation) : Prop where
  two : op.inputs.length = 2
  operands : ∀ kind ∈ op.inputs, kind = .encrypted ∨ kind = .plain

/-- What the rules demand of a tuple of input types. -/
structure Operation.Admissible (op : Operation) (r : Rules) (tuple : List ValueType) : Prop where
  fits : List.Forall₂ (r.Fits op.name) op.inputs tuple
  noBooleans : op.HasTwoOperands → op.boolean = false →
    .encrypted .bool ∉ tuple ∧ .plain .bool ∉ tuple
  oneEncryptedType : ∀ a b, tuple = [.encrypted a, .encrypted b] → a = b
  sameType : op.sameType = true → ∀ t u, (.encrypted, t) ∈ op.inputs.zip tuple →
    (.encrypted, u) ∈ op.inputs.zip tuple → t = u
  working : op.HasTwoOperands → ∃ w, r.ComputesIn op.name tuple w

theorem InputKind.isOperand_iff {kind : InputKind} :
    kind.isOperand = true ↔ kind = .encrypted ∨ kind = .plain := by
  cases kind <;> simp [isOperand]

namespace Operation

variable {op : Operation} {r : Rules} {tuple : List ValueType}

theorem isBinary_iff : op.isBinary = true ↔ op.HasTwoOperands := by
  simp only [isBinary, arity, Bool.and_eq_true, beq_iff_eq, List.all_eq_true,
    InputKind.isOperand_iff]
  exact ⟨fun h => ⟨h.1, h.2⟩, fun h => ⟨h.two, h.operands⟩⟩

theorem excludesBooleans_iff :
    op.excludesBooleans = true ↔ op.HasTwoOperands ∧ op.boolean = false := by
  rw [← isBinary_iff]
  simp [excludesBooleans]

theorem mem_candidates_iff {kind : InputKind} {t : ValueType} :
    t ∈ op.candidates r kind ↔ r.Fits op.name kind t ∧
      (op.excludesBooleans = true → kind.isOperand = true →
        t ≠ .encrypted .bool ∧ t ≠ .plain .bool) := by
  cases kind with
  | encrypted =>
    simp only [candidates, List.mem_map, List.mem_filter, Scalar.mem_all, true_and,
      Bool.and_eq_true, Bool.not_eq_true', Bool.and_eq_false_imp, beq_eq_false_iff_ne]
    constructor
    · rintro ⟨s, ⟨allowed, hb⟩, rfl⟩
      exact ⟨.encrypted allowed, fun he _ => ⟨by simpa using hb he, by simp⟩⟩
    · rintro ⟨⟨allowed⟩, hb⟩
      exact ⟨_, ⟨allowed, fun he => by simpa using (hb he rfl).1⟩, rfl⟩
  | plain =>
    simp only [candidates, List.mem_map, List.mem_filter, Scalar.mem_all, true_and,
      Bool.not_eq_true', Bool.and_eq_false_imp, beq_eq_false_iff_ne]
    constructor
    · rintro ⟨s, hb, rfl⟩
      exact ⟨.plain s, fun he _ => ⟨by simp, by simpa using hb he⟩⟩
    · rintro ⟨⟨⟩, hb⟩
      exact ⟨_, fun he => by simpa using (hb he rfl).2, rfl⟩
  | fixed u =>
    simp only [candidates, List.mem_singleton, InputKind.isOperand, Bool.false_eq_true,
      false_implies, implies_true, and_true]
    constructor
    · rintro rfl
      exact .fixed t
    · rintro ⟨⟩
      rfl

/-- The tuples before any of them are dropped. -/
theorem mem_tuples_iff : tuple ∈ op.tuples r ↔ List.Forall₂ (r.Fits op.name) op.inputs tuple ∧
    (op.HasTwoOperands → op.boolean = false →
      .encrypted .bool ∉ tuple ∧ .plain .bool ∉ tuple) := by
  rw [tuples, Expansion.mem_product_iff, List.forall₂_map_left_iff]
  simp only [mem_candidates_iff, List.forall₂_iff_zip]
  constructor
  · rintro ⟨len, h⟩
    refine ⟨⟨len, fun hk => (h hk).1⟩, fun two hbool => ?_⟩
    have clear (t : ValueType) (ht : t ∈ tuple) : t ≠ .encrypted .bool ∧ t ≠ .plain .bool := by
      obtain ⟨i, hi, rfl⟩ := List.mem_iff_getElem.1 ht
      have hkind : i < op.inputs.length := len ▸ hi
      have hz : (op.inputs[i], tuple[i]) ∈ op.inputs.zip tuple :=
        List.mem_iff_getElem.2 ⟨i, by simp [len, hi], by simp⟩
      exact (h hz).2 (excludesBooleans_iff.2 ⟨two, hbool⟩)
        (InputKind.isOperand_iff.2 (two.operands _ (List.getElem_mem _)))
    exact ⟨fun h => (clear _ h).1 rfl, fun h => (clear _ h).2 rfl⟩
  · rintro ⟨⟨len, fits⟩, hb⟩
    refine ⟨len, fun {kind t} hk => ⟨fits hk, fun he _ => ?_⟩⟩
    obtain ⟨two, hbool⟩ := excludesBooleans_iff.1 he
    have ht := (List.of_mem_zip hk).2
    exact ⟨fun h => (hb two hbool).1 (h ▸ ht), fun h => (hb two hbool).2 (h ▸ ht)⟩

theorem isCrossType_eq_false_iff :
    isCrossType tuple = false ↔ ∀ a b, tuple = [.encrypted a, .encrypted b] → a = b := by
  unfold isCrossType
  split
  · simp
  · next h =>
    simp only [true_iff]
    intro a b heq
    exact (h a b heq).elim

theorem allEqual_iff {ts : List ValueType} :
    allEqual ts = true ↔ ∀ t ∈ ts, ∀ u ∈ ts, t = u := by
  cases ts with
  | nil => simp [allEqual]
  | cons x ts =>
    simp only [allEqual, List.all_eq_true, beq_iff_eq]
    constructor
    · intro h
      have first (t : ValueType) (ht : t ∈ x :: ts) : t = x :=
        (List.mem_cons.1 ht).elim id (h t)
      exact fun t ht u hu => (first t ht).trans (first u hu).symm
    · exact fun h t ht => h t (List.mem_cons_of_mem _ ht) x List.mem_cons_self

theorem mem_encryptedOperands_iff {t : ValueType} :
    t ∈ op.encryptedOperands tuple ↔ (.encrypted, t) ∈ op.inputs.zip tuple := by
  simp [encryptedOperands]

theorem binarySkip?_eq_none_iff : op.binarySkip? r tuple = none ↔
    ∀ w, promoted? tuple = some w → r.ComputesIn op.name tuple w := by
  unfold binarySkip?
  split
  · next h => simp [h]
  · next w h =>
    have highest := promoted?_eq_some_iff.1 h
    rw [h]
    split
    · next hno =>
      simp only [reduceCtorEq, Option.some.injEq, forall_eq', false_iff]
      intro hw
      simp [hw.allowed] at hno
    · next hyes =>
      have allowed : r.allows w op.name = true := by simpa using hyes
      simp only [Option.map_eq_none_iff, List.find?_eq_none, Bool.and_eq_true, bne_iff_ne,
        Bool.not_eq_true', not_and, Bool.not_eq_false, Option.some.injEq, forall_eq']
      exact ⟨fun h => ⟨highest, allowed, h⟩, fun hw => hw.converts⟩

/-- Operands have scalars, so a binary operation always has a type to be computed in. -/
theorem HasTwoOperands.exists_promoted (h : op.HasTwoOperands)
    (fits : List.Forall₂ (r.Fits op.name) op.inputs tuple) : ∃ w, promoted? tuple = some w := by
  obtain ⟨len, operands⟩ := h
  generalize op.inputs = kinds at *
  cases fits with
  | nil => cases len
  | cons first _ =>
    rw [← Option.ne_none_iff_exists', Ne, promoted?_eq_none_iff]
    intro none
    have operand := operands _ List.mem_cons_self
    have none := none _ List.mem_cons_self
    cases first with
    | encrypted => cases none
    | plain => cases none
    | fixed => rcases operand with operand | operand <;> cases operand

theorem skip?_eq_none_iff : op.skip? r tuple = none ↔
    (∀ a b, tuple = [.encrypted a, .encrypted b] → a = b) ∧
      (op.sameType = true → ∀ t u, (.encrypted, t) ∈ op.inputs.zip tuple →
        (.encrypted, u) ∈ op.inputs.zip tuple → t = u) ∧
      (op.isBinary = true → ∀ w, promoted? tuple = some w → r.ComputesIn op.name tuple w) := by
  have same : op.sameType = true ∧ allEqual (op.encryptedOperands tuple) = false ↔
      ¬ (op.sameType = true → ∀ t u, (.encrypted, t) ∈ op.inputs.zip tuple →
        (.encrypted, u) ∈ op.inputs.zip tuple → t = u) := by
    rw [Classical.not_imp, ← Bool.not_eq_true, allEqual_iff]
    simp only [mem_encryptedOperands_iff]
    exact and_congr_right fun _ => not_congr
      ⟨fun h t u ht hu => h t ht u hu, fun h t ht u hu => h t u ht hu⟩
  rw [skip?, ← isCrossType_eq_false_iff, ← binarySkip?_eq_none_iff]
  split
  · next h => simp [h]
  · next h =>
    rw [Bool.not_eq_true] at h
    simp only [h, true_and]
    split
    · next hs =>
      rw [Bool.and_eq_true, Bool.not_eq_true', same] at hs
      simp [hs]
    · next hs =>
      rw [Bool.and_eq_true, Bool.not_eq_true', same, not_not] at hs
      split
      · next hbin => exact ⟨fun h => ⟨hs, fun _ => h⟩, fun h => h.2 hbin⟩
      · next hbin => exact iff_of_true rfl ⟨hs, fun h => (hbin h).elim⟩

/-- The tuples that are made and not dropped are the admissible ones. -/
theorem admissible_iff :
    op.Admissible r tuple ↔ tuple ∈ op.tuples r ∧ op.skip? r tuple = none := by
  rw [mem_tuples_iff, skip?_eq_none_iff, isBinary_iff]
  constructor
  · rintro ⟨fits, noBooleans, oneEncryptedType, sameType, working⟩
    refine ⟨⟨fits, noBooleans⟩, oneEncryptedType, sameType, fun two w hw => ?_⟩
    obtain ⟨v, hv⟩ := working two
    cases (promoted?_eq_some_iff.1 hw).unique hv.highest
    exact hv
  · rintro ⟨⟨fits, noBooleans⟩, oneEncryptedType, sameType, working⟩
    refine ⟨fits, noBooleans, oneEncryptedType, sameType, fun two => ?_⟩
    obtain ⟨w, hw⟩ := two.exists_promoted fits
    exact ⟨w, working two w hw⟩

end Operation

end FheSolidity
