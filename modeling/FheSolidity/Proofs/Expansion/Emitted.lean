import FheSolidity.Proofs.Expansion.Admissible
import FheSolidity.Proofs.Steps

/-!
# What an expansion holds

`Emits` says in full what a signature of an operation's expansion can be: the signature of an
admissible tuple, its tagged variant if the operation seals, or one function of a generator.
`Yields` says what stands behind the result type of the first kind. Later theorems argue by these
cases and never unfold the expander.
-/

namespace FheSolidity

/-- The result type of an operation on a tuple. -/
inductive Operation.Yields (op : Operation) (tuple : List ValueType) : Option ValueType → Prop where
  | plain {s : Scalar} (declared : op.returns = .plain) (only : tuple = [.encrypted s]) :
      op.Yields tuple (some (.plain s))
  | explicit {t : ValueType} (declared : op.returns = .explicit t) : op.Yields tuple (some t)
  | nothing (declared : op.returns = .nothing) : op.Yields tuple none
  | bytes (declared : op.returns = .encrypted) (mem : .fixed .bytes ∈ tuple) :
      op.Yields tuple (some (.fixed .bytes))
  | promoted {s : Scalar} (declared : op.returns = .encrypted) (notMem : .fixed .bytes ∉ tuple)
      (highest : IsHighest s tuple) : op.Yields tuple (some (.encrypted s))

section

variable (name : String) (inputs : List ValueType) (returns : Option ValueType)

@[simp] theorem Signature.operation_ofOperation :
    (ofOperation name inputs returns).operation = name := rfl

@[simp] theorem Signature.symbol_ofOperation :
    (ofOperation name inputs returns).symbol = name := rfl

@[simp] theorem Signature.inputs_ofOperation :
    (ofOperation name inputs returns).inputs = inputs := rfl

end

/-- Whether a signature is the variant of sealing with a tagged result. -/
def Signature.isTypedSeal (sig : Signature) : Bool :=
  Rules.isSeal sig.operation && sig.symbol == Rules.typedSealSymbol

/-- The variant of sealing an encrypted `s`, with further inputs `rest`, that tags its result. -/
def Signature.typedSeal (operation : String) (s : Scalar) (rest : List ValueType) : Signature :=
  { ofOperation operation (.encrypted s :: rest) (some (.fixed (.sealed s.sealFamily))) with
    symbol := Rules.typedSealSymbol }

/-- The function of a generator for an encrypted `s`. -/
def Signature.generated (op : Operation) (s : Scalar) (inputs : List ValueType) : Signature :=
  { ofOperation op.name inputs (some (.encrypted s)) with symbol := op.generatorSymbol s }

namespace Operation

/-- What a signature of an operation's expansion can be. -/
inductive Emits (op : Operation) (r : Rules) : Signature → Prop where
  | plain {tuple : List ValueType} {returns : Option ValueType}
      (notGenerator : op.isGenerator = false) (admissible : op.Admissible r tuple)
      (yields : op.Yields tuple returns) : Emits op r (.ofOperation op.name tuple returns)
  | typedSeal {s : Scalar} {rest : List ValueType} (notGenerator : op.isGenerator = false)
      (seals : Rules.isSeal op.name = true) (offered : r.typedSeal = true)
      (admissible : op.Admissible r (.encrypted s :: rest)) :
      Emits op r (.typedSeal op.name s rest)
  | generated {s : Scalar} {inputs : List ValueType} (generator : op.isGenerator = true)
      (allowed : r.allows s op.name = true) (variant : inputs ∈ op.generatorInputs) :
      Emits op r (.generated op s inputs)

variable {op : Operation} {r : Rules} {tuple : List ValueType} {sigs : List Signature}

theorem Emits.family {sig : Signature} (h : op.Emits r sig) : sig.family = .operation := by
  cases h <;> rfl

theorem Emits.operation {sig : Signature} (h : op.Emits r sig) : sig.operation = op.name := by
  cases h <;> rfl

theorem resolveReturn_eq_ok_iff {returns : Option ValueType} :
    op.resolveReturn tuple = .ok returns ↔ op.Yields tuple returns := by
  constructor
  · intro h
    unfold resolveReturn at h
    split at h
    · next declared =>
      split at h
      · cases h
        exact .plain declared rfl
      · cases h
      · cases h
    · next declared =>
      cases h
      exact .explicit declared
    · next declared =>
      cases h
      exact .nothing declared
    · next declared =>
      split at h
      · next hb =>
        cases h
        exact .bytes declared (by simpa [ValueType.isByteString] using hb)
      · next hb =>
        split at h
        · next hs =>
          cases h
          exact .promoted declared (by simpa [ValueType.isByteString] using hb)
            (promoted?_eq_some_iff.1 hs)
        · cases h
  · intro h
    cases h with
    | plain declared only => simp [resolveReturn, declared, only]
    | explicit declared => simp [resolveReturn, declared]
    | nothing declared => simp [resolveReturn, declared]
    | bytes declared mem => simp [resolveReturn, declared, ValueType.isByteString, mem]
    | promoted declared notMem highest =>
      simp [resolveReturn, declared, ValueType.isByteString, notMem,
        promoted?_eq_some_iff.2 highest]

theorem typedSealVariant?_eq_some_iff {sig : Signature} :
    op.typedSealVariant? r tuple = some sig ↔ Rules.isSeal op.name = true ∧ r.typedSeal = true ∧
      ∃ s rest, tuple = .encrypted s :: rest ∧ sig = .typedSeal op.name s rest := by
  unfold typedSealVariant?
  split
  · next h =>
    rw [Bool.and_eq_true] at h
    split
    · simp [h, Signature.typedSeal, eq_comm]
    · next hne =>
      simp only [reduceCtorEq, false_iff, not_and, not_exists]
      exact fun _ _ s rest heq => (hne s rest heq).elim
  · next h =>
    rw [Bool.and_eq_true, not_and] at h
    simp only [reduceCtorEq, false_iff, not_and, not_exists]
    exact fun seals offered => (h seals offered).elim

/-- A tuple gives no signatures if it is dropped, and else its own and that of its tagged
variant. -/
theorem expandTuple_eq_ok_iff : op.expandTuple r tuple = .ok sigs ↔
    (op.skip? r tuple ≠ none ∧ sigs = []) ∨
      (op.skip? r tuple = none ∧ ∃ returns, op.Yields tuple returns ∧
        sigs = .ofOperation op.name tuple returns :: (op.typedSealVariant? r tuple).toList) := by
  unfold expandTuple
  split
  · next h => simp [h, eq_comm]
  · next h =>
    simp only [h, ne_eq, not_true_eq_false, false_and, true_and, false_or, bind_eq_ok_iff,
      resolveReturn_eq_ok_iff, pure, Except.pure, Except.ok.injEq]
    exact exists_congr fun _ => and_congr_right fun _ => eq_comm

theorem Yields.unique {t u : Option ValueType} (ht : op.Yields tuple t)
    (hu : op.Yields tuple u) : t = u := by
  rw [← resolveReturn_eq_ok_iff] at ht hu
  exact Except.ok.inj (ht.symm.trans hu)

/-- The expansion of an operation that is no generator, group by group. -/
theorem expand_eq_ok_iff_of_not_generator (hgen : op.isGenerator = false) :
    op.expand r = .ok sigs ↔ op.checkPlainReturn = .ok () ∧ ∃ groups,
      List.Forall₂ (fun tuple group => op.expandTuple r tuple = .ok group) (op.tuples r) groups ∧
        sigs = groups.flatten := by
  rw [expand, check_bind_eq_ok_iff]
  simp only [hgen, Bool.false_eq_true, ↓reduceIte, bind_eq_ok_iff, mapM_eq_ok_iff, pure,
    Except.pure, Except.ok.injEq]
  exact and_congr_right fun _ => exists_congr fun _ => and_congr_right fun _ => eq_comm

theorem expand_eq_ok_iff_of_generator (hgen : op.isGenerator = true) :
    op.expand r = .ok sigs ↔ op.checkPlainReturn = .ok () ∧ sigs = op.expandGenerator r := by
  rw [expand, check_bind_eq_ok_iff]
  simp only [hgen, ↓reduceIte, pure, Except.pure, Except.ok.injEq]
  exact and_congr_right fun _ => eq_comm

theorem mem_expandGenerator_iff {sig : Signature} : sig ∈ op.expandGenerator r ↔
    ∃ s, r.allows s op.name = true ∧ ∃ inputs ∈ op.generatorInputs,
      sig = .generated op s inputs := by
  simp only [expandGenerator, List.mem_flatMap, List.mem_filter, Scalar.mem_all, true_and,
    List.mem_map, Signature.generated, eq_comm]

/-- An expansion holds what `Emits` says, and all of it. -/
theorem mem_expand_iff (h : op.expand r = .ok sigs) {sig : Signature} :
    sig ∈ sigs ↔ op.Emits r sig := by
  by_cases hgen : op.isGenerator = true
  · obtain ⟨_, rfl⟩ := (expand_eq_ok_iff_of_generator hgen).1 h
    rw [mem_expandGenerator_iff]
    constructor
    · rintro ⟨s, allowed, inputs, variant, rfl⟩
      exact .generated hgen allowed variant
    · intro emits
      cases emits with
      | plain notGenerator | typedSeal notGenerator => simp [hgen] at notGenerator
      | generated _ allowed variant => exact ⟨_, allowed, _, variant, rfl⟩
  · rw [Bool.not_eq_true] at hgen
    obtain ⟨_, groups, hgroups, rfl⟩ := (expand_eq_ok_iff_of_not_generator hgen).1 h
    rw [List.mem_flatten]
    constructor
    · rintro ⟨group, hgroup, hsig⟩
      obtain ⟨tuple, htuple, hok⟩ := exists_of_forall₂_of_mem_right hgroups hgroup
      rcases expandTuple_eq_ok_iff.1 hok with ⟨_, rfl⟩ | ⟨kept, returns, hyields, rfl⟩
      · cases hsig
      · have admissible := admissible_iff.2 ⟨htuple, kept⟩
        rw [List.mem_cons, Option.mem_toList, typedSealVariant?_eq_some_iff] at hsig
        rcases hsig with rfl | ⟨seals, offered, s, rest, rfl, rfl⟩
        · exact .plain hgen admissible hyields
        · exact .typedSeal hgen seals offered admissible
    · -- The group of an admissible tuple holds its signature and, if there is one, the variant.
      have group_of (tuple : List ValueType) (admissible : op.Admissible r tuple) :
          ∃ group ∈ groups, ∃ returns, op.Yields tuple returns ∧ group =
            .ofOperation op.name tuple returns :: (op.typedSealVariant? r tuple).toList := by
        obtain ⟨htuple, kept⟩ := admissible_iff.1 admissible
        obtain ⟨group, hgroup, hok⟩ := exists_of_forall₂_of_mem_left hgroups htuple
        rcases expandTuple_eq_ok_iff.1 hok with ⟨dropped, _⟩ | ⟨_, returns, hyields, rfl⟩
        · exact (dropped kept).elim
        · exact ⟨_, hgroup, returns, hyields, rfl⟩
      intro emits
      cases emits with
      | generated generator => simp [hgen] at generator
      | plain _ admissible hyields =>
        obtain ⟨_, hgroup, returns, hyields', rfl⟩ := group_of _ admissible
        exact ⟨_, hgroup, hyields.unique hyields' ▸ List.mem_cons_self⟩
      | typedSeal _ seals offered admissible =>
        obtain ⟨_, hgroup, _, _, rfl⟩ := group_of _ admissible
        refine ⟨_, hgroup, List.mem_cons_of_mem _ ?_⟩
        rw [Option.mem_toList, typedSealVariant?_eq_some_iff]
        exact ⟨seals, offered, _, _, rfl, rfl⟩

end Operation

end FheSolidity
