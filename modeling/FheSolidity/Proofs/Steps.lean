import FheSolidity.Generator
import FheSolidity.Proofs.Lists

/-!
# Steps that may fail

The generator runs in `Except`. These lemmas take a run apart, one that succeeds and one that fails:
a sequence of two steps, one step for every element of a list, and a step whose error is lifted to
its stage.
-/

namespace FheSolidity

variable {ε α β : Type}

theorem bind_eq_ok_iff {x : Except ε α} {f : α → Except ε β} {b : β} :
    x >>= f = .ok b ↔ ∃ a, x = .ok a ∧ f a = .ok b := by
  cases x with
  | error e => simp [bind, Except.bind]
  | ok a => simp [bind, Except.bind]

/-- A check before a step has to pass. -/
theorem check_bind_eq_ok_iff {check : Except ε Unit} {f : Unit → Except ε β} {b : β} :
    check >>= f = .ok b ↔ check = .ok () ∧ f () = .ok b := by
  rw [bind_eq_ok_iff]
  exact ⟨fun ⟨(), h⟩ => h, fun h => ⟨(), h⟩⟩

theorem atStage_eq_ok_iff {stage : ε → GeneratorError} {x : Except ε α} {a : α} :
    atStage stage x = .ok a ↔ x = .ok a := by
  cases x <;> simp [atStage]

/-- A sequence of two steps fails with the error of either. -/
theorem bind_eq_error_iff {x : Except ε α} {f : α → Except ε β} {e : ε} :
    x >>= f = .error e ↔ x = .error e ∨ ∃ a, x = .ok a ∧ f a = .error e := by
  cases x with
  | error e' => simp [bind, Except.bind]
  | ok a => simp [bind, Except.bind]

/-- What is made of the result of a step does not fail. -/
theorem bind_pure_eq_error_iff {x : Except ε α} {f : α → β} {e : ε} :
    (x >>= fun a => pure (f a)) = .error e ↔ x = .error e := by
  cases x with
  | error e' => simp [bind, Except.bind]
  | ok a => simp [bind, Except.bind, pure, Except.pure]

theorem map_eq_ok_iff {x : Except ε α} {f : α → β} {b : β} :
    x.map f = .ok b ↔ ∃ a, x = .ok a ∧ f a = b := by
  cases x <;> simp [Except.map]

theorem map_eq_error_iff {x : Except ε α} {f : α → β} {e : ε} :
    x.map f = .error e ↔ x = .error e := by
  cases x <;> simp [Except.map]

theorem mapError_eq_ok_iff {ε' : Type} {x : Except ε α} {f : ε → ε'} {a : α} :
    x.mapError f = .ok a ↔ x = .ok a := by
  cases x <;> simp [Except.mapError]

theorem mapError_eq_error_iff {ε' : Type} {x : Except ε α} {f : ε → ε'} {e : ε'} :
    x.mapError f = .error e ↔ ∃ cause, x = .error cause ∧ f cause = e := by
  cases x <;> simp [Except.mapError]

theorem atStage_eq_error_iff {stage : ε → GeneratorError} {x : Except ε α} {e : GeneratorError} :
    atStage stage x = .error e ↔ ∃ cause, x = .error cause ∧ e = stage cause := by
  cases x <;> simp [atStage, eq_comm]

/-- One step for each element fails with the error of the first that fails. -/
theorem mapM_eq_error_iff {f : α → Except ε β} {as : List α} {e : ε} :
    as.mapM f = .error e ↔ ∃ before a after, as = before ++ a :: after ∧
      (∀ a' ∈ before, ∃ b, f a' = .ok b) ∧ f a = .error e := by
  induction as with
  | nil => simp [pure, Except.pure]
  | cons a as ih =>
    rw [List.mapM_cons, bind_eq_error_iff]
    constructor
    · rintro (first | ⟨b, hb, h⟩)
      · exact ⟨[], a, as, rfl, List.forall_mem_nil _, first⟩
      · rcases bind_eq_error_iff.1 h with later | ⟨bs, _, h⟩
        · obtain ⟨before, a', after, rfl, earlier, fails⟩ := ih.1 later
          refine ⟨a :: before, a', after, rfl, ?_, fails⟩
          intro x hx
          rcases List.mem_cons.1 hx with rfl | hx
          · exact ⟨b, hb⟩
          · exact earlier x hx
        · cases h
    · rintro ⟨before, a', after, split, earlier, fails⟩
      cases before with
      | nil =>
        cases split
        exact .inl fails
      | cons x before =>
        cases split
        obtain ⟨b, hb⟩ := earlier a List.mem_cons_self
        have later : (before ++ a' :: after).mapM f = .error e :=
          ih.2 ⟨before, a', after, rfl, fun y hy => earlier y (List.mem_cons_of_mem a hy), fails⟩
        exact .inr ⟨b, hb, bind_eq_error_iff.2 (.inl later)⟩

/-- Steps one after another fail with the error of the first that fails. -/
theorem foldlM_eq_error_iff {f : β → α → Except ε β} {as : List α} {b : β} {e : ε} :
    as.foldlM f b = .error e ↔ ∃ before a after b', as = before ++ a :: after ∧
      before.foldlM f b = .ok b' ∧ f b' a = .error e := by
  induction as generalizing b with
  | nil => simp [pure, Except.pure]
  | cons a as ih =>
    rw [List.foldlM_cons, bind_eq_error_iff]
    constructor
    · rintro (first | ⟨b', hb', later⟩)
      · exact ⟨[], a, as, b, rfl, rfl, first⟩
      · obtain ⟨before, x, after, b'', rfl, earlier, fails⟩ := ih.1 later
        exact ⟨a :: before, x, after, b'', rfl, bind_eq_ok_iff.2 ⟨b', hb', earlier⟩, fails⟩
    · rintro ⟨before, x, after, b'', split, earlier, fails⟩
      cases before with
      | nil =>
        cases split
        cases earlier
        exact .inl fails
      | cons y before =>
        cases split
        obtain ⟨b', hb', earlier⟩ := bind_eq_ok_iff.1 earlier
        exact .inr ⟨b', hb', ih.2 ⟨before, x, after, b'', rfl, earlier, fails⟩⟩

/-- What holds before steps one after another, and is kept by each of them, holds after them. -/
theorem foldlM_induction {f : β → α → Except ε β} {P : β → Prop} {as : List α} {b b' : β}
    (h : as.foldlM f b = .ok b') (start : P b)
    (step : ∀ b a b', f b a = .ok b' → P b → P b') : P b' := by
  induction as generalizing b with
  | nil =>
    cases h
    exact start
  | cons a as ih =>
    obtain ⟨next, first, later⟩ := bind_eq_ok_iff.1 h
    exact ih later (step b a next first start)

/-- One step for each element succeeds exactly if every step does. -/
theorem mapM_eq_ok_iff {f : α → Except ε β} {as : List α} {bs : List β} :
    as.mapM f = .ok bs ↔ List.Forall₂ (fun a b => f a = .ok b) as bs := by
  induction as generalizing bs with
  | nil => simp [pure, Except.pure, eq_comm]
  | cons a as ih =>
    rw [List.mapM_cons, bind_eq_ok_iff, List.forall₂_cons_left_iff]
    constructor
    · rintro ⟨b, hb, h⟩
      obtain ⟨bs', hbs, h⟩ := bind_eq_ok_iff.1 h
      cases h
      exact ⟨b, bs', hb, ih.1 hbs, rfl⟩
    · rintro ⟨b, bs', hb, hbs, rfl⟩
      exact ⟨b, hb, bind_eq_ok_iff.2 ⟨bs', ih.2 hbs, rfl⟩⟩

/-- One step for each element succeeds if every step does. -/
theorem exists_mapM_eq_ok {f : α → Except ε β} {as : List α} (h : ∀ a ∈ as, ∃ b, f a = .ok b) :
    ∃ bs, as.mapM f = .ok bs := by
  induction as with
  | nil => exact ⟨[], rfl⟩
  | cons a as ih =>
    obtain ⟨b, hb⟩ := h a List.mem_cons_self
    obtain ⟨bs, hbs⟩ := ih fun a' ha' => h a' (List.mem_cons_of_mem a ha')
    refine ⟨b :: bs, ?_⟩
    rw [List.mapM_cons]
    exact bind_eq_ok_iff.2 ⟨b, hb, bind_eq_ok_iff.2 ⟨bs, hbs, rfl⟩⟩

end FheSolidity
