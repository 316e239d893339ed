import Mathlib.Data.List.Flatten
import Mathlib.Data.List.Forall2
import Mathlib.Data.List.Nodup

/-!
# Lists made of lists

Everything that is generated is one list made from another. Lists whose elements are related in
pairs have the same views; a list joined from several holds nothing twice if each of its elements
tells where it comes from.
-/

namespace FheSolidity

variable {α β γ : Type}

section Forall₂

variable {R : α → β → Prop} {as : List α} {bs : List β}

/-- What is related to some element of the first list. -/
theorem exists_of_forall₂_of_mem_right (h : List.Forall₂ R as bs) {b : β} (hb : b ∈ bs) :
    ∃ a ∈ as, R a b := by
  induction h with
  | nil => cases hb
  | cons hab _ ih =>
    rcases List.mem_cons.1 hb with rfl | hb
    · exact ⟨_, List.mem_cons_self, hab⟩
    · obtain ⟨a, ha, hr⟩ := ih hb
      exact ⟨a, List.mem_cons_of_mem _ ha, hr⟩

/-- What some element of the second list is related to. -/
theorem exists_of_forall₂_of_mem_left (h : List.Forall₂ R as bs) {a : α} (ha : a ∈ as) :
    ∃ b ∈ bs, R a b :=
  exists_of_forall₂_of_mem_right h.flip ha

/-- Two views of related lists agree if they agree on related elements. -/
theorem map_eq_map_of_forall₂ {f : α → γ} {g : β → γ} (h : List.Forall₂ R as bs)
    (hfg : ∀ a b, R a b → g b = f a) : bs.map g = as.map f := by
  induction h with
  | nil => rfl
  | cons hab _ ih => rw [List.map_cons, List.map_cons, ih, hfg _ _ hab]

/-- The same for views that are lists, joined. -/
theorem flatMap_eq_flatMap_of_forall₂ {f : α → List γ} {g : β → List γ} (h : List.Forall₂ R as bs)
    (hfg : ∀ a b, R a b → g b = f a) : bs.flatMap g = as.flatMap f := by
  rw [List.flatMap_def, List.flatMap_def, map_eq_map_of_forall₂ h hfg]

/-- Lists made from fewer elements, each a part of the list made from the same element, make a part
of the whole. -/
theorem flatten_sublist_of_forall₂ {R S : α → List β → Prop} {as bs : List α}
    {groups wholes : List (List β)} (h : as.Sublist bs) (hgroups : List.Forall₂ R as groups)
    (hwholes : List.Forall₂ S bs wholes)
    (part : ∀ a group whole, R a group → S a whole → group.Sublist whole) :
    groups.flatten.Sublist wholes.flatten := by
  induction h generalizing groups wholes with
  | slnil =>
    cases hgroups
    exact List.nil_sublist _
  | cons b _ ih =>
    cases hwholes with
    | cons _ later => exact (ih hgroups later).trans (List.sublist_append_right _ _)
  | cons_cons a _ ih =>
    cases hgroups with
    | cons first fewer =>
      cases hwholes with
      | cons first' later => exact (part a _ _ first first').append (ih fewer later)

end Forall₂

/-- The first elements of two lists are among those of the first, or all of them and some of the
second. -/
theorem prefix_append_cases {l as bs : List α} (h : l <+: as ++ bs) :
    l <+: as ∨ ∃ more, l = as ++ more ∧ more <+: bs := by
  rcases List.prefix_or_prefix_of_prefix h (List.prefix_append as bs) with early | ⟨more, rfl⟩
  · exact .inl early
  · exact .inr ⟨more, rfl, (List.prefix_append_right_inj as).1 h⟩

/-- An element that is not among the first elements of a list stands behind them, with the same
rest behind it. -/
theorem exists_append_cons_eq_of_not_mem {a : α} {l m bs : List α} (as : List α) (ha : a ∉ as)
    (h : l ++ a :: m = as ++ bs) : ∃ l', l' ++ a :: m = bs := by
  rcases List.append_eq_append_iff.1 h with ⟨more, rfl, hmore⟩ | ⟨more, rfl, hbs⟩
  · cases more with
    | nil => exact ⟨[], hmore⟩
    | cons b more =>
      obtain ⟨rfl, _⟩ := List.cons.inj hmore
      simp at ha
  · exact ⟨more, hbs.symm⟩

/-- A list joined from several holds nothing twice, if none of them does and each element tells
which of them it comes from. -/
theorem nodup_flatMap_of_tells {as : List α} {f : α → List β} (has : as.Nodup)
    (hf : ∀ a ∈ as, (f a).Nodup) (tells : ∀ a ∈ as, ∀ a' ∈ as, ∀ b ∈ f a, b ∈ f a' → a = a') :
    (as.flatMap f).Nodup := by
  refine List.nodup_flatMap.2 ⟨hf, has.imp_of_mem fun {a a'} ha ha' hne => ?_⟩
  exact List.disjoint_left.2 fun b hb hb' => hne (tells a ha a' ha' b hb hb')

/-- A search for the key of an element finds that element, if no two of the list have one key. -/
theorem find?_eq_some_of_nodup_map {key : α → β} {same : β → β → Bool}
    (compares : ∀ x y, same x y = true ↔ x = y) {as : List α} (distinct : (as.map key).Nodup)
    {a : α} (ha : a ∈ as) : as.find? (fun a' => same (key a) (key a')) = some a := by
  obtain ⟨found, hfound⟩ : ∃ a', as.find? (fun a' => same (key a) (key a')) = some a' := by
    rw [← Option.isSome_iff_exists, List.find?_isSome]
    exact ⟨a, ha, (compares _ _).2 rfl⟩
  have mem := List.mem_of_find?_eq_some hfound
  have matches' := List.find?_some hfound
  rw [hfound, List.inj_on_of_nodup_map distinct ha mem ((compares _ _).1 matches')]

end FheSolidity
