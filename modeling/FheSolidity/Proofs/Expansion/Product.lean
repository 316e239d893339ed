import Mathlib.Algebra.BigOperators.Group.List.Lemmas
import FheSolidity.Proofs.Expansion.Order

/-!
# Positions in a product

The tuples of a product are counted in a mixed radix: a number below the count of tuples has one
digit for each list, the last list varies fastest, and the digits are the positions of the entries.
So every tuple stands where its entries say, and a product of lists without repetition repeats none.
-/

namespace FheSolidity.Expansion

variable {α β : Type}

/-- The number of ways to take one element from each list. -/
def tupleCount (lists : List (List α)) : Nat :=
  (lists.map List.length).prod

theorem tupleCount_cons (xs : List α) (rest : List (List α)) :
    tupleCount (xs :: rest) = xs.length * tupleCount rest := by
  rw [tupleCount, List.map_cons, List.prod_cons, ← tupleCount]

theorem length_product_eq_tupleCount (lists : List (List α)) :
    (product lists).length = tupleCount lists := by
  rw [length_product, tupleCount, List.prod_eq_foldr]

/-- The tuples from a list on are made of the elements of that list and the tuples behind it, so
their counts divide the count of all tuples. -/
theorem length_mul_tupleCount_dvd {lists : List (List α)} {i : Nat} {xs : List α}
    (h : lists[i]? = some xs) :
    tupleCount (lists.drop (i + 1)) * xs.length ∣ tupleCount lists := by
  obtain ⟨hi, rfl⟩ := List.getElem?_eq_some_iff.1 h
  have from_i : tupleCount (lists.drop i) =
      tupleCount (lists.drop (i + 1)) * lists[i].length := by
    rw [List.drop_eq_getElem_cons hi, tupleCount_cons, Nat.mul_comm]
  rw [← from_i]
  exact ((List.drop_sublist i lists).map List.length).prod_dvd_prod

/-- Lists of one length, one behind the other, are found by quotient and remainder. -/
theorem getElem?_flatMap_of_length {f : α → List β} {n : Nat} {as : List α}
    (len : ∀ a ∈ as, (f a).length = n) (positive : 0 < n) (k : Nat) :
    (as.flatMap f)[k]? = as[k / n]?.bind fun a => (f a)[k % n]? := by
  induction as generalizing k with
  | nil => simp
  | cons a as ih =>
    have first := len a List.mem_cons_self
    rw [List.flatMap_cons]
    rcases Nat.lt_or_ge k n with inside | behind
    · rw [List.getElem?_append_left (first ▸ inside), Nat.div_eq_of_lt inside,
        Nat.mod_eq_of_lt inside]
      rfl
    · rw [List.getElem?_append_right (first ▸ behind), first,
        ih (fun a' ha' => len a' (List.mem_cons_of_mem a ha')), Nat.div_eq_sub_div positive behind,
        Nat.mod_eq_sub_mod behind]
      rfl

theorem getElem?_product_cons {xs : List α} {rest : List (List α)} (positive : 0 < tupleCount rest)
    (k : Nat) : (product (xs :: rest))[k]? =
      xs[k / tupleCount rest]?.bind fun x =>
        (product rest)[k % tupleCount rest]?.map (x :: ·) := by
  have len : ∀ x ∈ xs, ((product rest).map (x :: ·)).length = tupleCount rest := by
    intro x _
    rw [List.length_map, length_product_eq_tupleCount]
  rw [product_cons, getElem?_flatMap_of_length len positive]
  simp only [List.getElem?_map]

/-- A digit of a remainder is a digit of the number, if the lower places stay as they are. -/
theorem mod_div_mod_of_dvd {k n weight radix : Nat} (h : weight * radix ∣ n) :
    k % n / weight % radix = k / weight % radix := by
  rw [← Nat.mod_mul_right_div_self, Nat.mod_mod_of_dvd k h, Nat.mod_mul_right_div_self]

/-- The tuple at a number, told by the digits of the number. -/
theorem exists_getElem?_product (lists : List (List α)) {k : Nat} (hk : k < tupleCount lists) :
    ∃ tuple, (product lists)[k]? = some tuple ∧ ∀ i xs, lists[i]? = some xs →
      ∃ x, tuple[i]? = some x ∧
        xs[k / tupleCount (lists.drop (i + 1)) % xs.length]? = some x := by
  induction lists generalizing k with
  | nil =>
    obtain rfl : k = 0 := Nat.lt_one_iff.1 hk
    exact ⟨[], rfl, by simp⟩
  | cons ys rest ih =>
    rw [tupleCount_cons] at hk
    have positive : 0 < tupleCount rest := Nat.pos_of_mul_pos_left (Nat.zero_lt_of_lt hk)
    have lead : k / tupleCount rest < ys.length := (Nat.div_lt_iff_lt_mul positive).2 hk
    obtain ⟨tuple, there, entries⟩ := ih (Nat.mod_lt k positive)
    refine ⟨ys[k / tupleCount rest] :: tuple, ?_, fun i xs hxs => ?_⟩
    · rw [getElem?_product_cons positive, List.getElem?_eq_getElem lead, there]
      rfl
    · cases i with
      | zero =>
        obtain rfl : ys = xs := Option.some.inj hxs
        refine ⟨_, rfl, ?_⟩
        rw [List.drop_succ_cons, List.drop_zero, Nat.mod_eq_of_lt lead,
          List.getElem?_eq_getElem lead]
      | succ i =>
        have later : rest[i]? = some xs := hxs
        obtain ⟨x, entry, digit⟩ := entries i xs later
        rw [mod_div_mod_of_dvd (length_mul_tupleCount_dvd later)] at digit
        exact ⟨x, entry, digit⟩

/-- Lists without repetition make a product without repetition. -/
theorem nodup_product {lists : List (List α)} (distinct : ∀ xs ∈ lists, xs.Nodup) :
    (product lists).Nodup := by
  refine (pairwise_lex_product distinct).imp fun {s t} before same => ?_
  subst same
  exact List.lex_irrefl (fun x hx => hx rfl) s before

/-- **A product counts in a mixed radix.** There are as many tuples as the lengths multiply to, and
the tuple at a number has, for each list, the element at that list's digit of the number. So the
tuples are those that take each entry from its list, none of them twice if no list repeats an
element. -/
theorem product_in_mixed_radix (lists : List (List α)) :
    (product lists).length = tupleCount lists ∧
    (∀ k < tupleCount lists, ∃ tuple, (product lists)[k]? = some tuple ∧
      tuple.length = lists.length ∧
      ∀ i xs, lists[i]? = some xs → ∃ x, tuple[i]? = some x ∧
        xs[k / tupleCount (lists.drop (i + 1)) % xs.length]? = some x) ∧
    (∀ tuple, tuple ∈ product lists ↔ List.Forall₂ (· ∈ ·) tuple lists) ∧
    ((∀ xs ∈ lists, xs.Nodup) → (product lists).Nodup) := by
  refine ⟨length_product_eq_tupleCount lists, fun k hk => ?_, fun tuple => ?_, nodup_product⟩
  · obtain ⟨tuple, there, entries⟩ := exists_getElem?_product lists hk
    exact ⟨tuple, there, length_of_mem_product (List.mem_of_getElem? there), entries⟩
  · rw [mem_product_iff]
    exact ⟨List.Forall₂.flip, List.Forall₂.flip⟩

/-- The fifth of six pairs: its entries are at the digits one and one. -/
theorem product_in_mixed_radix_pairs :
    (product [[1, 2], [3, 4, 5]]).length = 6 ∧ (product [[1, 2], [3, 4, 5]])[4]? = some [2, 4] ∧
      [2, 4] ∈ product [[1, 2], [3, 4, 5]] ∧ (product [[1, 2], [3, 4, 5]]).Nodup := by
  obtain ⟨count, entries, mem, distinct⟩ := product_in_mixed_radix [[1, 2], [3, 4, 5]]
  obtain ⟨tuple, there, length, digits⟩ := entries 4 (by decide)
  obtain ⟨x, first, hx⟩ := digits 0 [1, 2] rfl
  obtain ⟨y, second, hy⟩ := digits 1 [3, 4, 5] rfl
  obtain rfl : 2 = x := Option.some.inj hx
  obtain rfl : 4 = y := Option.some.inj hy
  obtain rfl : tuple = [2, 4] := by
    match tuple, length with
    | [a, b], _ => rw [Option.some.inj first, Option.some.inj second]
  exact ⟨count, there, (mem [2, 4]).2 (by decide), distinct (by decide)⟩

end FheSolidity.Expansion
