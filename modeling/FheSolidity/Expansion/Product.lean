/-!
# Products of lists

`product` lists every way to take one element from each of several lists. The first list varies
slowest, so the tuples come in the lexicographic order of the positions of their elements. The
tuples of the later lists are made once for all elements of the first, and not at all for a list
without elements; `product_cons` is the plain equation behind this.
-/

namespace FheSolidity.Expansion

/-- Every tuple with one element from each list. No lists give the empty tuple; an empty list
among them leaves no tuple. -/
def product {α : Type} : List (List α) → List (List α)
  | [] => [[]]
  | [] :: _ => []
  | (x :: xs) :: rest =>
    let tuples := product rest
    (x :: xs).flatMap fun y => tuples.map (y :: ·)

theorem product_cons {α : Type} (xs : List α) (rest : List (List α)) :
    product (xs :: rest) = xs.flatMap fun x => (product rest).map (x :: ·) := by
  cases xs <;> rfl

theorem cons_mem_product {α : Type} {x : α} {tuple xs : List α} {rest : List (List α)} :
    x :: tuple ∈ product (xs :: rest) ↔ x ∈ xs ∧ tuple ∈ product rest := by
  simp [product_cons]

theorem length_of_mem_product {α : Type} {tuple : List α} {lists : List (List α)}
    (h : tuple ∈ product lists) : tuple.length = lists.length := by
  induction lists generalizing tuple with
  | nil => simp_all [product]
  | cons xs rest ih =>
    obtain ⟨x, _, t, ht, rfl⟩ : ∃ x ∈ xs, ∃ t ∈ product rest, x :: t = tuple := by
      simpa [product_cons] using h
    simp [ih ht]

theorem length_product {α : Type} (lists : List (List α)) :
    (product lists).length = (lists.map List.length).foldr (· * ·) 1 := by
  induction lists with
  | nil => rfl
  | cons xs rest ih =>
    rw [product_cons, List.length_flatMap, List.map_cons, List.foldr_cons, ← ih]
    simp only [List.length_map, List.map_const', List.sum_replicate_nat]

end FheSolidity.Expansion
