import FheSolidity.Proofs.Writes

/-!
# The order of repeated overloads

Overloads that occur again are reported once each, in the order in which they occur for the second
time, so a surface with repeated overloads is refused for the one that is first completed to a
pair. That is the order of their first occurrences exactly if no two of the repeats are nested, the
later one completed while the earlier one still waits for its second occurrence.
-/

namespace FheSolidity

section Lists

variable {κ : Type} {k l : κ} {ks rs : List κ} {place other : κ → Nat}

/-- Along a list that is in two orders, what is earlier in one is earlier in the other. -/
theorem lt_of_pairwise_lt (ordered : rs.Pairwise fun k l => place k < place l)
    (ordered' : rs.Pairwise fun k l => other k < other l) (hk : k ∈ rs) (hl : l ∈ rs)
    (earlier : other k < other l) : place k < place l := by
  induction rs with
  | nil => cases hk
  | cons r rs ih =>
    obtain ⟨first, ordered⟩ := List.pairwise_cons.1 ordered
    obtain ⟨first', ordered'⟩ := List.pairwise_cons.1 ordered'
    rcases List.mem_cons.1 hk with rfl | later
    · rcases List.mem_cons.1 hl with rfl | later'
      · exact absurd earlier (Nat.lt_irrefl _)
      · exact first l later'
    · rcases List.mem_cons.1 hl with rfl | later'
      · exact absurd earlier (Nat.lt_asymm (first' k later))
      · exact ih ordered ordered' later later'

variable [DecidableEq κ]

/-- The elements of a list that occur at least twice, ordered by their places. -/
structure RepeatsInOrder (place : κ → Nat) (rs ks : List κ) : Prop where
  mem_iff : ∀ k, k ∈ rs ↔ 2 ≤ ks.count k
  ordered : rs.Pairwise fun k later => place k < place later

/-- An element that occurs at least twice, and no other such element has an earlier place. -/
structure IsEarliestRepeat (place : κ → Nat) (ks : List κ) (k : κ) : Prop where
  repeated : 2 ≤ ks.count k
  earliest : ∀ l, 2 ≤ ks.count l → place k ≤ place l

namespace RepeatsInOrder

/-- Places that are in order name every element once. -/
theorem nodup (h : RepeatsInOrder place rs ks) : rs.Nodup :=
  h.ordered.imp fun earlier same => absurd (same ▸ earlier) (Nat.lt_irrefl _)

/-- The elements come first by place, so the first of them has the earliest. -/
theorem head?_eq_some_iff (h : RepeatsInOrder place rs ks) :
    rs.head? = some k ↔ IsEarliestRepeat place ks k := by
  obtain ⟨mem_iff, ordered⟩ := h
  cases rs with
  | nil =>
    refine ⟨nofun, fun first => ?_⟩
    cases (mem_iff k).2 first.repeated
  | cons r rs =>
    obtain ⟨later, _⟩ := List.pairwise_cons.1 ordered
    constructor
    · intro first
      obtain rfl : r = k := Option.some.inj first
      refine ⟨(mem_iff r).1 List.mem_cons_self, fun l hl => ?_⟩
      rcases List.mem_cons.1 ((mem_iff l).2 hl) with rfl | hl
      · exact Nat.le_refl _
      · exact Nat.le_of_lt (later l hl)
    · intro first
      rcases List.mem_cons.1 ((mem_iff k).2 first.repeated) with rfl | hk
      · rfl
      · have least := first.earliest r ((mem_iff r).1 List.mem_cons_self)
        exact absurd (later k hk) (Nat.not_lt.2 least)

/-- The same list is in another order if and only if the two orders agree on all repeats. -/
theorem iff_of_ordered (h : RepeatsInOrder place rs ks)
    (distinct : ∀ k l, 2 ≤ ks.count k → other k = other l → k = l) :
    RepeatsInOrder other rs ks ↔ ∀ k l, 2 ≤ ks.count k → 2 ≤ ks.count l →
      other k < other l → place k < place l := by
  constructor
  · intro own k l hk hl
    exact lt_of_pairwise_lt h.ordered own.ordered ((h.mem_iff k).2 hk) ((h.mem_iff l).2 hl)
  · intro same
    refine ⟨h.mem_iff, h.ordered.imp_of_mem fun {k l} hk hl before => ?_⟩
    have hk := (h.mem_iff k).1 hk
    have hl := (h.mem_iff l).1 hl
    rcases Nat.lt_trichotomy (other k) (other l) with earlier | equal | later
    · exact earlier
    · obtain rfl := distinct k l hk equal
      exact absurd before (Nat.lt_irrefl _)
    · exact absurd (same l k hl hk later) (Nat.lt_asymm before)

end RepeatsInOrder

/-- The position of the second occurrence of an element. -/
def secondIdxOf (k : κ) : List κ → Nat
  | [] => 0
  | x :: xs => (if x = k then xs.idxOf k else secondIdxOf k xs) + 1

/-- Behind one occurrence, the second one is the next. -/
theorem secondIdxOf_append_of_count_eq_one {before : List κ} (once : before.count k = 1)
    (after : List κ) : secondIdxOf k (before ++ after) = before.length + after.idxOf k := by
  induction before with
  | nil => cases once
  | cons x before ih =>
    rw [List.cons_append, secondIdxOf, List.length_cons]
    split
    · next own =>
      rw [own, List.count_cons_self, Nat.add_eq_right] at once
      rw [List.idxOf_append_of_notMem (List.count_eq_zero.1 once)]
      omega
    · next other =>
      rw [List.count_cons_of_ne other] at once
      rw [ih once]
      omega

theorem secondIdxOf_append_of_count_eq_zero {before : List κ} (none : before.count k = 0)
    (after : List κ) : secondIdxOf k (before ++ after) = before.length + secondIdxOf k after := by
  induction before with
  | nil => rw [List.nil_append, List.length_nil, Nat.zero_add]
  | cons x before ih =>
    have other : x ≠ k := fun own => by simp [own] at none
    rw [List.count_cons_of_ne other] at none
    rw [List.cons_append, secondIdxOf, if_neg other, ih none, List.length_cons]
    omega

/-- The second occurrence is behind a list that has at most one. -/
theorem length_le_secondIdxOf_append {before : List κ} (once : before.count k ≤ 1)
    (after : List κ) : before.length ≤ secondIdxOf k (before ++ after) := by
  rcases Nat.le_one_iff_eq_zero_or_eq_one.1 once with none | once
  · rw [secondIdxOf_append_of_count_eq_zero none]
    exact Nat.le_add_right _ _
  · rw [secondIdxOf_append_of_count_eq_one once]
    exact Nat.le_add_right _ _

/-- What is reported of a list is in the order of second occurrences in all that was seen. -/
theorem pairwise_repeatedAfter (seen ks : List κ) : (repeatedAfter seen ks).Pairwise fun k later =>
    secondIdxOf k (seen.reverse ++ ks) < secondIdxOf later (seen.reverse ++ ks) := by
  induction ks generalizing seen with
  | nil => exact List.Pairwise.nil
  | cons x ks ih =>
    have whole : seen.reverse ++ x :: ks = (x :: seen).reverse ++ ks := by simp
    have rest := ih (x :: seen)
    rw [← whole] at rest
    rw [repeatedAfter]
    split
    · next once =>
      refine List.pairwise_cons.2 ⟨fun later hlater => ?_, rest⟩
      have here : secondIdxOf x (seen.reverse ++ x :: ks) = seen.length := by
        rw [secondIdxOf_append_of_count_eq_one (by rwa [List.count_reverse]),
          List.idxOf_cons_self, List.length_reverse, Nat.add_zero]
      have behind : (x :: seen).length ≤ secondIdxOf later (seen.reverse ++ x :: ks) := by
        rw [whole, ← List.length_reverse]
        refine length_le_secondIdxOf_append ?_ ks
        rw [List.count_reverse]
        exact (mem_repeatedAfter.1 hlater).1
      rw [here]
      exact behind
    · exact rest

end Lists

variable {r : Rules} {ops : List Operation} {choice : ErrorChoice} {k : OverloadKey}

/-- Repeated overloads are reported in the order of their second occurrences. -/
theorem repeatsInOrder_repeatedOverloads (sigs : List Signature) :
    RepeatsInOrder (secondIdxOf · (sigs.map Signature.overloadKey)) (repeatedOverloads sigs)
      (sigs.map Signature.overloadKey) where
  mem_iff _ := mem_repeatedOverloads
  ordered := pairwise_repeatedAfter [] (sigs.map Signature.overloadKey)

/-- A surface is refused for the first overload that is reported. -/
theorem Surface.build_eq_duplicateSignature_iff :
    Surface.build r ops choice = .error (.duplicateSignature k.symbol k.inputs) ↔
      ∃ surface, Surface.ofOperations r ops choice = .ok surface ∧
        (repeatedOverloads surface.signatures).head? = some k := by
  rw [build_eq_error_iff, or_iff_right (ofOperations_ne_duplicateSignature r ops choice)]
  refine exists_congr fun surface => and_congr_right fun _ => ?_
  rw [checkOverloads_eq_error_iff, List.head?_eq_some_iff]
  constructor
  · rintro ⟨k', ks, reported, same⟩
    obtain rfl : k = k' := by
      cases k
      cases k'
      cases same
      rfl
    exact ⟨ks, reported⟩
  · rintro ⟨ks, reported⟩
    exact ⟨k, ks, reported, rfl⟩

/-- **Repeated overloads are reported when they are completed to a pair.** Exactly the overloads
that occur at least twice are reported, each once and in the order of their second occurrences. That
is the order of their first occurrences if and only if those have the same order. A surface is
refused for the repeated overload with the earliest second occurrence. -/
theorem repeatedOverloads_by_first_iff (sigs : List Signature) :
    let keys := sigs.map Signature.overloadKey
    (repeatedOverloads sigs).Nodup ∧
    RepeatsInOrder (secondIdxOf · keys) (repeatedOverloads sigs) keys ∧
    (RepeatsInOrder keys.idxOf (repeatedOverloads sigs) keys ↔
      ∀ k l, 2 ≤ keys.count k → 2 ≤ keys.count l → keys.idxOf k < keys.idxOf l →
        secondIdxOf k keys < secondIdxOf l keys) ∧
    ∀ r ops choice k,
      Surface.build r ops choice = .error (.duplicateSignature k.symbol k.inputs) ↔
      ∃ surface, Surface.ofOperations r ops choice = .ok surface ∧
        IsEarliestRepeat (secondIdxOf · (surface.signatures.map Signature.overloadKey))
          (surface.signatures.map Signature.overloadKey) k := by
  intro keys
  have reported := repeatsInOrder_repeatedOverloads sigs
  refine ⟨reported.nodup, reported, reported.iff_of_ordered fun k l hk same => ?_, ?_⟩
  · have mem : k ∈ keys := List.count_pos_iff.1 (Nat.lt_of_lt_of_le Nat.two_pos hk)
    exact (List.idxOf_inj mem).1 same
  · intro r ops choice k
    rw [Surface.build_eq_duplicateSignature_iff]
    refine exists_congr fun surface => and_congr_right fun _ => ?_
    exact (repeatsInOrder_repeatedOverloads surface.signatures).head?_eq_some_iff

/-- Of two nested repeats the inner one is completed first, so it is reported first, and a surface
is refused for it. -/
theorem repeatedOverloads_not_by_first :
    (let add := Signature.ofOperation "add" [] none
     let sub := Signature.ofOperation "sub" [] none
     repeatedOverloads [add, sub, sub, add] = [sub.overloadKey, add.overloadKey] ∧
      ¬RepeatsInOrder ([add, sub, sub, add].map Signature.overloadKey).idxOf
        (repeatedOverloads [add, sub, sub, add])
        ([add, sub, sub, add].map Signature.overloadKey)) ∧
    ∃ surface, Surface.ofOperations Rules.standard
        [⟨"not", [.encrypted], .encrypted, false, false⟩,
          ⟨"req", [.encrypted], .nothing, false, false⟩,
          ⟨"req", [.encrypted], .nothing, false, false⟩,
          ⟨"not", [.encrypted], .encrypted, false, false⟩] = .ok surface ∧
      surface.checkOverloads = .error (.duplicateSignature "req" ["ebool"]) ∧
      ¬IsEarliestRepeat (surface.signatures.map Signature.overloadKey).idxOf
        (surface.signatures.map Signature.overloadKey) ⟨"req", ["ebool"]⟩ := by
  refine ⟨⟨by decide +kernel, fun h => ?_⟩, ?_⟩
  · exact absurd h.ordered (by decide +kernel)
  · refine ⟨_, rfl, rfl, fun h => ?_⟩
    exact absurd (h.earliest ⟨"not", ["ebool"]⟩ (by decide +kernel)) (by decide +kernel)

end FheSolidity
