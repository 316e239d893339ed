import FheSolidity.Proofs.Steps
import Mathlib.Data.List.Induction

/-!
# Operations that a catalog declares

Every operation read from a catalog is declared by one of its functions. It is named after that
function, unless the function is one of those that stand for sealing: they all declare the same
operation, whatever they say of themselves, and nothing else in a catalog can have its name. Of
several operations of one name the first counts, so the operations of a catalog have different names
and are in the order in which these first appear.
-/

namespace FheSolidity

/-- Some names out of others: all there are, each in the place where it first appears. -/
structure InOrderOfAppearance (names all : List String) : Prop where
  mem_iff : ∀ name, name ∈ names ↔ name ∈ all
  ordered : names.Pairwise fun name later => all.idxOf name < all.idxOf later

/-- A name has only one place where it first appears. -/
theorem InOrderOfAppearance.nodup {names all : List String} (h : InOrderOfAppearance names all) :
    names.Nodup :=
  h.ordered.imp fun earlier same => absurd (same ▸ earlier) (Nat.lt_irrefl _)

namespace Catalog

variable {op : Operation}

/-- Leaving out repeated names adds nothing. -/
theorem mem_of_mem_firstOfEachName {ops : List Operation} (h : op ∈ firstOfEachName ops) :
    op ∈ ops := by
  -- The invariant of the fold: what is kept so far is among the operations.
  refine List.foldlRecOn ops _ (motive := fun kept : List Operation => ∀ o ∈ kept, o ∈ ops)
    (fun o ho => by cases ho) (fun kept known o ho => ?_) op h
  split
  · exact known
  · intro o' ho'
    rcases List.mem_append.1 ho' with ho' | ho'
    · exact known o' ho'
    · rwa [List.mem_singleton.1 ho']

/-- Operations that come on top of those that are kept: those of a new name, each name once. -/
theorem foldl_firstOfEachName (kept ops : List Operation) :
    ops.foldl (fun kept op => if kept.any (·.name == op.name) then kept else kept ++ [op]) kept =
      kept ++ (firstOfEachName ops).filter fun op => op.name ∉ kept.map Operation.name := by
  -- The last operation is kept on top of `kept` if it is kept on its own and its name is new.
  induction ops using List.reverseRecOn with
  | nil => rw [firstOfEachName, List.foldl_nil, List.foldl_nil, List.filter_nil, List.append_nil]
  | append_singleton ops op ih =>
    have known (ops : List Operation) :
        ops.any (·.name == op.name) = true ↔ op.name ∈ ops.map Operation.name := by
      simp [List.any_eq_true, List.mem_map]
    have own : firstOfEachName (ops ++ [op]) = if op.name ∈ (firstOfEachName ops).map Operation.name
        then firstOfEachName ops else firstOfEachName ops ++ [op] := by
      rw [firstOfEachName, List.foldl_append, List.foldl_cons, List.foldl_nil, ← firstOfEachName]
      simp only [known]
    rw [List.foldl_append, List.foldl_cons, List.foldl_nil, ih, own]
    simp only [known, List.map_append, List.mem_append]
    by_cases old : op.name ∈ kept.map Operation.name
    · rw [if_pos (.inl old)]
      split
      · rfl
      · rw [List.filter_append, List.filter_singleton]
        simp [old]
    · by_cases before : op.name ∈ (firstOfEachName ops).map Operation.name
      · have filtered : op.name ∈ ((firstOfEachName ops).filter fun op =>
            op.name ∉ kept.map Operation.name).map Operation.name := by
          obtain ⟨earlier, hearlier, same⟩ := List.mem_map.1 before
          refine List.mem_map.2 ⟨earlier, List.mem_filter.2 ⟨hearlier, ?_⟩, same⟩
          rw [same]
          exact decide_eq_true old
        rw [if_pos (.inr filtered), if_pos before]
      · have filtered : op.name ∉ ((firstOfEachName ops).filter fun op =>
            op.name ∉ kept.map Operation.name).map Operation.name := fun h =>
          before ((List.filter_sublist.map _).subset h)
        rw [if_neg (not_or.2 ⟨old, filtered⟩), if_neg before, List.filter_append,
          List.append_assoc, List.filter_singleton]
        simp [old]

/-- Of two lists one after the other, the first operations of each name are those of the first list,
and then those of the second with a new name. -/
theorem firstOfEachName_append (ops more : List Operation) :
    firstOfEachName (ops ++ more) =
      firstOfEachName ops ++ (firstOfEachName more).filter fun op =>
        op.name ∉ (firstOfEachName ops).map Operation.name := by
  rw [firstOfEachName, List.foldl_append, foldl_firstOfEachName, ← firstOfEachName]

/-- The first operations of each name are in the order of the names. -/
theorem inOrder_firstOfEachName (ops : List Operation) :
    InOrderOfAppearance ((firstOfEachName ops).map Operation.name) (ops.map Operation.name) := by
  -- A name that is new at the end has a later first place than all before it.
  induction ops using List.reverseRecOn with
  | nil => exact ⟨fun _ => Iff.rfl, List.Pairwise.nil⟩
  | append_singleton ops op ih =>
    have kept (name : String) (h : name ∈ (firstOfEachName ops).map Operation.name) :
        ((ops ++ [op]).map Operation.name).idxOf name = (ops.map Operation.name).idxOf name := by
      rw [List.map_append, List.idxOf_append_of_mem ((ih.mem_iff name).1 h)]
    have ordered : ((firstOfEachName ops).map Operation.name).Pairwise fun name later =>
        ((ops ++ [op]).map Operation.name).idxOf name <
          ((ops ++ [op]).map Operation.name).idxOf later := by
      refine ih.ordered.imp_of_mem fun {name later} hname hlater earlier => ?_
      rwa [kept name hname, kept later hlater]
    have single : firstOfEachName [op] = [op] := rfl
    rw [firstOfEachName_append, single, List.filter_singleton]
    by_cases old : op.name ∈ (firstOfEachName ops).map Operation.name
    · rw [decide_eq_false (not_not_intro old), cond_false, List.append_nil]
      refine ⟨fun name => ?_, ordered⟩
      rw [List.map_append, List.mem_append, ← ih.mem_iff, List.map_singleton, List.mem_singleton]
      exact ⟨.inl, fun h => h.elim id fun same => same ▸ old⟩
    · have new : op.name ∉ ops.map Operation.name := fun h => old ((ih.mem_iff _).2 h)
      have last : ((ops ++ [op]).map Operation.name).idxOf op.name = ops.length := by
        rw [List.map_append, List.idxOf_append_of_notMem new, List.map_singleton,
          List.idxOf_cons_self, List.length_map, Nat.add_zero]
      rw [decide_eq_true old, cond_true, List.map_append, List.map_singleton]
      refine ⟨fun name => ?_, List.pairwise_append.2 ⟨ordered, List.pairwise_singleton _ _, ?_⟩⟩
      · rw [List.map_append, List.mem_append, List.mem_append, ih.mem_iff, List.map_singleton]
      · intro name hname later hlater
        rw [List.mem_singleton.1 hlater, last, kept name hname]
        have inside := List.idxOf_lt_length_of_mem ((ih.mem_iff name).1 hname)
        rwa [List.length_map] at inside

/-- What it takes for a catalog to be read: every function is, and one of them is an operation. -/
theorem extract_eq_ok_iff {text : String} {ops : List Operation} : extract text = .ok ops ↔
    ∃ found, (declarations (Text.lines text.toList)).mapM Declaration.operation? = .ok found ∧
      ops = firstOfEachName (found.filterMap id) ∧ ops ≠ [] := by
  rw [extract, bind_eq_ok_iff]
  simp only [operationsOfLines, bind_eq_ok_iff]
  constructor
  · rintro ⟨_, ⟨found, read, kept⟩, h⟩
    cases kept
    refine ⟨found, read, ?_⟩
    split at h
    · cases h
    · next nonempty =>
      cases h
      exact ⟨rfl, nonempty⟩
  · rintro ⟨found, read, rfl, nonempty⟩
    refine ⟨_, ⟨found, read, rfl⟩, ?_⟩
    split
    · next empty => exact absurd empty nonempty
    · rfl

/-- What is wrong with a catalog that has operations is wrong with one of its functions. -/
theorem mapM_eq_error_of_extract {text : String} {e : CatalogError} (h : extract text = .error e)
    (some' : e ≠ .noOperations) :
    (declarations (Text.lines text.toList)).mapM Declaration.operation? = .error e := by
  rcases bind_eq_error_iff.1 h with h | ⟨_, _, h⟩
  · rwa [operationsOfLines, bind_pure_eq_error_iff] at h
  · split at h
    · cases h
      exact absurd rfl some'
    · cases h

/-- No two operations of a catalog have one name. -/
theorem nodup_names_of_extract {text : String} {ops : List Operation}
    (h : extract text = .ok ops) : (ops.map Operation.name).Nodup := by
  obtain ⟨_, _, rfl, _⟩ := extract_eq_ok_iff.1 h
  exact (inOrder_firstOfEachName _).nodup

/-- Annotations say nothing about names. -/
theorem name_of_annotated {name : String} {d : Declaration} (h : annotated name d = .ok op) :
    op.name = name := by
  obtain ⟨described, _, h⟩ := bind_eq_ok_iff.1 h
  obtain ⟨checked, hchecked, h⟩ := bind_eq_ok_iff.1 h
  obtain ⟨_, rfl⟩ := Operation.ofInputs_eq_ok_iff.1 hchecked
  cases h
  rfl

/-- What a function declares: sealing, or an operation of its own name. -/
theorem eq_sealing_or_name_of_operation? {d : Declaration} (h : d.operation? = .ok (some op)) :
    op = sealing ∨ isSealAlias op.name = false ∧ op.name = d.operationName := by
  unfold Declaration.operation? at h
  split at h
  · cases h
  · split at h
    · cases h
      exact .inl rfl
    · next ordinary =>
      rw [Bool.not_eq_true] at ordinary
      obtain ⟨own, described, heq⟩ := map_eq_ok_iff.1 h
      cases heq
      have name := name_of_annotated described
      exact .inr ⟨name ▸ ordinary, name⟩

/-- Every operation of a catalog is declared by a function of it. -/
theorem exists_declaration_of_mem_extract {text : String} {ops : List Operation}
    (h : extract text = .ok ops) (hop : op ∈ ops) :
    ∃ d ∈ declarations (Text.lines text.toList), d.operation? = .ok (some op) := by
  obtain ⟨found, read, rfl, _⟩ := extract_eq_ok_iff.1 h
  obtain ⟨_, hmem, rfl⟩ := List.mem_filterMap.1 (mem_of_mem_firstOfEachName hop)
  exact exists_of_forall₂_of_mem_right (mapM_eq_ok_iff.1 read) hmem

/-- The seal operation of a catalog is always the same. -/
theorem eq_sealing_of_mem_extract {text : String} {ops : List Operation}
    (h : extract text = .ok ops) (hop : op ∈ ops) (name : op.name = Rules.sealOperation) :
    op = sealing := by
  obtain ⟨d, _, declared⟩ := exists_declaration_of_mem_extract h hop
  rcases eq_sealing_or_name_of_operation? declared with own | ⟨ordinary, _⟩
  · exact own
  · rw [name] at ordinary
    exact absurd ordinary (by decide +kernel)

/-- A catalog that declares sealing under its other name. -/
theorem extract_reencrypt :
    extract "func Reencrypt(utype byte, value []byte, key []byte) {}\n" = .ok [sealing] := by
  decide +kernel

end Catalog

end FheSolidity
