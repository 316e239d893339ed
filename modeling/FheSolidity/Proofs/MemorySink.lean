import Mathlib.Data.List.Dedup
import Mathlib.Data.List.Lex
import FheSolidity.Artifact
import FheSolidity.MemorySink
import FheSolidity.Proofs.Paths

/-!
# Contents of a memory sink

The files of a sink stand in the strict order of their paths, so it has one file for each place. It
keeps the last of the writes to a place, and as many files as there are places among the writes.
-/

namespace FheSolidity

/-! ### The order of paths -/

section Order

variable {p q r : Path}

theorem Path.same_iff_key : p.same q = true ↔ p.key = q.key :=
  beq_iff_eq

theorem Path.before_iff_key : p.before q = true ↔ p.key < q.key :=
  decide_eq_true_iff

/-- Two paths are of one place, or one of them is before the other. -/
theorem Path.before_of_not_before (different : ¬p.same q = true) (later : ¬p.before q = true) :
    q.before p = true := by
  rw [same_iff_key] at different
  rw [before_iff_key] at later ⊢
  exact lt_of_le_of_ne (not_lt.1 later) (Ne.symm different)

end Order

namespace MemorySink

variable {s : MemorySink} {p q : Path} {contents : String} {files : List (Path × String)}

/-! ### One write -/

/-- The files of a sink are in the order of their paths, and no two of them are of one place. -/
def IsSorted (files : List (Path × String)) : Prop :=
  files.Pairwise fun f g => f.1.before g.1 = true

/-- A write adds its own place to those that were written to. -/
theorem mem_key_insert_iff {k : List (List Nat)} :
    (∃ f ∈ insert p contents files, f.1.key = k) ↔ k = p.key ∨ ∃ f ∈ files, f.1.key = k := by
  induction files with
  | nil => simp [insert, eq_comm]
  | cons f rest ih =>
    obtain ⟨q, old⟩ := f
    rw [insert]
    split
    · next same =>
      rw [Path.same_iff_key] at same
      simp [same, eq_comm]
    · split
      · simp [eq_comm]
      · simp only [List.mem_cons, exists_eq_or_imp, ih]
        exact or_left_comm

theorem isSorted_insert (sorted : IsSorted files) : IsSorted (insert p contents files) := by
  induction files with
  | nil => exact List.pairwise_singleton _ _
  | cons f rest ih =>
    obtain ⟨q, old⟩ := f
    obtain ⟨first, sorted⟩ := List.pairwise_cons.1 sorted
    rw [insert]
    split
    · exact List.pairwise_cons.2 ⟨first, sorted⟩
    · next different =>
      split
      · next earlier =>
        refine List.pairwise_cons.2 ⟨fun g hg => ?_, List.pairwise_cons.2 ⟨first, sorted⟩⟩
        rcases List.mem_cons.1 hg with rfl | hg
        · exact earlier
        · have later := first g hg
          rw [Path.before_iff_key] at earlier later ⊢
          exact lt_trans earlier later
      · next later =>
        -- What is behind `q` now is the new file or one that was behind it before.
        refine List.pairwise_cons.2 ⟨fun g hg => ?_, ih sorted⟩
        rcases mem_key_insert_iff.1 ⟨g, hg, rfl⟩ with own | ⟨h, hh, own⟩
        · have before := Path.before_of_not_before different later
          rw [Path.before_iff_key] at before ⊢
          rwa [own]
        · have before := first h hh
          rw [Path.before_iff_key] at before ⊢
          rwa [← own]

/-- A write to another place leaves the contents of a place as they are. -/
theorem get?_write_of_not_same (different : ¬q.same p = true) :
    (s.write p contents).get? q = s.get? q := by
  obtain ⟨files⟩ := s
  simp only [write, get?]
  induction files with
  | nil => simp [insert, different]
  | cons f rest ih =>
    obtain ⟨r, old⟩ := f
    rw [insert]
    split
    · next same =>
      have other : ¬q.same r = true := by
        rw [Path.same_iff_key] at different same ⊢
        rwa [← same]
      simp [other]
    · split
      · simp [different]
      · simp only [List.find?_cons]
        split
        · rfl
        · exact ih

/-! ### Several writes -/

/-- The sink after some files were written to it, one after the other. -/
def writeAll (s : MemorySink) (files : List Artifact) : MemorySink :=
  files.foldl (fun s a => s.write a.path a.contents) s

theorem writeAll_cons (s : MemorySink) (a : Artifact) (files : List Artifact) :
    s.writeAll (a :: files) = (s.write a.path a.contents).writeAll files :=
  rfl

/-- **The last write to a place counts.** -/
theorem get?_writeAll (s : MemorySink) (files : List Artifact) (p : Path) :
    (s.writeAll files).get? p =
      ((files.reverse.find? fun a => p.same a.path).map Artifact.contents).or (s.get? p) := by
  induction files generalizing s with
  | nil => rfl
  | cons a files ih =>
    rw [writeAll_cons, ih, List.reverse_cons, List.find?_append]
    cases files.reverse.find? fun a => p.same a.path with
    | some last => rfl
    | none =>
      by_cases own : p.same a.path = true
      · rw [get?_write_same own]
        simp [own]
      · rw [get?_write_of_not_same own]
        simp [own]

theorem isSorted_writeAll (sorted : IsSorted s.files) (files : List Artifact) :
    IsSorted (s.writeAll files).files := by
  induction files generalizing s with
  | nil => exact sorted
  | cons a files ih => exact ih (isSorted_insert sorted)

theorem mem_key_writeAll_iff {files : List Artifact} {k : List (List Nat)} :
    (∃ f ∈ (s.writeAll files).files, f.1.key = k) ↔
      (∃ a ∈ files, a.path.key = k) ∨ ∃ f ∈ s.files, f.1.key = k := by
  induction files generalizing s with
  | nil => simp [writeAll]
  | cons a files ih =>
    rw [writeAll_cons, ih, write, mem_key_insert_iff]
    simp only [List.mem_cons, exists_eq_or_imp]
    rw [eq_comm, ← or_assoc, or_comm (b := a.path.key = k)]

/-- Sorted files have different places. -/
theorem nodup_key_of_isSorted (sorted : IsSorted files) : (files.map (·.1.key)).Nodup := by
  rw [List.Nodup, List.pairwise_map]
  exact sorted.imp fun before => ne_of_lt (Path.before_iff_key.1 before)

/-- **One file for each place.** A sink has as many files as there are places among the writes. -/
theorem size_writeAll_empty (files : List Artifact) :
    (empty.writeAll files).size = (files.map (·.path.components)).dedup.length := by
  have sorted : IsSorted (empty.writeAll files).files := isSorted_writeAll List.Pairwise.nil files
  have places : ∀ k, k ∈ (empty.writeAll files).files.map (·.1.key) ↔
      k ∈ (files.map (·.path.key)).dedup := by
    intro k
    rw [List.mem_dedup, List.mem_map, List.mem_map, mem_key_writeAll_iff]
    simp [empty]
  have perm := (List.perm_ext_iff_of_nodup (nodup_key_of_isSorted sorted)
    (List.nodup_dedup _)).2 places
  have keys : files.map (·.path.key) =
      (files.map (·.path.components)).map (List.map Component.key) := by
    rw [List.map_map]
    rfl
  have injective : Function.Injective (List.map Component.key) :=
    List.map_injective_iff.2 fun _ _ => Component.key_inj.1
  have length := perm.length_eq
  rw [keys, List.dedup_map_of_injective injective, List.length_map, List.length_map] at length
  exact length

/-- The file that is written last to its place is kept. -/
theorem get?_writeAll_of_last (s : MemorySink) {before after : List Artifact} {a : Artifact}
    (last : ∀ b ∈ after, ¬a.path.same b.path = true) :
    (s.writeAll (before ++ a :: after)).get? a.path = some a.contents := by
  have none : after.reverse.find? (fun b => a.path.same b.path) = none := by
    rw [List.find?_eq_none]
    exact fun b hb => last b (List.mem_reverse.1 hb)
  have own : a.path.same a.path = true := Path.same_iff_key.2 rfl
  rw [get?_writeAll, List.reverse_append, List.reverse_cons, List.append_assoc, List.find?_append,
    none, Option.none_or, List.singleton_append, List.find?_cons]
  simp only [own, Option.map_some, Option.some_or]

/-- Files in different places are all kept. -/
theorem get?_writeAll_of_nodup (s : MemorySink) {files : List Artifact}
    (distinct : (files.map (·.path.components)).Nodup) {a : Artifact} (ha : a ∈ files) :
    (s.writeAll files).get? a.path = some a.contents := by
  obtain ⟨before, after, rfl⟩ := List.append_of_mem ha
  refine get?_writeAll_of_last s fun b hb same => ?_
  rw [List.map_append, List.map_cons] at distinct
  have own := (List.nodup_cons.1 distinct.of_append_right).1
  apply own
  rw [Path.same_iff.1 same]
  exact List.mem_map_of_mem (f := (·.path.components)) hb

end MemorySink

end FheSolidity
