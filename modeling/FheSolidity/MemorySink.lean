import FheSolidity.Path

/-!
# Sinks in memory

A memory sink keeps what was last written to each place, in the order of the paths. Spellings of
one place share an entry, under the spelling that was written first.
-/

namespace FheSolidity

/-- Written files in the order of their paths. -/
structure MemorySink where
  files : List (Path × String)

namespace MemorySink

/-- A sink that nothing was written to. -/
def empty : MemorySink := ⟨[]⟩

/-- Sorted files with the contents of a place replaced or entered. -/
def insert (p : Path) (contents : String) : List (Path × String) → List (Path × String)
  | [] => [(p, contents)]
  | (q, old) :: rest =>
    if p.same q then (q, contents) :: rest
    else if p.before q then (p, contents) :: (q, old) :: rest
    else (q, old) :: insert p contents rest

/-- The sink after a write. -/
def write (s : MemorySink) (p : Path) (contents : String) : MemorySink :=
  ⟨insert p contents s.files⟩

/-- What was last written to a place. -/
def get? (s : MemorySink) (p : Path) : Option String :=
  (s.files.find? fun f => p.same f.1).map (·.2)

/-- The places that were written to, in the order of their paths. -/
def paths (s : MemorySink) : List Path :=
  s.files.map (·.1)

/-- The number of places that were written to. -/
def size (s : MemorySink) : Nat :=
  s.files.length

theorem get?_write_same {s : MemorySink} {p q : Path} {contents : String} (h : q.same p = true) :
    (s.write p contents).get? q = some contents := by
  obtain ⟨files⟩ := s
  simp only [write, get?]
  induction files with
  | nil => simp [insert, h]
  | cons f rest ih =>
    obtain ⟨r, old⟩ := f
    simp only [insert]
    split
    · next hr =>
      have : q.same r = true := by
        simp only [Path.same, beq_iff_eq] at h hr ⊢
        exact h.trans hr
      simp [this]
    · next hr =>
      have : q.same r = false := by
        simp only [Path.same, beq_iff_eq, beq_eq_false_iff_ne] at h hr ⊢
        exact fun hq => hr (h.symm.trans hq)
      split
      · simp [h]
      · simpa [this] using ih

end MemorySink

end FheSolidity
