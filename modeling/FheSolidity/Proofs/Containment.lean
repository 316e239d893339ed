import FheSolidity.Proofs.Places

/-!
# Files below the output directory

A path stays below the place where it starts if it is relative and never takes more steps up than it
has taken down before. Joined to a directory, such a path leads into that directory, and a disk that
is asked to write a file there makes nothing outside but directories that lead to it. The names and
directories of a configuration are not checked for this: a directory may be absolute or go up, and a
file may be called `..`.
-/

namespace FheSolidity

/-- Whether a step goes down. -/
def Component.isName : Component → Bool
  | .name _ => true
  | _ => false

namespace Path

variable {p q : Path} {s : String}

/-! ### Paths that stay below their start -/

/-- Steps that, after any number of them, have gone up at most as often as down. -/
def NeverClimbs (steps : List Component) : Prop :=
  ∀ before, before <+: steps → before.count .up ≤ before.countP Component.isName

instance (steps : List Component) : Decidable (NeverClimbs steps) :=
  decidable_of_iff (∀ before ∈ steps.inits, before.count .up ≤ before.countP Component.isName)
    (forall_congr' fun before => by rw [List.mem_inits])

theorem NeverClimbs.prefix {steps before : List Component} (h : NeverClimbs steps)
    (first : before <+: steps) : NeverClimbs before :=
  fun _ earlier => h _ (earlier.trans first)

/-- A `.` leads nowhere. -/
theorem neverClimbs_here_cons {steps : List Component} :
    NeverClimbs (.here :: steps) ↔ NeverClimbs steps := by
  have count (before : List Component) : (Component.here :: before).count .up = before.count .up :=
    List.count_cons_of_ne (by decide)
  have countP (before : List Component) :
      (Component.here :: before).countP Component.isName = before.countP Component.isName :=
    List.countP_cons_of_neg (by decide)
  constructor
  · intro h before first
    have later := h (.here :: before) ((List.prefix_cons_inj _).2 first)
    rwa [count, countP] at later
  · intro h before first
    rcases List.prefix_cons_iff.1 first with rfl | ⟨later, rfl, rest⟩
    · exact Nat.le_refl 0
    · rw [count, countP]
      exact h later rest

/-- Steps that do not go up may follow. -/
theorem neverClimbs_append_iff {steps more : List Component} (down : .up ∉ more) :
    NeverClimbs (steps ++ more) ↔ NeverClimbs steps := by
  refine ⟨fun h => h.prefix (List.prefix_append steps more), fun h before first => ?_⟩
  rcases prefix_append_cases first with early | ⟨later, rfl, hlater⟩
  · exact h before early
  · have none : later.count .up = 0 :=
      List.count_eq_zero_of_not_mem fun up => down (hlater.subset up)
    have own := h steps (List.prefix_refl steps)
    rw [List.count_append, List.countP_append]
    omega

/-- A relative path whose steps never climb leads to a place below its start. -/
def StaysBelow (p : Path) : Prop :=
  p.isAbsolute = false ∧ NeverClimbs p.components

instance (p : Path) : Decidable p.StaysBelow :=
  inferInstanceAs (Decidable (_ ∧ _))

theorem staysBelow_iff : p.StaysBelow ↔ p.isAbsolute = false ∧ NeverClimbs p.steps := by
  refine and_congr_right fun relative => ?_
  rw [steps_eq, components_eq, lead, relative]
  by_cases dot : p.segments.head? = some ['.']
  · simpa [dot] using neverClimbs_here_cons
  · simp [dot]

/-- Two paths are relative, and their steps, one after the other, never climb. -/
def JoinsBelow (p q : Path) : Prop :=
  p.isAbsolute = false ∧ q.isAbsolute = false ∧ NeverClimbs (p.steps ++ q.steps)

theorem staysBelow_join_iff : (p.join q).StaysBelow ↔ p.JoinsBelow q := by
  rw [staysBelow_iff, JoinsBelow]
  cases relative : q.isAbsolute with
  | true => simp [join_of_absolute relative, relative]
  | false => simp [isAbsolute_join relative, steps_join relative]

/-- The only file name that climbs is `..`. -/
theorem staysBelow_iff_of_no_sep (nonempty : s ≠ "") (plain : '/' ∉ s.toList) :
    (⟨s⟩ : Path).StaysBelow ↔ s ≠ ".." := by
  constructor
  · rintro below rfl
    revert below
    decide +kernel
  · intro notUp
    obtain ⟨c, own, segment⟩ := exists_components_eq_singleton nonempty plain
    have down : c ≠ .up := by
      rintro rfl
      exact notUp (String.toList_inj.1 segment.symm)
    refine ⟨isAbsolute_of_no_sep plain, ?_⟩
    rw [own, ← List.nil_append [c], neverClimbs_append_iff (by simpa using down.symm)]
    decide

/-- A path leads into a directory if its steps are those to the directory and then some that never
climb. -/
def IsWithin (root p : Path) : Prop :=
  ∃ below, p.steps = root.steps ++ below ∧ NeverClimbs below

/-- **A relative path leads into a directory that it is joined to exactly if it stays below its
start.** -/
theorem isWithin_join_iff {root : Path} (relative : p.isAbsolute = false) :
    root.IsWithin (root.join p) ↔ p.StaysBelow := by
  rw [IsWithin, staysBelow_iff, steps_join relative]
  constructor
  · rintro ⟨below, split, climbs⟩
    rw [List.append_cancel_left split]
    exact ⟨relative, climbs⟩
  · rintro ⟨_, climbs⟩
    exact ⟨p.steps, rfl, climbs⟩

/-- The first steps to a place in a directory lead to the directory or into it. -/
theorem IsWithin.prefix {root : Path} (within : root.IsWithin p) (first : q.steps <+: p.steps) :
    root.IsWithin q ∨ q.steps <+: root.steps := by
  obtain ⟨below, split, climbs⟩ := within
  rw [split] at first
  rcases prefix_append_cases first with leads | ⟨more, own, hmore⟩
  · exact .inr leads
  · exact .inl ⟨more, own, climbs.prefix hmore⟩

end Path

/-! ### What a disk is asked to change -/

variable {σ α β : Type}

/-- A change that a disk is asked to make. -/
inductive DiskChange where
  | makeDir (p : Path)
  | writeText (p : Path) (contents : String)

/-- The place of a change. -/
def DiskChange.path : DiskChange → Path
  | .makeDir p => p
  | .writeText p _ => p

/-- The disk with a record of the changes that it is asked to make, also of those that fail. -/
def Disk.recorded (disk : Disk (StateM σ)) : Disk (StateM (Recorded σ DiskChange)) where
  readText := fun p s => ((disk.readText p s.world).1, ⟨(disk.readText p s.world).2, s.received⟩)
  writeText := fun p contents s => ((disk.writeText p contents s.world).1,
    ⟨(disk.writeText p contents s.world).2, s.received ++ [.writeText p contents]⟩)
  makeDir := fun p s => ((disk.makeDir p s.world).1,
    ⟨(disk.makeDir p s.world).2, s.received ++ [.makeDir p]⟩)
  isDir := fun p s => ((disk.isDir p s.world).1, ⟨(disk.isDir p s.world).2, s.received⟩)

/-- A step asks only for changes of some kind. -/
def AsksOnly (P : DiskChange → Prop) (step : StateM (Recorded σ DiskChange) α) : Prop :=
  ∀ s, ∃ more, (step s).2.received = s.received ++ more ∧ ∀ change ∈ more, P change

namespace AsksOnly

variable {P Q : DiskChange → Prop} {disk : Disk (StateM σ)}

theorem pure (a : α) : AsksOnly P (Pure.pure a : StateM (Recorded σ DiskChange) α) :=
  fun _ => ⟨[], (List.append_nil _).symm, List.forall_mem_nil _⟩

theorem bind {step : StateM (Recorded σ DiskChange) α}
    {next : α → StateM (Recorded σ DiskChange) β} (first : AsksOnly P step)
    (then' : ∀ a, AsksOnly P (next a)) : AsksOnly P (step >>= next) := by
  intro s
  obtain ⟨more, received, allowed⟩ := first s
  obtain ⟨more', received', allowed'⟩ := then' (step s).1 (step s).2
  refine ⟨more ++ more', ?_, ?_⟩
  · rw [← List.append_assoc, ← received]
    exact received'
  · intro change h
    rcases List.mem_append.1 h with h | h
    · exact allowed change h
    · exact allowed' change h

theorem imp {step : StateM (Recorded σ DiskChange) α} (h : AsksOnly P step)
    (wider : ∀ change, P change → Q change) : AsksOnly Q step := by
  intro s
  obtain ⟨more, received, allowed⟩ := h s
  exact ⟨more, received, fun change hchange => wider change (allowed change hchange)⟩

theorem makeDir {p : Path} (allowed : P (.makeDir p)) : AsksOnly P (disk.recorded.makeDir p) :=
  fun _ => ⟨[.makeDir p], rfl, by simpa using allowed⟩

theorem writeText {p : Path} {contents : String} (allowed : P (.writeText p contents)) :
    AsksOnly P (disk.recorded.writeText p contents) :=
  fun _ => ⟨[.writeText p contents], rfl, by simpa using allowed⟩

theorem isDir (p : Path) : AsksOnly P (disk.recorded.isDir p) :=
  fun _ => ⟨[], (List.append_nil _).symm, List.forall_mem_nil _⟩

end AsksOnly

namespace Disk

/-- A change that makes a directory on the way to a place. -/
def LeadsTo (p : Path) (change : DiskChange) : Prop :=
  ∃ dir, change = .makeDir dir ∧ dir.steps <+: p.steps

theorem LeadsTo.of_parent {p parent : Path} (h : p.parent? = some parent) {change : DiskChange}
    (leads : LeadsTo parent change) : LeadsTo p change := by
  obtain ⟨dir, rfl, first⟩ := leads
  rw [Path.steps_of_parent? h] at first
  exact ⟨dir, rfl, first.trans (List.dropLast_prefix _)⟩

theorem asksOnly_settleDir (disk : Disk (StateM σ)) (p : Path) :
    AsksOnly (LeadsTo p) (disk.recorded.settleDir p) := by
  refine (AsksOnly.makeDir ⟨p, rfl, List.prefix_refl _⟩).bind fun made => ?_
  split
  · exact .pure _
  · refine (AsksOnly.isDir p).bind fun isDir => ?_
    split
    · exact .pure _
    · exact .pure _

/-- Making a directory and those that lead to it changes nothing else. -/
theorem asksOnly_makeDirs (disk : Disk (StateM σ)) (p : Path) :
    AsksOnly (LeadsTo p) (disk.recorded.makeDirs p) := by
  rw [makeDirs]
  split
  · exact .pure _
  · refine (AsksOnly.makeDir ⟨p, rfl, List.prefix_refl _⟩).bind fun made => ?_
    split
    · exact .pure _
    · split
      · exact .pure _
      · next parent h =>
        -- What leads to the parent leads on to the path, since the parent is its first steps.
        have above := asksOnly_makeDirs disk parent
        refine (above.imp fun _ => LeadsTo.of_parent h).bind fun made => ?_
        split
        · exact .pure _
        · exact asksOnly_settleDir disk p
    · refine (AsksOnly.isDir p).bind fun isDir => ?_
      split
      · exact .pure _
      · exact .pure _
termination_by p.spelling.length
decreasing_by exact Path.length_parent?_lt ‹_›

theorem asksOnly_makeParents (disk : Disk (StateM σ)) (p : Path) :
    AsksOnly (LeadsTo p) (disk.recorded.makeParents p) := by
  rw [makeParents]
  split
  · exact .pure _
  · next parent h =>
    refine ((asksOnly_makeDirs disk parent).imp fun _ => LeadsTo.of_parent h).bind fun made => ?_
    split
    · exact .pure _
    · exact .pure _

/-- A file is written to its own place, and directories are made on the way there only. -/
theorem asksOnly_emit (disk : Disk (StateM σ)) (root : Path) (a : Artifact) :
    AsksOnly (fun change => change = .writeText (root.join a.path) a.contents ∨
      LeadsTo (root.join a.path) change) (disk.recorded.emit root a) := by
  rw [emit]
  refine ((asksOnly_makeParents disk _).imp fun _ => .inr).bind fun made => ?_
  split
  · exact .pure _
  · refine (AsksOnly.writeText (.inl rfl)).bind fun written => ?_
    split
    · exact .pure _
    · exact .pure _

/-- **Writing below a directory.** A disk that writes a file at a path that stays below its start
changes nothing outside the root directory, but for making directories that lead to it. -/
theorem emit_within (disk : Disk (StateM σ)) {root : Path} {a : Artifact}
    (below : a.path.StaysBelow) (world : σ) {change : DiskChange}
    (h : change ∈ (disk.recorded.emit root a ⟨world, []⟩).2.received) :
    root.IsWithin change.path ∨ LeadsTo root change := by
  have within : root.IsWithin (root.join a.path) := (Path.isWithin_join_iff below.1).2 below
  obtain ⟨more, received, allowed⟩ := asksOnly_emit disk root a ⟨world, []⟩
  rw [received, List.nil_append] at h
  rcases allowed change h with rfl | ⟨dir, rfl, first⟩
  · exact .inl within
  · rcases within.prefix first with own | leads
    · exact .inl own
    · exact .inr ⟨dir, rfl, leads⟩

end Disk

/-! ### Files of a configuration -/

namespace Artifact

variable {r : Rules} {ops : List Operation} {surface : Surface} {c : Config}

/-- The file of a contract stays below its start if its directory does. -/
theorem joinsBelow_contractFile_iff {dir contract : String} (plain : '/' ∉ contract.toList) :
    Path.JoinsBelow ⟨dir⟩ ⟨contract ++ ".sol"⟩ ↔ (⟨dir⟩ : Path).StaysBelow := by
  have relative := isAbsolute_contractFile plain
  have file : (⟨contract ++ ".sol"⟩ : Path).steps = [.name (contract ++ ".sol").toList] := by
    rw [Path.steps_eq, relative, inner_contractFile plain]
    rfl
  rw [Path.JoinsBelow, Path.staysBelow_iff, file, Path.neverClimbs_append_iff (by simp)]
  simp [relative]

theorem staysBelow_assemble_iff (accepted : c.validate = .ok ()) (surface : Surface) :
    (∀ a ∈ assemble c surface, a.path.StaysBelow) ↔
      c.libraryFile ≠ ".." ∧ c.abiFile ≠ ".." ∧
      (∀ t ∈ testContracts surface, Path.JoinsBelow ⟨c.testsDir⟩ ⟨t.name ++ ".sol"⟩) ∧
      ∀ b ∈ benchmarks c surface, Path.JoinsBelow ⟨c.benchDir⟩ ⟨b.name ++ ".sol"⟩ := by
  obtain ⟨lib, abi, _⟩ := Config.validate_eq_ok_iff.1 accepted
  have tests : (∀ a ∈ (testContracts surface).map (ofTestContract c), a.path.StaysBelow) ↔
      ∀ t ∈ testContracts surface, Path.JoinsBelow ⟨c.testsDir⟩ ⟨t.name ++ ".sol"⟩ := by
    rw [List.forall_mem_map]
    exact forall₂_congr fun t _ => Path.staysBelow_join_iff
  have benches : (∀ a ∈ (benchmarks c surface).map (ofBenchmark c), a.path.StaysBelow) ↔
      ∀ b ∈ benchmarks c surface, Path.JoinsBelow ⟨c.benchDir⟩ ⟨b.name ++ ".sol"⟩ := by
    rw [List.forall_mem_map]
    exact forall₂_congr fun b _ => Path.staysBelow_join_iff
  rw [← Path.staysBelow_iff_of_no_sep lib.nonempty lib.noSep,
    ← Path.staysBelow_iff_of_no_sep abi.nonempty abi.noSep, assemble_eq, List.forall_mem_cons,
    List.forall_mem_append, contracts, List.forall_mem_append, tests, benches,
    List.forall_mem_singleton]
  constructor
  · rintro ⟨own, ⟨inTests, inBenches⟩, declarations⟩
    exact ⟨own, declarations, inTests, inBenches⟩
  · rintro ⟨own, declarations, inTests, inBenches⟩
    exact ⟨own, ⟨inTests, inBenches⟩, declarations⟩

/-- With contracts of known operations, a directory with contracts has to stay below the root, and
that is enough. -/
theorem forall_joinsBelow_iff (dir : String) {contracts : List String}
    (plain : ∀ name ∈ contracts, '/' ∉ name.toList) :
    (∀ name ∈ contracts, Path.JoinsBelow ⟨dir⟩ ⟨name ++ ".sol"⟩) ↔
      (contracts ≠ [] → (⟨dir⟩ : Path).StaysBelow) := by
  constructor
  · intro h some
    obtain ⟨name, hname⟩ := List.exists_mem_of_ne_nil _ some
    exact (joinsBelow_contractFile_iff (plain name hname)).1 (h name hname)
  · intro h name hname
    exact (joinsBelow_contractFile_iff (plain name hname)).2 (h (List.ne_nil_of_mem hname))

theorem staysBelow_assemble_iff_of_isKnown (accepted : c.validate = .ok ())
    (known : surface.IsKnown) : (∀ a ∈ assemble c surface, a.path.StaysBelow) ↔
      c.libraryFile ≠ ".." ∧ c.abiFile ≠ ".." ∧
      (testContracts surface ≠ [] → (⟨c.testsDir⟩ : Path).StaysBelow) ∧
      (benchmarks c surface ≠ [] → (⟨c.benchDir⟩ : Path).StaysBelow) := by
  have tests := forall_joinsBelow_iff c.testsDir
    fun name (h : name ∈ (testContracts surface).map TestContract.name) =>
      sep_not_mem_contractNames (c := c) known (List.mem_append_left _ h)
  have benches := forall_joinsBelow_iff c.benchDir
    fun name (h : name ∈ (benchmarks c surface).map Benchmark.name) =>
      sep_not_mem_contractNames known (List.mem_append_right _ h)
  rw [List.forall_mem_map, ne_eq, List.map_eq_nil_iff] at tests benches
  rw [staysBelow_assemble_iff accepted, tests, benches]

/-- **Where the files of a run lie.** With an accepted configuration, all files of a surface stay
below the output directory exactly if neither file name is `..` and each contract's directory and
file together are relative and never climb. For the surface of any operations, that is to say that a
directory with contracts in it stays below the root. A relative path leads into a directory that it
is joined to exactly if it stays below; then writing the file there changes nothing outside the
directory, but for making directories that lead to it. -/
theorem stays_below_output (accepted : c.validate = .ok ()) (surface : Surface) :
    ((∀ a ∈ assemble c surface, a.path.StaysBelow) ↔
      c.libraryFile ≠ ".." ∧ c.abiFile ≠ ".." ∧
      (∀ t ∈ testContracts surface, Path.JoinsBelow ⟨c.testsDir⟩ ⟨t.name ++ ".sol"⟩) ∧
      ∀ b ∈ benchmarks c surface, Path.JoinsBelow ⟨c.benchDir⟩ ⟨b.name ++ ".sol"⟩) ∧
    (∀ r ops choice, Surface.ofOperations r ops choice = .ok surface →
      ((∀ a ∈ assemble c surface, a.path.StaysBelow) ↔
        c.libraryFile ≠ ".." ∧ c.abiFile ≠ ".." ∧
        (testContracts surface ≠ [] → (⟨c.testsDir⟩ : Path).StaysBelow) ∧
        (benchmarks c surface ≠ [] → (⟨c.benchDir⟩ : Path).StaysBelow))) ∧
    ∀ a ∈ assemble c surface, ∀ root : Path,
      (a.path.isAbsolute = false → (root.IsWithin (root.join a.path) ↔ a.path.StaysBelow)) ∧
      (a.path.StaysBelow → ∀ (σ : Type) (disk : Disk (StateM σ)) (world : σ),
        ∀ change ∈ (disk.recorded.emit root a ⟨world, []⟩).2.received,
          root.IsWithin change.path ∨
            ∃ dir, change = .makeDir dir ∧ dir.steps <+: root.steps) := by
  refine ⟨staysBelow_assemble_iff accepted surface, ?_, ?_⟩
  · intro r ops choice made
    exact staysBelow_assemble_iff_of_isKnown accepted (Surface.isKnown_of_ofOperations made)
  · intro a _ root
    refine ⟨Path.isWithin_join_iff, ?_⟩
    intro below σ disk world change h
    exact disk.emit_within below world h

/-- With the default configuration, the files of a surface of one operation stay below. -/
theorem stays_below_output_default :
    ∃ surface, ({} : Config).validate = .ok () ∧
      Surface.ofOperations ({} : Config).rules [{ name := "not", inputs := [.encrypted] }] =
        .ok surface ∧
      ∀ a ∈ assemble {} surface, a.path.StaysBelow := by
  have accepted : ({} : Config).validate = .ok () := by decide +kernel
  have made : Surface.ofOperations ({} : Config).rules
      [{ name := "not", inputs := [.encrypted] }] = .ok _ := rfl
  have tests : (⟨"tests"⟩ : Path).StaysBelow := by decide +kernel
  have benches : (⟨"benchmarks"⟩ : Path).StaysBelow := by decide +kernel
  have below := ((stays_below_output accepted _).2.1 _ _ _ made).2
    ⟨by decide, by decide, fun _ => tests, fun _ => benches⟩
  exact ⟨_, accepted, made, below⟩

/-- A configuration that places test contracts beside the output directory is accepted, and then a
test contract is written there. -/
theorem leaves_output_directory :
    ∃ surface a, ({ testsDir := "../escaped" } : Config).validate = .ok () ∧
      Surface.build ({ testsDir := "../escaped" } : Config).rules
        [{ name := "not", inputs := [.encrypted] }] = .ok surface ∧
      a ∈ assemble { testsDir := "../escaped" } surface ∧
      a.path = ⟨"../escaped/NotTest.sol"⟩ ∧ ¬a.path.StaysBelow ∧
      ¬Path.IsWithin ⟨"solidity"⟩ (Path.join ⟨"solidity"⟩ a.path) := by
  let config : Config := { testsDir := "../escaped" }
  obtain ⟨surface, built, own⟩ : ∃ surface,
      Surface.build config.rules [{ name := "not", inputs := [.encrypted] }] = .ok surface ∧
      (testContracts surface).head?.map TestContract.name = some "NotTest" :=
    ⟨_, Surface.build_eq_ok_iff.2 ⟨rfl, by decide +kernel⟩, by decide +kernel⟩
  obtain ⟨t, first, name⟩ := Option.map_eq_some_iff.1 own
  have path : (ofTestContract config t).path = ⟨"../escaped/NotTest.sol"⟩ := by
    rw [path_ofTestContract, name]
    decide +kernel
  have climbs : ¬(⟨"../escaped/NotTest.sol"⟩ : Path).StaysBelow := by decide +kernel
  refine ⟨surface, ofTestContract config t, by decide +kernel, built, ?_, path, ?_, ?_⟩
  · rw [assemble_eq]
    have mem : t ∈ testContracts surface := List.mem_of_mem_head? first
    exact List.mem_cons_of_mem _ (List.mem_append_left _
      (List.mem_append_left _ (List.mem_map_of_mem mem)))
  · rw [path]
    exact climbs
  · rw [path, Path.isWithin_join_iff (by decide +kernel)]
    exact climbs

end Artifact

end FheSolidity
