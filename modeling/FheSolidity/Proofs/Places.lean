import FheSolidity.Proofs.Benchmarks
import FheSolidity.Proofs.MemorySink
import FheSolidity.Proofs.Paths
import FheSolidity.Proofs.Writes

/-!
# Places of the files of a run

The library and the declarations are files of the output directory itself, and contracts lie in
directories below it, each under the name of its operation. So two files of a catalog's surface can
only be of one place if the library and the declarations have one name. A configuration that gives
them one name is not refused, and then a sink in memory keeps the declarations alone.
-/

namespace FheSolidity

/-! ### Names that a configuration may give -/

/-- A name of a file, without a directory. -/
structure IsFileName (s : String) : Prop where
  nonempty : s ≠ ""
  noSep : '/' ∉ s.toList
  noBackslash : '\\' ∉ s.toList

namespace Config

theorem checkFileName_eq_ok_iff {field : Field} {s : String} :
    checkFileName field s = .ok () ↔ IsFileName s := by
  unfold checkFileName
  split
  · next empty => exact ⟨nofun, fun h => absurd empty h.nonempty⟩
  · next nonempty =>
    split
    · next sep =>
      refine ⟨nofun, fun h => ?_⟩
      obtain ⟨c, hc, sep⟩ := List.any_eq_true.1 sep
      rcases Bool.or_eq_true_iff.1 sep with sep | sep
      · exact absurd (beq_iff_eq.1 sep ▸ hc) h.noSep
      · exact absurd (beq_iff_eq.1 sep ▸ hc) h.noBackslash
    · next plain =>
      refine ⟨fun _ => ⟨nonempty, fun sep => plain ?_, fun sep => plain ?_⟩, fun _ => rfl⟩
      · exact List.any_eq_true.2 ⟨'/', sep, rfl⟩
      · exact List.any_eq_true.2 ⟨'\\', sep, rfl⟩

theorem checkNotEmpty_eq_ok_iff {field : Field} {s : String} :
    checkNotEmpty field s = .ok () ↔ s ≠ "" := by
  unfold checkNotEmpty
  split <;> simp_all

/-- The configurations that a run accepts. -/
theorem validate_eq_ok_iff {c : Config} : c.validate = .ok () ↔
    IsFileName c.libraryFile ∧ IsFileName c.abiFile ∧ c.testsDir ≠ "" ∧ c.benchDir ≠ "" ∧
      Text.isBlankText c.pragma.toList = false := by
  rw [validate, check_bind_eq_ok_iff, check_bind_eq_ok_iff, check_bind_eq_ok_iff,
    check_bind_eq_ok_iff, checkFileName_eq_ok_iff, checkFileName_eq_ok_iff, checkNotEmpty_eq_ok_iff,
    checkNotEmpty_eq_ok_iff]
  cases Text.isBlankText c.pragma.toList with
  | true => simp [throw, throwThe, MonadExceptOf.throw]
  | false => simp [pure, Except.pure]

end Config

/-! ### Names of contracts -/

namespace Naming

variable {n m : String}

/-- Functions of the dispatcher differ in more than their first letters' case. -/
theorem capitalize_inj_of_mem_functionIds (hn : n ∈ Dispatcher.functionIds)
    (hm : m ∈ Dispatcher.functionIds) (h : Text.capitalize n = Text.capitalize m) : n = m := by
  have distinct : (Dispatcher.functionIds.map Text.capitalize).Nodup := by decide +kernel
  exact List.inj_on_of_nodup_map distinct hn hm h

/-- Contracts of different functions have different names, whatever stands behind the function's. -/
theorem nodup_map_capitalize {names : List String} (distinct : names.Nodup)
    (known : ∀ n ∈ names, n ∈ Dispatcher.functionIds) (suffix : String) :
    (names.map fun n => Text.capitalize n ++ suffix).Nodup := by
  refine distinct.map_on fun n hn m hm same => ?_
  apply capitalize_inj_of_mem_functionIds (known n hn) (known m hm)
  exact (String.append_left_inj suffix).1 same

theorem sep_not_mem_capitalize (hn : n ∈ Dispatcher.functionIds) {suffix : String}
    (plain : '/' ∉ suffix.toList) : '/' ∉ (Text.capitalize n ++ suffix).toList := by
  have all : ∀ n ∈ Dispatcher.functionIds, '/' ∉ (Text.capitalize n).toList := by decide +kernel
  rw [String.toList_append, List.mem_append, not_or]
  exact ⟨all n hn, plain⟩

/-- A name tells whether the contract is for tests or for benchmarks. -/
theorem testContract_ne_benchContract (n m : String) : testContract n ≠ benchContract m := by
  intro h
  have chars := congrArg (·.toList.getLast?) h
  simp [testContract, benchContract] at chars

end Naming

variable {r : Rules} {ops : List Operation} {choice : ErrorChoice} {surface : Surface}
  {c : Config} {text : String}

/-- The dispatcher knows the operations that have functions. -/
def Surface.IsKnown (surface : Surface) : Prop :=
  ∀ ro ∈ surface.operations, ro.functions ≠ [] → ro.operation.name ∈ Dispatcher.functionIds

/-- The operations with functions are known, and no two operations have one name. -/
structure Surface.IsNamed (surface : Surface) : Prop where
  distinct : (surface.operations.map (·.operation.name)).Nodup
  known : surface.IsKnown

theorem Surface.isKnown_of_ofOperations (made : Surface.ofOperations r ops choice = .ok surface) :
    surface.IsKnown := by
  intro ro hro nonempty
  obtain ⟨f, hf⟩ := List.exists_mem_of_ne_nil _ nonempty
  exact (Operation.emits_of_mem_render (exists_render_of_mem_operations made hro).2 hf).2

theorem Surface.isNamed_of_extract (read : Catalog.extract text = .ok ops)
    (made : Surface.ofOperations r ops choice = .ok surface) : surface.IsNamed where
  distinct := by
    have names : surface.operations.map (·.operation.name) = ops.map Operation.name :=
      map_eq_map_of_forall₂ (ofOperations_eq_ok_iff.1 made).1 fun op ro rendered =>
        congrArg Operation.name (Operation.render_eq_ok_iff.1 rendered).1
    rw [names]
    exact Catalog.nodup_names_of_extract read
  known := isKnown_of_ofOperations made

/-- A benchmark contract is that of an operation with functions. -/
theorem Benchmark.of_ofOperation? {ro : RenderedOperation} {b : Benchmark}
    (h : ofOperation? ro = some b) : b.operation = ro.operation.name ∧ ro.functions ≠ [] := by
  obtain ⟨nonempty, operation, cases⟩ := ofOperation?_eq_some_iff.1 h
  refine ⟨operation, fun empty => nonempty ?_⟩
  rw [cases, empty]
  rfl

namespace Artifact

/-- Test contracts are of different operations, all of which have functions. -/
theorem nodup_operation_testContracts (named : surface.IsNamed) :
    ((testContracts surface).map TestContract.operation).Nodup := by
  have names : (testContracts surface).map TestContract.operation =
      (surface.operations.filter (!·.functions.isEmpty)).map (·.operation.name) := by
    rw [testContracts, List.map_map]
    rfl
  rw [names]
  exact named.distinct.sublist (List.filter_sublist.map _)

theorem known_of_mem_testContracts (known : surface.IsKnown) :
    ∀ n ∈ (testContracts surface).map TestContract.operation, n ∈ Dispatcher.functionIds := by
  intro n hn
  obtain ⟨t, ht, rfl⟩ := List.mem_map.1 hn
  obtain ⟨ro, hro, rfl⟩ := List.mem_map.1 ht
  obtain ⟨hro, nonempty⟩ := List.mem_filter.1 hro
  exact known ro hro (by simpa using nonempty)

/-- So are benchmark contracts. -/
theorem nodup_operation_benchmarks (c : Config) (named : surface.IsNamed) :
    ((benchmarks c surface).map Benchmark.operation).Nodup := by
  rw [benchmarks, List.Nodup, List.pairwise_map, List.pairwise_filterMap]
  have distinct := List.pairwise_map.1
    (named.distinct.sublist (List.filter_sublist (p := (c.benchmarks ·.operation.name)).map _))
  refine distinct.imp fun {ro ro'} different b hb b' hb' => ?_
  rw [(Benchmark.of_ofOperation? hb).1, (Benchmark.of_ofOperation? hb').1]
  exact different

theorem known_of_mem_benchmarks (c : Config) (known : surface.IsKnown) :
    ∀ n ∈ (benchmarks c surface).map Benchmark.operation, n ∈ Dispatcher.functionIds := by
  intro n hn
  obtain ⟨b, hb, rfl⟩ := List.mem_map.1 hn
  obtain ⟨ro, hro, made⟩ := List.mem_filterMap.1 hb
  obtain ⟨own, nonempty⟩ := Benchmark.of_ofOperation? made
  rw [own]
  exact known ro (List.mem_of_mem_filter hro) nonempty

/-- The names of all contracts of a surface. -/
def contractNames (c : Config) (surface : Surface) : List String :=
  (testContracts surface).map TestContract.name ++ (benchmarks c surface).map Benchmark.name

theorem contractNames_eq (c : Config) (surface : Surface) : contractNames c surface =
    ((testContracts surface).map TestContract.operation).map Naming.testContract ++
      ((benchmarks c surface).map Benchmark.operation).map Naming.benchContract := by
  rw [List.map_map, List.map_map]
  rfl

theorem name_mem_contractNames_of_test {t : TestContract} (h : t ∈ testContracts surface) :
    t.name ∈ contractNames c surface :=
  List.mem_append_left _ (List.mem_map_of_mem (f := TestContract.name) h)

theorem name_mem_contractNames_of_benchmark {b : Benchmark} (h : b ∈ benchmarks c surface) :
    b.name ∈ contractNames c surface :=
  List.mem_append_right _ (List.mem_map_of_mem (f := Benchmark.name) h)

theorem nodup_contractNames (c : Config) (named : surface.IsNamed) :
    (contractNames c surface).Nodup := by
  have tests := Naming.nodup_map_capitalize (nodup_operation_testContracts named)
    (known_of_mem_testContracts named.known) "Test"
  have benches := Naming.nodup_map_capitalize (nodup_operation_benchmarks c named)
    (known_of_mem_benchmarks c named.known) "Bench"
  rw [contractNames_eq]
  refine tests.append benches (List.disjoint_left.2 fun name ht hb => ?_)
  obtain ⟨n, _, rfl⟩ := List.mem_map.1 ht
  obtain ⟨m, _, same⟩ := List.mem_map.1 hb
  exact Naming.testContract_ne_benchContract n m same.symm

theorem sep_not_mem_contractNames (known : surface.IsKnown) {name : String}
    (h : name ∈ contractNames c surface) : '/' ∉ name.toList := by
  rw [contractNames_eq] at h
  rcases List.mem_append.1 h with h | h
  · obtain ⟨n, hn, rfl⟩ := List.mem_map.1 h
    exact Naming.sep_not_mem_capitalize (known_of_mem_testContracts known n hn) (by decide)
  · obtain ⟨n, hn, rfl⟩ := List.mem_map.1 h
    exact Naming.sep_not_mem_capitalize (known_of_mem_benchmarks c known n hn) (by decide)

/-! ### Places of contracts -/

/-- The file of a contract is one step below its directory. -/
theorem inner_contractFile {contract : String} (plain : '/' ∉ contract.toList) :
    Path.inner (contract ++ ".sol").toList = [.name (contract ++ ".sol").toList] := by
  have noSep : '/' ∉ (contract ++ ".sol").toList := by simpa using plain
  have long : 2 < (contract ++ ".sol").toList.length := by simp
  rw [Path.inner_of_no_sep noSep, Path.innerComponent?_eq_name]
  · rfl
  · intro none
    simp [none] at long
  · intro dot
    simp [dot] at long
  · intro dots
    simp [dots] at long

theorem isAbsolute_contractFile {contract : String} (plain : '/' ∉ contract.toList) :
    (⟨contract ++ ".sol"⟩ : Path).isAbsolute = false :=
  Path.isAbsolute_of_no_sep (by simpa using plain)

theorem components_contractPath {dir contract : String} (nonempty : dir ≠ "")
    (plain : '/' ∉ contract.toList) : (contractPath dir contract).components =
      (⟨dir⟩ : Path).components ++ [.name (contract ++ ".sol").toList] := by
  rw [contractPath, Path.components_join (isAbsolute_contractFile plain) nonempty,
    inner_contractFile plain]

/-- The files of all contracts of a surface. -/
def contracts (c : Config) (surface : Surface) : List Artifact :=
  (testContracts surface).map (ofTestContract c) ++ (benchmarks c surface).map (ofBenchmark c)

theorem assemble_eq (c : Config) (surface : Surface) :
    assemble c surface = library c surface :: (contracts c surface ++ [abi c surface]) :=
  rfl

theorem path_ofTestContract (c : Config) (t : TestContract) :
    (ofTestContract c t).path = contractPath c.testsDir t.name :=
  rfl

theorem path_ofBenchmark (c : Config) (b : Benchmark) :
    (ofBenchmark c b).path = contractPath c.benchDir b.name :=
  rfl

/-- Every contract has a file in one of the two directories. -/
theorem exists_path_of_mem_contracts (accepted : c.validate = .ok ()) {a : Artifact}
    (h : a ∈ contracts c surface) : ∃ dir ≠ "", ∃ name ∈ contractNames c surface,
      a.path = contractPath dir name := by
  obtain ⟨_, _, tests, benches, _⟩ := Config.validate_eq_ok_iff.1 accepted
  rcases List.mem_append.1 h with h | h
  · obtain ⟨t, ht, rfl⟩ := List.mem_map.1 h
    exact ⟨c.testsDir, tests, t.name, name_mem_contractNames_of_test ht, rfl⟩
  · obtain ⟨b, hb, rfl⟩ := List.mem_map.1 h
    exact ⟨c.benchDir, benches, b.name, name_mem_contractNames_of_benchmark hb, rfl⟩

/-- No contract lies in the place of a file of the output directory itself. -/
theorem components_ne_of_mem_contracts (accepted : c.validate = .ok ()) (known : surface.IsKnown)
    {a : Artifact} (ha : a ∈ contracts c surface) {file : String} (isFile : IsFileName file) :
    a.path.components ≠ (⟨file⟩ : Path).components := by
  obtain ⟨dir, nonempty, name, hname, path⟩ := exists_path_of_mem_contracts accepted ha
  obtain ⟨first, own, _⟩ := Path.exists_components_eq_singleton isFile.nonempty isFile.noSep
  have directory : (⟨dir⟩ : Path).components ≠ [] := Path.components_ne_nil nonempty
  have positive := List.length_pos_iff.2 directory
  rw [path, components_contractPath nonempty (sep_not_mem_contractNames known hname), own]
  intro same
  have length := congrArg List.length same
  rw [List.length_append, List.length_singleton, List.length_singleton] at length
  omega

/-- The last components of the contracts' places are their names. -/
theorem map_getLast?_contracts (accepted : c.validate = .ok ()) (known : surface.IsKnown) :
    ((contracts c surface).map (·.path.components)).map List.getLast? =
      (contractNames c surface).map fun name => some (.name (name ++ ".sol").toList) := by
  obtain ⟨_, _, tests, benches, _⟩ := Config.validate_eq_ok_iff.1 accepted
  have last {dir name : String} (nonempty : dir ≠ "") (h : name ∈ contractNames c surface) :
      (contractPath dir name).components.getLast? = some (.name (name ++ ".sol").toList) := by
    rw [components_contractPath nonempty (sep_not_mem_contractNames known h),
      List.getLast?_concat]
  simp only [contracts, contractNames, List.map_append, List.map_map]
  congr 1
  · refine List.map_congr_left fun t ht => ?_
    simp only [Function.comp_apply, path_ofTestContract]
    exact last tests (name_mem_contractNames_of_test ht)
  · refine List.map_congr_left fun b hb => ?_
    simp only [Function.comp_apply, path_ofBenchmark]
    exact last benches (name_mem_contractNames_of_benchmark hb)

/-- The files of contracts lie in different places. -/
theorem nodup_components_contracts (accepted : c.validate = .ok ()) (named : surface.IsNamed) :
    ((contracts c surface).map (·.path.components)).Nodup := by
  have distinct : ((contractNames c surface).map fun name =>
      some (Component.name (name ++ ".sol").toList)).Nodup := by
    refine (nodup_contractNames c named).map fun x y same => ?_
    have chars := Component.name.inj (Option.some.inj same)
    exact (String.append_left_inj ".sol").1 (String.toList_inj.1 chars)
  rw [← map_getLast?_contracts accepted named.known] at distinct
  exact distinct.of_map

/-- The files besides the library lie in different places. -/
theorem nodup_components_besides_library (accepted : c.validate = .ok ())
    (named : surface.IsNamed) :
    ((contracts c surface ++ [abi c surface]).map (·.path.components)).Nodup := by
  obtain ⟨_, isFile, _⟩ := Config.validate_eq_ok_iff.1 accepted
  rw [List.map_append]
  refine (nodup_components_contracts accepted named).append (List.nodup_singleton _) ?_
  refine List.disjoint_left.2 fun place hplace habi => ?_
  obtain ⟨a, ha, rfl⟩ := List.mem_map.1 hplace
  exact components_ne_of_mem_contracts accepted named.known ha isFile (List.mem_singleton.1 habi)

/-- Another file lies in the place of the library exactly if the declarations have its name. -/
theorem components_library_mem_iff (accepted : c.validate = .ok ()) (named : surface.IsNamed) :
    (library c surface).path.components ∈
        (contracts c surface ++ [abi c surface]).map (·.path.components) ↔
      c.libraryFile = c.abiFile := by
  obtain ⟨lib, isFile, _⟩ := Config.validate_eq_ok_iff.1 accepted
  have declarations : (library c surface).path.components = (abi c surface).path.components ↔
      c.libraryFile = c.abiFile :=
    Path.components_inj_of_no_sep lib.nonempty isFile.nonempty lib.noSep isFile.noSep
  rw [List.map_append, List.mem_append, List.map_singleton, List.mem_singleton, declarations]
  refine or_iff_right fun h => ?_
  obtain ⟨a, ha, same⟩ := List.mem_map.1 h
  exact components_ne_of_mem_contracts accepted named.known ha lib same

/-- All files lie in different places exactly if the library and the declarations do. -/
theorem nodup_components_assemble_iff (accepted : c.validate = .ok ()) (named : surface.IsNamed) :
    ((assemble c surface).map (·.path.components)).Nodup ↔ c.libraryFile ≠ c.abiFile := by
  rw [assemble_eq, List.map_cons, List.nodup_cons, components_library_mem_iff accepted named]
  exact and_iff_left (nodup_components_besides_library accepted named)

/-! ### What a sink in memory keeps -/

/-- A sink in memory has one file fewer than there are, if the declarations have the library's
name. -/
theorem size_writeAll_assemble (accepted : c.validate = .ok ()) (named : surface.IsNamed) :
    (MemorySink.empty.writeAll (assemble c surface)).size +
      (if c.libraryFile = c.abiFile then 1 else 0) = (assemble c surface).length := by
  have besides := nodup_components_besides_library accepted named
  have clash := components_library_mem_iff accepted named
  rw [MemorySink.size_writeAll_empty, assemble_eq, List.map_cons, List.length_cons]
  have length := congrArg List.length besides.dedup
  rw [List.length_map] at length
  split
  · next same => rw [List.dedup_cons_of_mem (clash.2 same), length]
  · next different =>
    rw [List.dedup_cons_of_notMem fun mem => different (clash.1 mem), List.length_cons, length]

/-- A sink in memory keeps all files besides the library. -/
theorem get?_writeAll_besides_library (accepted : c.validate = .ok ()) (named : surface.IsNamed)
    {a : Artifact} (ha : a ∈ contracts c surface ++ [abi c surface]) :
    (MemorySink.empty.writeAll (assemble c surface)).get? a.path = some a.contents := by
  rw [assemble_eq, MemorySink.writeAll_cons]
  exact MemorySink.get?_writeAll_of_nodup _ (nodup_components_besides_library accepted named) ha

end Artifact

/-- A sink in memory takes every file. -/
def MemorySink.receive (a : Artifact) : StateM MemorySink (Except EmitError Unit) :=
  fun s => (.ok (), s.write a.path a.contents)

namespace Generator

variable {g : Generator (StateM MemorySink)} {s next : MemorySink}

theorem writeAll_receive (sink : g.write = MemorySink.receive) (files : List Artifact)
    (s : MemorySink) : g.writeAll files s = (.ok (), s.writeAll files) := by
  induction files generalizing s with
  | nil => rfl
  | cons a files ih =>
    have written : g.write a s = (.ok (), s.write a.path a.contents) := by
      rw [sink]
      rfl
    rw [writeAll_cons_of_written written, ih, MemorySink.writeAll_cons]

/-- A run with a sink in memory fails before its first write or not at all. -/
theorem generate_receive (sink : g.write = MemorySink.receive) {p : Prepared}
    (prepared : g.prepared s = (.ok p, next)) :
    g.generate s = (.ok (Report.ofRun p.operations p.surface p.files false),
      next.writeAll p.files) := by
  rw [generate_of_prepared_ok prepared (writeAll_receive sink p.files next)]
  rfl

/-- A run in memory on a catalog whose operations have a surface. -/
theorem exists_generate_receive {config : Config} {text : String} {ops : List Operation}
    {choice : ErrorChoice} {surface : Surface} (valid : config.validate = .ok ())
    (read : Catalog.extract text = .ok ops)
    (built : Surface.build config.rules ops choice = .ok surface) :
    ∃ g : Generator (StateM MemorySink),
      Generator.ofConfig config (fun s => (.ok text, s)) MemorySink.receive = .ok g ∧
      (g.plan .empty).1 = .ok (Artifact.assemble config surface) ∧
      g.generate .empty = (.ok (Report.ofRun ops surface (Artifact.assemble config surface) false),
        MemorySink.empty.writeAll (Artifact.assemble config surface)) := by
  let g : Generator (StateM MemorySink) :=
    { config
      extract := Catalog.extract
      load := fun s => (.ok text, s)
      write := MemorySink.receive }
  have outcome : (g.prepared .empty).1 = .ok ⟨ops, surface, Artifact.assemble config surface⟩ :=
    prepared_eq_ok_iff.2
      ⟨operations_eq_ok_iff.2 ⟨text, rfl, read⟩, (Surface.build_eq_ok_congr _).1 built, rfl⟩
  have prepared : g.prepared .empty =
      (.ok ⟨ops, surface, Artifact.assemble config surface⟩, .empty) :=
    Prod.ext outcome (prepared_world g .empty)
  refine ⟨g, ofConfig_eq_ok_iff.2 ⟨valid, rfl⟩, map_eq_ok_iff.2 ⟨_, outcome, rfl⟩, ?_⟩
  exact generate_receive rfl prepared

/-- A successful run in memory is one on a catalog whose operations have a surface. -/
theorem exists_surface_of_generate_receive {config : Config} {text : String} {race : ErrorChoice}
    {report : Report} {sink : MemorySink}
    (accepted : Generator.ofConfig config (fun s => (.ok text, s)) MemorySink.receive race = .ok g)
    (ran : g.generate .empty = (.ok report, sink)) : ∃ ops surface,
      Catalog.extract text = .ok ops ∧ Surface.build config.rules ops = .ok surface ∧
      (g.plan .empty).1 = .ok (Artifact.assemble config surface) ∧
      report = Report.ofRun ops surface (Artifact.assemble config surface) false ∧
      sink = MemorySink.empty.writeAll (Artifact.assemble config surface) := by
  obtain ⟨_, made⟩ := ofConfig_eq_ok_iff.1 accepted
  rcases prepared : g.prepared .empty with ⟨outcome, next⟩
  have first : (g.prepared .empty).1 = outcome := by rw [prepared]
  have world : next = .empty := by
    have same := prepared_world g .empty
    rw [prepared, made] at same
    exact same
  cases outcome with
  | error e =>
    rw [generate_of_prepared_error prepared] at ran
    cases ran
  | ok p =>
    obtain ⟨operations, built, files⟩ := prepared_eq_ok_iff.1 first
    obtain ⟨source, loaded, read⟩ := operations_eq_ok_iff.1 operations
    rw [made] at loaded read built files
    cases loaded
    rw [generate_receive (by rw [made]) prepared, files, world] at ran
    cases ran
    have built := (Surface.build_eq_ok_congr .first).1 built
    exact ⟨p.operations, p.surface, read, built, map_eq_ok_iff.2 ⟨p, first, files⟩, rfl, rfl⟩

/-- **What a sink in memory holds after a run.** A successful run of an accepted configuration on
the text of a catalog leaves as many files in the sink as it reports, exactly if the library and the
declarations have different names. Then the files lie in different places, and the sink holds each
of them in its own. If they have one name, the sink holds the declarations in the place of both, and
every contract. -/
theorem memory_holds_files {config : Config} {text : String} {race : ErrorChoice}
    {report : Report} {sink : MemorySink}
    (accepted : Generator.ofConfig config (fun s => (.ok text, s)) MemorySink.receive race = .ok g)
    (ran : g.generate .empty = (.ok report, sink)) :
    ∃ files, (g.plan .empty).1 = .ok files ∧ report.files = files.map WrittenFile.ofArtifact ∧
      (sink.size = report.files.length ↔ config.libraryFile ≠ config.abiFile) ∧
      (config.libraryFile ≠ config.abiFile →
        files.Pairwise (fun a b => a.path.same b.path = false) ∧
        ∀ a ∈ files, sink.get? a.path = some a.contents) ∧
      (config.libraryFile = config.abiFile → ∃ library contracts declarations,
        files = library :: (contracts ++ [declarations]) ∧
        library.kind = .library ∧ declarations.kind = .abiDeclarations ∧
        library.path = declarations.path ∧ sink.size + 1 = report.files.length ∧
        ∀ a ∈ contracts ++ [declarations], sink.get? a.path = some a.contents) := by
  obtain ⟨valid, _⟩ := ofConfig_eq_ok_iff.1 accepted
  obtain ⟨ops, surface, read, built, planned, rfl, rfl⟩ :=
    exists_surface_of_generate_receive accepted ran
  have named : surface.IsNamed :=
    Surface.isNamed_of_extract read (Surface.build_eq_ok_iff.1 built).1
  have size := Artifact.size_writeAll_assemble valid named
  have distinct := Artifact.nodup_components_assemble_iff valid named
  refine ⟨Artifact.assemble config surface, planned, rfl, ?_, ?_, ?_⟩
  · rw [Report.ofRun, List.length_map]
    by_cases same : config.libraryFile = config.abiFile
    · rw [if_pos same] at size
      refine ⟨fun whole => ?_, fun different => absurd same different⟩
      omega
    · rw [if_neg same] at size
      exact ⟨fun _ => same, fun _ => size⟩
  · intro different
    refine ⟨?_, fun a ha => MemorySink.get?_writeAll_of_nodup _ (distinct.2 different) ha⟩
    refine (List.pairwise_map.1 (distinct.2 different)).imp fun {a b} other => ?_
    rw [Bool.eq_false_iff, ne_eq, Path.same_iff]
    exact other
  · intro same
    rw [if_pos same] at size
    refine ⟨_, _, _, Artifact.assemble_eq config surface, rfl, rfl, ?_, ?_, ?_⟩
    · rw [Artifact.library, Artifact.abi, same]
    · rw [Report.ofRun, List.length_map, size]
    · intro a ha
      exact Artifact.get?_writeAll_besides_library valid named ha

/-- With the default names, a sink in memory holds every file of a catalog of one operation. -/
theorem memory_holds_files_not :
    ∃ (g : Generator (StateM MemorySink)) (report : Report) (sink : MemorySink),
      Generator.ofConfig {} (fun s => (.ok "func Not(x []byte) {}\n", s)) MemorySink.receive =
        .ok g ∧
      g.generate .empty = (.ok report, sink) ∧ sink.size = report.files.length := by
  have built : Surface.build ({} : Config).rules [{ name := "not", inputs := [.encrypted] }] =
      .ok _ := Surface.build_eq_ok_iff.2 ⟨rfl, by decide +kernel⟩
  have valid : ({} : Config).validate = .ok () := by decide +kernel
  obtain ⟨g, accepted, _, ran⟩ := exists_generate_receive valid Catalog.extract_not built
  obtain ⟨_, _, _, whole, _⟩ := memory_holds_files accepted ran
  exact ⟨g, _, _, accepted, ran, whole.2 (by decide)⟩

/-- A configuration that gives the declarations the name of the library is accepted. Then two of the
reported files are of one place, and a sink in memory holds fewer files than the run reports. -/
theorem memory_loses_library :
    ∃ (g : Generator (StateM MemorySink)) (report : Report) (sink : MemorySink)
      (files : List Artifact) (library declarations : Artifact),
      Generator.ofConfig { abiFile := "FHE.sol" } (fun s => (.ok "func Not(x []byte) {}\n", s))
        MemorySink.receive = .ok g ∧
      g.generate .empty = (.ok report, sink) ∧ (g.plan .empty).1 = .ok files ∧
      library ∈ files ∧ declarations ∈ files ∧ library.kind ≠ declarations.kind ∧
      library.path.same declarations.path = true ∧ sink.size ≠ report.files.length := by
  let config : Config := { abiFile := "FHE.sol" }
  have valid : config.validate = .ok () := by decide +kernel
  obtain ⟨surface, built⟩ : ∃ surface,
      Surface.build config.rules [{ name := "not", inputs := [.encrypted] }] = .ok surface :=
    ⟨_, Surface.build_eq_ok_iff.2 ⟨rfl, by decide +kernel⟩⟩
  have named : surface.IsNamed :=
    Surface.isNamed_of_extract Catalog.extract_not (Surface.build_eq_ok_iff.1 built).1
  obtain ⟨g, accepted, planned, ran⟩ := exists_generate_receive valid Catalog.extract_not built
  have kinds : (Artifact.library config surface).kind ≠ (Artifact.abi config surface).kind :=
    ArtifactKind.noConfusion
  refine ⟨g, _, _, _, Artifact.library config surface, Artifact.abi config surface, accepted, ran,
    planned, ?_, ?_, kinds, Path.same_iff_key.2 rfl, ?_⟩
  · rw [Artifact.assemble_eq]
    exact List.mem_cons_self
  · rw [Artifact.assemble_eq]
    exact List.mem_cons_of_mem _ (List.mem_append_right _ List.mem_cons_self)
  · have size := Artifact.size_writeAll_assemble valid named
    rw [if_pos rfl] at size
    rw [Report.ofRun, List.length_map]
    omega

end Generator

end FheSolidity
