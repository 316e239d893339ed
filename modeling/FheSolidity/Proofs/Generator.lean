import FheSolidity.Proofs.Catalog.Extraction
import FheSolidity.Proofs.Overloads

/-!
# Runs of the generator

A catalog names each of its operations once, so the surface of a catalog has no overload twice and
the check for repeated overloads never stops a run. It is there for other readers of catalogs.
-/

namespace FheSolidity

variable {symbol : String} {inputs : List String}

/-- Neither expansion nor rendering compares overloads. -/
theorem Surface.ofOperations_ne_duplicateSignature (r : Rules) (ops : List Operation)
    (choice : ErrorChoice) :
    Surface.ofOperations r ops choice ≠ .error (.duplicateSignature symbol inputs) := by
  intro h
  rcases bind_eq_error_iff.1 h with h | ⟨operations, _, h⟩
  · obtain ⟨op, _, h⟩ := Operation.exists_of_renderEach_eq_error h
    rcases Operation.render_eq_error_iff.1 h with ⟨_, _, own⟩ | ⟨_, _, _, _, own⟩
    · cases own
    · cases own
  · rw [bind_pure_eq_error_iff, atStage_eq_error_iff] at h
    obtain ⟨_, _, own⟩ := h
    cases own

theorem Surface.build_ne_duplicateSignature {r : Rules} {ops : List Operation}
    {choice : ErrorChoice} (names : (ops.map Operation.name).Nodup) :
    Surface.build r ops choice ≠ .error (.duplicateSignature symbol inputs) := by
  intro h
  rcases bind_eq_error_iff.1 h with h | ⟨surface, hsurface, h⟩
  · exact ofOperations_ne_duplicateSignature r ops choice h
  · have passes := checkOverloads_eq_ok_iff.2 (nodup_overloads_of_nodup_names names hsurface)
    rcases bind_eq_error_iff.1 h with h | ⟨_, _, h⟩
    · rw [passes] at h
      cases h
    · cases h

namespace Generator

theorem prepare_ne_duplicateSignature (config : Config) (choice : ErrorChoice) (text : String) :
    prepare config Catalog.extract choice text ≠ .error (.duplicateSignature symbol inputs) := by
  intro h
  rcases bind_eq_error_iff.1 h with h | ⟨ops, hops, h⟩
  · obtain ⟨_, _, h⟩ := atStage_eq_error_iff.1 h
    cases h
  · have names := Catalog.nodup_names_of_extract (atStage_eq_ok_iff.1 hops)
    rcases bind_eq_error_iff.1 h with h | ⟨surface, _, h⟩
    · exact Surface.build_ne_duplicateSignature names h
    · cases h

variable {σ : Type} {config : Config} {load : StateM σ (Except CatalogError String)}
  {write : Artifact → StateM σ (Except EmitError Unit)} {race : ErrorChoice}
  {g : Generator (StateM σ)}

theorem ofConfig_eq_ok_iff : Generator.ofConfig config load write race = .ok g ↔
    config.validate = .ok () ∧ g = { config, extract := Catalog.extract, load, write, race } := by
  rw [ofConfig, check_bind_eq_ok_iff, atStage_eq_ok_iff]
  simp only [pure, Except.pure, Except.ok.injEq, eq_comm]

theorem prepared_ne_duplicateSignature (hg : g.extract = Catalog.extract) (world : σ) :
    (g.prepared world).1 ≠ .error (.duplicateSignature symbol inputs) := by
  intro h
  have h : (atStage .catalog (g.load world).1).bind (prepare g.config g.extract g.choice) =
    .error (.duplicateSignature symbol inputs) := h
  rcases bind_eq_error_iff.1 h with h | ⟨text, _, h⟩
  · obtain ⟨_, _, h⟩ := atStage_eq_error_iff.1 h
    cases h
  · rw [hg] at h
    exact prepare_ne_duplicateSignature g.config g.choice text h

/-- Past the computation, a run fails with an error of the sink. -/
theorem generate_eq_error {world : σ} {e : GeneratorError} (h : (g.generate world).1 = .error e) :
    (g.prepared world).1 = .error e ∨ ∃ cause, e = .emit cause := by
  simp only [generate, bind, StateT.bind] at h
  generalize g.prepared world = outcome at h
  obtain ⟨prepared, world⟩ := outcome
  cases prepared with
  | error e' =>
    cases h
    exact .inl rfl
  | ok p =>
    refine .inr ?_
    simp only [bind, StateT.bind] at h
    generalize g.writeAll p.files world = outcome at h
    obtain ⟨written, world⟩ := outcome
    cases written with
    | error cause =>
      cases h
      exact ⟨cause, rfl⟩
    | ok => cases h

/-- **No overload occurs twice.** Whatever a generator of catalogs loads, in whatever state of the
world, no run of it fails with a repeated overload: if the catalog can be read and all its functions
can be made, then no two of them, conversions among them, are one Solidity overload. -/
theorem overloads_distinct (h : Generator.ofConfig config load write race = .ok g) :
    (∀ world symbol inputs,
      (g.plan world).1 ≠ .error (.duplicateSignature symbol inputs) ∧
      (g.dryRun world).1 ≠ .error (.duplicateSignature symbol inputs) ∧
      (g.generate world).1 ≠ .error (.duplicateSignature symbol inputs)) ∧
    ∀ text ops choice surface, g.extract text = .ok ops →
      Surface.ofOperations g.rules ops choice = .ok surface →
      (surface.signatures.map Signature.overloadKey).Nodup := by
  have reader : g.extract = Catalog.extract :=
    congrArg Generator.extract (ofConfig_eq_ok_iff.1 h).2
  refine ⟨fun world symbol inputs => ?_, fun text ops choice surface hops hsurface => ?_⟩
  · have computes : (g.prepared world).1 ≠ .error (.duplicateSignature symbol inputs) :=
      prepared_ne_duplicateSignature reader world
    refine ⟨fun h => computes (map_eq_error_iff.1 h), fun h => computes (map_eq_error_iff.1 h), ?_⟩
    intro h
    rcases generate_eq_error h with h | ⟨_, h⟩
    · exact computes h
    · cases h
  · rw [reader] at hops
    exact Surface.nodup_overloads_of_nodup_names (Catalog.nodup_names_of_extract hops) hsurface

/-- A catalog that declares one of its two operations twice: the second declaration is left out. -/
theorem overloads_distinct_repeated_declaration :
    ∃ g : Generator (StateM String), Generator.ofConfig {} g.load g.write = .ok g ∧
      (∀ text symbol inputs,
        (g.plan text).1 ≠ .error (.duplicateSignature symbol inputs) ∧
        (g.dryRun text).1 ≠ .error (.duplicateSignature symbol inputs) ∧
        (g.generate text).1 ≠ .error (.duplicateSignature symbol inputs)) ∧
      ∃ surface,
        g.extract "func Not(x []byte) {}\nfunc Random(seed uint64) {}\nfunc Not(a, b []byte) {}\n" =
          .ok [{ name := "not", inputs := [.encrypted] },
            { name := "random", inputs := [.fixed (.fixed .seed)] }] ∧
        Surface.ofOperations g.rules [{ name := "not", inputs := [.encrypted] },
            { name := "random", inputs := [.fixed (.fixed .seed)] }] = .ok surface ∧
        (surface.signatures.map Signature.overloadKey).Nodup := by
  let g : Generator (StateM String) :=
    { config := {}
      extract := Catalog.extract
      load := fun text => (.ok text, text)
      write := fun _ text => (.ok (), text) }
  have accepted : Generator.ofConfig {} g.load g.write = .ok g := rfl
  have read : Catalog.extract
      "func Not(x []byte) {}\nfunc Random(seed uint64) {}\nfunc Not(a, b []byte) {}\n" =
        .ok [{ name := "not", inputs := [.encrypted] },
          { name := "random", inputs := [.fixed (.fixed .seed)] }] := by
    decide +kernel
  have made : Surface.ofOperations g.rules [{ name := "not", inputs := [.encrypted] },
      { name := "random", inputs := [.fixed (.fixed .seed)] }] = .ok _ := rfl
  exact ⟨g, accepted, (overloads_distinct accepted).1, _, read, made,
    (overloads_distinct accepted).2 _ _ _ _ read made⟩

end Generator

end FheSolidity
