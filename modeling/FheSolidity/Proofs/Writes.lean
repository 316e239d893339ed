import FheSolidity.Proofs.Conversions
import FheSolidity.Proofs.Generator

/-!
# What a sink receives

A run computes everything before it hands the first file to its sink, and then hands over the files
one after the other until one is refused. `Generator.recorded` is the same run with a record of what
the sink is handed, and `generate_writes` says what is on the record in every case.
-/

namespace FheSolidity

/-- The conversions of any rules can be rendered. -/
theorem Rules.exists_renderAll_casts (r : Rules) : ∃ fs, Signature.renderAll r.casts = .ok fs := by
  refine Signature.exists_renderAll_eq_ok fun sig hsig => ?_
  obtain ⟨target, inputs, converts, rfl⟩ := mem_casts_iff.1 hsig
  obtain ⟨f, source, planned⟩ := converts.exists_shape
  exact ⟨_, planned⟩

/-! ### Errors of the stages -/

section Stages

variable {r : Rules} {ops : List Operation} {choice : ErrorChoice} {e : GeneratorError}

/-- A surface is not made if some of its operations fail. The conversions that follow them always
succeed. -/
theorem Surface.ofOperations_eq_error_iff : Surface.ofOperations r ops choice = .error e ↔
    Operation.renderEach r ops choice = .error e := by
  rw [ofOperations, bind_eq_error_iff, or_iff_left_iff_imp]
  rintro ⟨operations, _, h⟩
  obtain ⟨fs, made⟩ := r.exists_renderAll_casts
  rw [bind_pure_eq_error_iff, made] at h
  cases h

theorem Surface.checkOverloads_eq_error_iff {surface : Surface} :
    surface.checkOverloads = .error e ↔ ∃ k ks, repeatedOverloads surface.signatures = k :: ks ∧
      e = .duplicateSignature k.symbol k.inputs := by
  unfold checkOverloads
  split
  · next none => simp [none]
  · next k ks repeats => simp [repeats, eq_comm]

theorem Surface.build_eq_error_iff : Surface.build r ops choice = .error e ↔
    Surface.ofOperations r ops choice = .error e ∨
      ∃ surface, Surface.ofOperations r ops choice = .ok surface ∧
        surface.checkOverloads = .error e := by
  rw [build, bind_eq_error_iff]
  simp only [bind_pure_eq_error_iff]

/-- The choice of one error wherever it is among those that there are. -/
def ErrorChoice.prefer (wanted : GeneratorError) : ErrorChoice where
  pick e others := if wanted ∈ e :: others then wanted else e
  pick_mem e others := by
    split
    · next mem => exact mem
    · exact List.mem_cons_self

/-- The error of any operation that fails may be reported. -/
theorem Operation.renderEach_prefer_eq_error {op : Operation} (hop : op ∈ ops)
    (fails : op.render r = .error e) : renderEach r ops (.prefer e) = .error e := by
  have mem : e ∈ failures r ops := mem_failures_iff.2 ⟨op, hop, fails⟩
  obtain ⟨first, others, split⟩ := List.exists_cons_of_ne_nil (List.ne_nil_of_mem mem)
  rw [split] at mem
  exact renderEach_eq_error_iff.2 ⟨first, others, split, if_pos mem⟩

end Stages

variable {σ : Type}

/-- A sink takes some files one after the other, and none of the writes fails. -/
inductive Takes (write : Artifact → StateM σ (Except EmitError Unit)) :
    σ → List Artifact → σ → Prop where
  | nil (world : σ) : Takes write world [] world
  | cons {world next last : σ} {a : Artifact} {files : List Artifact}
      (written : write a world = (.ok (), next)) (rest : Takes write next files last) :
      Takes write world (a :: files) last

/-- What becomes of some files that are handed to a sink up to the first that it refuses: how that
ends, what the sink has received then, and the world afterwards. -/
inductive HandsOver (write : Artifact → StateM σ (Except EmitError Unit)) (world : σ) :
    List Artifact → Except EmitError Unit → List Artifact → σ → Prop where
  | all {files : List Artifact} {last : σ} (taken : Takes write world files last) :
      HandsOver write world files (.ok ()) files last
  | upTo {before after : List Artifact} {a : Artifact} {e : EmitError} {next last : σ}
      (taken : Takes write world before next) (refused : write a next = (.error e, last)) :
      HandsOver write world (before ++ a :: after) (.error e) (before ++ [a]) last

theorem HandsOver.cons {write : Artifact → StateM σ (Except EmitError Unit)} {world next last : σ}
    {a : Artifact} {files received : List Artifact} {outcome : Except EmitError Unit}
    (written : write a world = (.ok (), next))
    (h : HandsOver write next files outcome received last) :
    HandsOver write world (a :: files) outcome (a :: received) last := by
  cases h with
  | all taken => exact .all (.cons written taken)
  | upTo taken refused => exact .upTo (.cons written taken) refused

/-- A report tells of every file its path, its kind and its size in bytes, and how many operations
were read and how many functions the surface has. -/
structure Report.Describes (report : Report) (ops : List Operation) (surface : Surface)
    (files : List Artifact) : Prop where
  operations : report.operations = ops.length
  functions : report.functions = surface.signatures.length
  files : report.files = files.map fun a => ⟨a.path, a.kind, a.contents.utf8ByteSize⟩

theorem Report.describes_ofRun (ops : List Operation) (surface : Surface) (files : List Artifact)
    (dryRun : Bool) : (Report.ofRun ops surface files dryRun).Describes ops surface files where
  operations := rfl
  functions := by rw [Surface.signatures, List.length_map]; rfl
  files := rfl

/-- A world with a record of what was handed over in it, in its order. -/
structure Recorded (σ ι : Type) where
  world : σ
  received : List ι

/-- A catalog of one operation. -/
theorem Catalog.extract_not : extract "func Not(x []byte) {}\n" =
    .ok [{ name := "not", inputs := [.encrypted] }] := by
  decide +kernel

namespace Generator

/-- The generator with a record of every file that it hands to its sink. Neither its source nor its
sink sees the record. -/
def recorded (g : Generator (StateM σ)) : Generator (StateM (Recorded σ Artifact)) where
  config := g.config
  extract := g.extract
  load := fun s => ((g.load s.world).1, ⟨(g.load s.world).2, s.received⟩)
  write := fun a s => ((g.write a s.world).1, ⟨(g.write a s.world).2, s.received ++ [a]⟩)
  race := g.race

/-- What may stop a run before its first write. Each error comes from its stage, and all stages
before that have succeeded. Among several operations any that fails may count, unless they are
rendered one after the other: then it is the first. -/
inductive StopsWith (g : Generator (StateM σ)) (world : σ) : GeneratorError → Prop where
  | load {e : CatalogError} (fails : (g.load world).1 = .error e) : StopsWith g world (.catalog e)
  | extract {text : String} {e : CatalogError} (loaded : (g.load world).1 = .ok text)
      (fails : g.extract text = .error e) : StopsWith g world (.catalog e)
  | expand {before after : List Operation} {op : Operation} {e : ExpansionError}
      (read : (g.operations world).1 = .ok (before ++ op :: after))
      (earlier : g.config.parallel = false → ∀ o ∈ before, ∃ ro, o.render g.rules = .ok ro)
      (fails : op.expand g.rules = .error e) : StopsWith g world (.expansion e)
  | render {before after : List Operation} {op : Operation} {sigs : List Signature}
      {e : TemplateError} (read : (g.operations world).1 = .ok (before ++ op :: after))
      (earlier : g.config.parallel = false → ∀ o ∈ before, ∃ ro, o.render g.rules = .ok ro)
      (expanded : op.expand g.rules = .ok sigs) (fails : Signature.renderAll sigs = .error e) :
      StopsWith g world (.template e)
  | repeated {ops : List Operation} {surface : Surface} {k : OverloadKey} {ks : List OverloadKey}
      (read : (g.operations world).1 = .ok ops)
      (made : Surface.ofOperations g.rules ops g.choice = .ok surface)
      (fails : repeatedOverloads surface.signatures = k :: ks) :
      StopsWith g world (.duplicateSignature k.symbol k.inputs)

/-- The generator with another choice among the errors of operations that are rendered at the same
time. -/
def withRace (g : Generator (StateM σ)) (race : ErrorChoice) : Generator (StateM σ) :=
  { g with race }

variable {g : Generator (StateM σ)} {world next last : σ} {a : Artifact} {e : GeneratorError}

/-! ### Before the first write -/

theorem operations_eq_ok_iff {ops : List Operation} : (g.operations world).1 = .ok ops ↔
    ∃ text, (g.load world).1 = .ok text ∧ g.extract text = .ok ops := by
  have unfolded : (g.operations world).1 = atStage .catalog ((g.load world).1.bind g.extract) := rfl
  rw [unfolded, atStage_eq_ok_iff]
  exact bind_eq_ok_iff

/-- A run is prepared from the operations that were read. -/
theorem prepared_eq_ok_iff {p : Prepared} : (g.prepared world).1 = .ok p ↔
    (g.operations world).1 = .ok p.operations ∧
      Surface.build g.rules p.operations g.choice = .ok p.surface ∧
        p.files = Artifact.assemble g.config p.surface := by
  have unfolded : (g.prepared world).1 =
      atStage .catalog (g.load world).1 >>= prepare g.config g.extract g.choice := rfl
  rw [unfolded, operations_eq_ok_iff]
  simp only [prepare, bind_eq_ok_iff, atStage_eq_ok_iff, pure, Except.pure, Except.ok.injEq]
  constructor
  · rintro ⟨text, loaded, ops, read, surface, built, rfl⟩
    exact ⟨⟨text, loaded, read⟩, built, rfl⟩
  · rintro ⟨⟨text, loaded, read⟩, built, files⟩
    refine ⟨text, loaded, p.operations, read, p.surface, built, ?_⟩
    rw [← files]

theorem prepare_eq_error_iff {config : Config}
    {extract : String → Except CatalogError (List Operation)} {choice : ErrorChoice}
    {text : String} : prepare config extract choice text = .error e ↔
      (∃ cause, extract text = .error cause ∧ e = .catalog cause) ∨
        ∃ ops, extract text = .ok ops ∧ Surface.build config.rules ops choice = .error e := by
  rw [prepare, bind_eq_error_iff, atStage_eq_error_iff]
  simp only [bind_pure_eq_error_iff, atStage_eq_ok_iff]

/-- A run is stopped by its source, by its reader or by what it makes of the operations. -/
theorem prepared_eq_error_iff : (g.prepared world).1 = .error e ↔
    (∃ cause, (g.load world).1 = .error cause ∧ e = .catalog cause) ∨
      (∃ text cause, (g.load world).1 = .ok text ∧ g.extract text = .error cause ∧
        e = .catalog cause) ∨
      ∃ ops, (g.operations world).1 = .ok ops ∧
        Surface.build g.rules ops g.choice = .error e := by
  have unfolded : (g.prepared world).1 =
      atStage .catalog (g.load world).1 >>= prepare g.config g.extract g.choice := rfl
  rw [unfolded, bind_eq_error_iff, atStage_eq_error_iff]
  refine or_congr_right ?_
  simp only [prepare_eq_error_iff, atStage_eq_ok_iff, operations_eq_ok_iff]
  constructor
  · rintro ⟨text, loaded, ⟨cause, fails, rfl⟩ | ⟨ops, read, fails⟩⟩
    · exact .inl ⟨text, cause, loaded, fails, rfl⟩
    · exact .inr ⟨ops, ⟨text, loaded, read⟩, fails⟩
  · rintro (⟨text, cause, loaded, fails, rfl⟩ | ⟨ops, ⟨text, loaded, read⟩, fails⟩)
    · exact ⟨text, loaded, .inl ⟨cause, fails, rfl⟩⟩
    · exact ⟨text, loaded, .inr ⟨ops, read, fails⟩⟩

theorem choice_of_sequential (h : g.config.parallel = false) : g.choice = .first := by
  rw [choice, h]
  rfl

theorem choice_withRace_of_parallel (h : g.config.parallel = true) (race : ErrorChoice) :
    (g.withRace race).choice = race := by
  rw [choice, withRace, h]
  rfl

/-- The operation whose error ends a run. -/
theorem exists_of_renderEach_choice {ops : List Operation}
    (h : Operation.renderEach g.rules ops g.choice = .error e) :
    ∃ before op after, ops = before ++ op :: after ∧
      (g.config.parallel = false → ∀ o ∈ before, ∃ ro, o.render g.rules = .ok ro) ∧
      op.render g.rules = .error e := by
  cases order : g.config.parallel with
  | true =>
    obtain ⟨op, hop, fails⟩ := Operation.exists_of_renderEach_eq_error h
    obtain ⟨before, after, place⟩ := List.append_of_mem hop
    exact ⟨before, op, after, place, nofun, fails⟩
  | false =>
    rw [choice_of_sequential order] at h
    obtain ⟨before, op, after, place, earlier, fails⟩ := Operation.renderEach_first_eq_error_iff.1 h
    exact ⟨before, op, after, place, fun _ => earlier, fails⟩

/-- Every error that may count among those of the operations does so for some choice. -/
theorem renderEach_choice_prefer {before : List Operation} {op : Operation}
    (after : List Operation)
    (earlier : g.config.parallel = false → ∀ o ∈ before, ∃ ro, o.render g.rules = .ok ro)
    (fails : op.render g.rules = .error e) :
    Operation.renderEach g.rules (before ++ op :: after) (g.withRace (.prefer e)).choice =
      .error e := by
  cases order : g.config.parallel with
  | true =>
    rw [choice_withRace_of_parallel order]
    exact Operation.renderEach_prefer_eq_error (List.mem_append_right _ List.mem_cons_self) fails
  | false =>
    have first : (g.withRace (.prefer e)).choice = .first := choice_of_sequential order
    rw [first]
    exact Operation.renderEach_first_eq_error_iff.2 ⟨before, op, after, rfl, earlier order, fails⟩

theorem stopsWith_of_prepared_error (h : (g.prepared world).1 = .error e) :
    g.StopsWith world e := by
  rcases prepared_eq_error_iff.1 h with ⟨_, fails, rfl⟩ | ⟨_, _, loaded, fails, rfl⟩ |
    ⟨ops, read, fails⟩
  · exact .load fails
  · exact .extract loaded fails
  · rcases Surface.build_eq_error_iff.1 fails with stops | ⟨surface, made, stops⟩
    · obtain ⟨before, op, after, rfl, earlier, own⟩ :=
        exists_of_renderEach_choice (Surface.ofOperations_eq_error_iff.1 stops)
      rcases Operation.render_eq_error_iff.1 own with
        ⟨_, unexpanded, rfl⟩ | ⟨_, _, expanded, unrendered, rfl⟩
      · exact .expand read earlier unexpanded
      · exact .render read earlier expanded unrendered
    · obtain ⟨k, ks, repeats, rfl⟩ := Surface.checkOverloads_eq_error_iff.1 stops
      exact .repeated read made repeats

/-- Whatever may stop a run stops it for some choice. -/
theorem prepared_prefer_of_stopsWith (h : g.StopsWith world e) :
    ((g.withRace (.prefer e)).prepared world).1 = .error e := by
  rw [prepared_eq_error_iff]
  cases h with
  | load fails => exact .inl ⟨_, fails, rfl⟩
  | extract loaded fails => exact .inr (.inl ⟨_, _, loaded, fails, rfl⟩)
  | @expand _ after _ _ read earlier fails =>
    have stops := renderEach_choice_prefer after earlier
      (Operation.render_eq_error_iff.2 (.inl ⟨_, fails, rfl⟩))
    refine .inr (.inr ⟨_, read, Surface.build_eq_error_iff.2 (.inl ?_)⟩)
    exact Surface.ofOperations_eq_error_iff.2 stops
  | @render _ after _ _ _ read earlier expanded fails =>
    have stops := renderEach_choice_prefer after earlier
      (Operation.render_eq_error_iff.2 (.inr ⟨_, _, expanded, fails, rfl⟩))
    refine .inr (.inr ⟨_, read, Surface.build_eq_error_iff.2 (.inl ?_)⟩)
    exact Surface.ofOperations_eq_error_iff.2 stops
  | @repeated ops surface k ks read made repeats =>
    refine .inr (.inr ⟨ops, read, Surface.build_eq_error_iff.2 (.inr ⟨surface, ?_, ?_⟩)⟩)
    · exact (Surface.ofOperations_eq_ok_congr _).1 made
    · exact Surface.checkOverloads_eq_error_iff.2 ⟨k, ks, repeats, rfl⟩

/-- A run that gets to its writes does so for every choice. -/
theorem prepared_withRace_eq_ok (race : ErrorChoice) {p : Prepared}
    (h : (g.prepared world).1 = .ok p) : ((g.withRace race).prepared world).1 = .ok p := by
  obtain ⟨read, built, files⟩ := prepared_eq_ok_iff.1 h
  exact prepared_eq_ok_iff.2 ⟨read, (Surface.build_eq_ok_congr _).1 built, files⟩

theorem exists_prepared_error_of_stopsWith (h : g.StopsWith world e) :
    ∃ e', (g.prepared world).1 = .error e' := by
  cases prepared : (g.prepared world).1 with
  | error e' => exact ⟨e', rfl⟩
  | ok p =>
    have same := (prepared_prefer_of_stopsWith h).symm.trans (prepared_withRace_eq_ok _ prepared)
    cases same

/-- Operations that are rendered one after the other leave no choice. -/
theorem prepared_of_sequential (order : g.config.parallel = false) (h : g.StopsWith world e) :
    (g.prepared world).1 = .error e := by
  have first : (g.withRace (.prefer e)).choice = .first := choice_of_sequential order
  have own := prepared_prefer_of_stopsWith h
  rw [prepared_eq_error_iff, first, ← choice_of_sequential order] at own
  exact prepared_eq_error_iff.2 own

/-! ### Writes -/

theorem writeAll_cons_of_written {files : List Artifact}
    (written : g.write a world = (.ok (), next)) :
    g.writeAll (a :: files) world = g.writeAll files next := by
  simp only [writeAll, bind, StateT.bind, written]

theorem writeAll_cons_of_refused {files : List Artifact} {cause : EmitError}
    (refused : g.write a world = (.error cause, next)) :
    g.writeAll (a :: files) world = (.error cause, next) := by
  simp only [writeAll, bind, StateT.bind, refused]
  rfl

/-- Handing over files stops at the first that the sink refuses, and the record grows by what the
sink was handed until then. -/
theorem exists_handsOver (g : Generator (StateM σ)) (files : List Artifact) (world : σ)
    (earlier : List Artifact) : ∃ outcome received last,
      HandsOver g.write world files outcome received last ∧
        g.writeAll files world = (outcome, last) ∧
        g.recorded.writeAll files ⟨world, earlier⟩ = (outcome, ⟨last, earlier ++ received⟩) := by
  induction files generalizing world earlier with
  | nil => exact ⟨.ok (), [], world, .all (.nil world), rfl, by rw [List.append_nil]; rfl⟩
  | cons a files ih =>
    rcases written : g.write a world with ⟨outcome, next⟩
    have onRecord : g.recorded.write a ⟨world, earlier⟩ = (outcome, ⟨next, earlier ++ [a]⟩) := by
      simp only [recorded, written]
    cases outcome with
    | error cause =>
      refine ⟨.error cause, [a], next, .upTo (.nil world) written, ?_, ?_⟩
      · exact writeAll_cons_of_refused written
      · exact writeAll_cons_of_refused onRecord
    | ok =>
      obtain ⟨outcome, received, last, handed, own, record⟩ := ih next (earlier ++ [a])
      refine ⟨outcome, a :: received, last, handed.cons written, ?_, ?_⟩
      · exact (writeAll_cons_of_written written).trans own
      · rw [writeAll_cons_of_written onRecord, record, List.append_assoc, List.singleton_append]

/-! ### Whole runs -/

/-- A run from a world: what it comes to, what its sink receives meanwhile, and the world
afterwards. -/
def Runs (g : Generator (StateM σ)) (world : σ) (outcome : Except GeneratorError Report)
    (received : List Artifact) (last : σ) : Prop :=
  g.generate world = (outcome, last) ∧
    g.recorded.generate ⟨world, []⟩ = (outcome, ⟨last, received⟩)

/-- The world is as the source leaves it when the first file is handed over. -/
theorem prepared_world (g : Generator (StateM σ)) (world : σ) :
    (g.prepared world).2 = (g.load world).2 :=
  rfl

theorem prepared_recorded (g : Generator (StateM σ)) (world : σ) (earlier : List Artifact) :
    g.recorded.prepared ⟨world, earlier⟩ =
      ((g.prepared world).1, ⟨(g.prepared world).2, earlier⟩) :=
  rfl

theorem generate_of_prepared_error (h : g.prepared world = (.error e, next)) :
    g.generate world = (.error e, next) := by
  simp only [generate, bind, StateT.bind, h]
  rfl

/-- What a prepared run comes to is settled by how handing over its files ends. -/
theorem generate_of_prepared_ok {p : Prepared} {outcome : Except EmitError Unit}
    (h : g.prepared world = (.ok p, next)) (handed : g.writeAll p.files next = (outcome, last)) :
    g.generate world = ((atStage .emit outcome).map fun _ =>
      Report.ofRun p.operations p.surface p.files false, last) := by
  simp only [generate, bind, StateT.bind, h, handed]
  cases outcome with
  | error cause => rfl
  | ok => rfl

theorem runs_of_prepared_error (h : (g.prepared world).1 = .error e) :
    g.Runs world (.error e) [] (g.load world).2 := by
  have own : g.prepared world = (.error e, (g.load world).2) :=
    Prod.ext h (prepared_world g world)
  refine ⟨generate_of_prepared_error own, generate_of_prepared_error ?_⟩
  rw [prepared_recorded, own]

theorem exists_runs_of_prepared_ok {p : Prepared} (h : (g.prepared world).1 = .ok p) :
    ∃ outcome received last, HandsOver g.write (g.load world).2 p.files outcome received last ∧
      g.Runs world ((atStage .emit outcome).map fun _ =>
        Report.ofRun p.operations p.surface p.files false) received last := by
  have own : g.prepared world = (.ok p, (g.load world).2) := Prod.ext h (prepared_world g world)
  have onRecord : g.recorded.prepared ⟨world, []⟩ = (.ok p, ⟨(g.load world).2, []⟩) := by
    rw [prepared_recorded, own]
  obtain ⟨outcome, received, last, handed, writes, record⟩ :=
    g.exists_handsOver p.files (g.load world).2 []
  refine ⟨outcome, received, last, handed, ?_, ?_⟩
  · exact generate_of_prepared_ok own writes
  · exact generate_of_prepared_ok onRecord record

/-- **What a run writes.** A run that is stopped before its first write ends with an error of the
stage that stops it, and its sink receives nothing. If several operations fail, that is the error of
any of them, and of the first if they are rendered one after the other. Every other run hands over
the planned files in their order: all of them if none is refused, and then it ends with a report on
exactly these files, which is that of a dry run but for the mark of one; or all up to the first that
is refused, and then it ends with the error of that write. -/
theorem generate_writes (g : Generator (StateM σ)) (world : σ) :
    ((∃ e, g.StopsWith world e) →
      ∃ e, g.StopsWith world e ∧ g.Runs world (.error e) [] (g.load world).2) ∧
    (∀ e, g.StopsWith world e →
      (∃ race, (g.withRace race).Runs world (.error e) [] (g.load world).2) ∧
      (g.config.parallel = false → g.Runs world (.error e) [] (g.load world).2)) ∧
    ((∀ e, ¬g.StopsWith world e) → ∃ ops surface files report,
      (g.operations world).1 = .ok ops ∧ Surface.build g.rules ops g.choice = .ok surface ∧
      (g.plan world).1 = .ok files ∧ report.Describes ops surface files ∧
      report.dryRun = false ∧ (g.dryRun world).1 = .ok { report with dryRun := true } ∧
      ((∃ last, Takes g.write (g.load world).2 files last ∧
          g.Runs world (.ok report) files last) ∨
        ∃ before a after cause next last, files = before ++ a :: after ∧
          Takes g.write (g.load world).2 before next ∧ g.write a next = (.error cause, last) ∧
          g.Runs world (.error (.emit cause)) (before ++ [a]) last)) := by
  refine ⟨?_, ?_, ?_⟩
  · rintro ⟨_, stops⟩
    obtain ⟨e, prepared⟩ := exists_prepared_error_of_stopsWith stops
    exact ⟨e, stopsWith_of_prepared_error prepared, runs_of_prepared_error prepared⟩
  · intro e stops
    refine ⟨⟨.prefer e, runs_of_prepared_error (prepared_prefer_of_stopsWith stops)⟩, ?_⟩
    intro order
    exact runs_of_prepared_error (prepared_of_sequential order stops)
  · intro goesOn
    obtain ⟨p, prepared⟩ : ∃ p, (g.prepared world).1 = .ok p := by
      cases h : (g.prepared world).1 with
      | ok p => exact ⟨p, rfl⟩
      | error e => exact absurd (stopsWith_of_prepared_error h) (goesOn e)
    obtain ⟨read, built, _⟩ := prepared_eq_ok_iff.1 prepared
    have planned : (g.plan world).1 = .ok p.files := map_eq_ok_iff.2 ⟨p, prepared, rfl⟩
    have dry : (g.dryRun world).1 = .ok (Report.ofRun p.operations p.surface p.files true) :=
      map_eq_ok_iff.2 ⟨p, prepared, rfl⟩
    refine ⟨p.operations, p.surface, p.files, Report.ofRun p.operations p.surface p.files false,
      read, built, planned, Report.describes_ofRun _ _ _ _, rfl, dry, ?_⟩
    obtain ⟨outcome, received, last, handed, runs⟩ := exists_runs_of_prepared_ok prepared
    generalize p.files = files at handed runs
    cases handed with
    | all taken => exact .inl ⟨last, taken, runs⟩
    | @upTo before after a cause next _ taken refused =>
      exact .inr ⟨before, a, after, cause, next, last, rfl, taken, refused, runs⟩

/-- A sink that refuses every file receives the library of a catalog and no more of its four files,
and the run ends with the error of that write. A catalog of two operations that both fail ends a run
with the error of either, and with that of the first if they are rendered one after the other. -/
theorem generate_writes_refused_or_stopped :
    (let g : Generator (StateM Unit) :=
      { config := {}
        extract := Catalog.extract
        load := fun _ => (.ok "func Not(x []byte) {}\n", ())
        write := fun a _ => (.error (.write a.path .isDirectory), ()) }
    ∃ files library, (g.plan ()).1 = .ok files ∧ files.length = 4 ∧ files.head? = some library ∧
      library.kind = .library ∧
      g.Runs () (.error (.emit (.write library.path .isDirectory))) [library] ()) ∧
    let g (parallel : Bool) : Generator (StateM Unit) :=
      { config := { parallel }
        extract := Catalog.extract
        load := fun _ => (.ok ("// Plaintext output\nfunc Add(a, b []byte) {}\n" ++
          "// Plaintext output\nfunc Sub(a, b []byte) {}\n"), ())
        write := fun _ _ => (.ok (), ()) }
    (∃ race, ((g true).withRace race).Runs () (.error (.expansion (.plainReturnArity "add" 2))) []
      ()) ∧
    (∃ race, ((g true).withRace race).Runs () (.error (.expansion (.plainReturnArity "sub" 2))) []
      ()) ∧
    (g false).Runs () (.error (.expansion (.plainReturnArity "add" 2))) [] () := by
  constructor
  · intro g
    let ops : List Operation := [{ name := "not", inputs := [.encrypted] }]
    have read : (g.operations ()).1 = .ok ops :=
      operations_eq_ok_iff.2 ⟨_, rfl, Catalog.extract_not⟩
    obtain ⟨surface, built, four⟩ : ∃ surface, Surface.build g.rules ops = .ok surface ∧
        (Artifact.assemble g.config surface).length = 4 :=
      ⟨_, Surface.build_eq_ok_iff.2 ⟨rfl, by decide +kernel⟩, by decide +kernel⟩
    have prepared : (g.prepared ()).1 = .ok ⟨ops, surface, Artifact.assemble g.config surface⟩ :=
      prepared_eq_ok_iff.2 ⟨read, (Surface.build_eq_ok_congr _).1 built, rfl⟩
    have goesOn : ∀ e, ¬g.StopsWith () e := by
      intro e stops
      obtain ⟨_, fails⟩ := exists_prepared_error_of_stopsWith stops
      rw [prepared] at fails
      cases fails
    obtain ⟨_, _, files, _, _, _, planned, _, _, _, ends⟩ := (generate_writes g ()).2.2 goesOn
    have same : files = Artifact.assemble g.config surface := by
      have own : (g.plan ()).1 = .ok (Artifact.assemble g.config surface) :=
        map_eq_ok_iff.2 ⟨_, prepared, rfl⟩
      exact Except.ok.inj (planned.symm.trans own)
    refine ⟨files, Artifact.library g.config surface, planned, same ▸ four, same ▸ rfl, rfl, ?_⟩
    rcases ends with ⟨_, taken, _⟩ | ⟨before, a, after, cause, _, _, split, taken, refused, runs⟩
    · rw [same] at taken
      cases taken with
      | cons written => cases written
    · cases taken with
      | cons written => cases written
      | nil =>
        rw [same] at split
        cases (List.cons.inj split).1
        cases refused
        exact runs
  · intro g
    let add : Operation := { name := "add", inputs := [.encrypted, .encrypted], returns := .plain }
    let sub : Operation := { name := "sub", inputs := [.encrypted, .encrypted], returns := .plain }
    have extracted : Catalog.extract ("// Plaintext output\nfunc Add(a, b []byte) {}\n" ++
        "// Plaintext output\nfunc Sub(a, b []byte) {}\n") = .ok [add, sub] := by
      decide +kernel
    have read (parallel : Bool) : ((g parallel).operations ()).1 = .ok ([] ++ add :: [sub]) :=
      operations_eq_ok_iff.2 ⟨_, rfl, extracted⟩
    have first (parallel : Bool) :
        (g parallel).StopsWith () (.expansion (.plainReturnArity "add" 2)) :=
      .expand (read parallel) (fun _ => List.forall_mem_nil _) rfl
    have read' : ((g true).operations ()).1 = .ok ([add] ++ sub :: []) := read true
    have second : (g true).StopsWith () (.expansion (.plainReturnArity "sub" 2)) :=
      .expand read' nofun rfl
    have either := (generate_writes (g true) ()).2.1
    have sequential := (generate_writes (g false) ()).2.1
    exact ⟨(either _ (first true)).1, (either _ second).1, (sequential _ (first false)).2 rfl⟩

end Generator

end FheSolidity
