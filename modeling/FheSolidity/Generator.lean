import FheSolidity.Catalog.Extract
import FheSolidity.Expansion.Casts
import FheSolidity.Report

/-!
# The generator

A run loads the catalog, reads its operations, expands and renders them together with the
conversions, refuses a surface on which two functions are one Solidity overload, and hands the
files of the surface to a sink one by one. Everything before the first write only computes, so a
run that fails there has written nothing. The effects of loading and writing happen in a monad.
Where several operations fail, an `ErrorChoice` says whose error ends the run.
-/

namespace FheSolidity

/-- Lifts the error of a stage. -/
def atStage {ε α : Type} (stage : ε → GeneratorError) : Except ε α → Except GeneratorError α
  | .ok a => .ok a
  | .error e => .error (stage e)

/-- Which error is reported when several operations fail. Operations that are rendered at the same
time fail in no fixed order, so a choice may be any, as long as it is the error of one of them. -/
structure ErrorChoice where
  /-- The choice from the errors of the operations that fail, the first of which is apart. -/
  pick : GeneratorError → List GeneratorError → GeneratorError
  pick_mem (e : GeneratorError) (others : List GeneratorError) : pick e others ∈ e :: others

/-- The first error counts, as it does when the operations are rendered one after the other. -/
def ErrorChoice.first : ErrorChoice where
  pick e _ := e
  pick_mem _ _ := List.mem_cons_self

/-- A generator with its source and its sink. -/
structure Generator (m : Type → Type) where
  config : Config
  /-- Reads the operations of a catalog. -/
  extract : String → Except CatalogError (List Operation)
  /-- Loads the text of the catalog. -/
  load : m (Except CatalogError String)
  /-- Hands one file to the sink. -/
  write : Artifact → m (Except EmitError Unit)
  /-- Which error counts where operations are rendered at the same time. -/
  race : ErrorChoice := .first

namespace Generator

variable {m : Type → Type} [Monad m]

/-- A generator for catalogs in Go source. An unusable configuration is refused. -/
def ofConfig (config : Config) (load : m (Except CatalogError String))
    (write : Artifact → m (Except EmitError Unit)) (race : ErrorChoice := .first) :
    Except GeneratorError (Generator m) := do
  atStage .config config.validate
  return { config, extract := Catalog.extract, load, write, race }

/-- The generator with another reader of catalogs. -/
def withExtractor (g : Generator m) (extract : String → Except CatalogError (List Operation)) :
    Generator m :=
  { g with extract }

/-- The rules of a run. -/
def rules (g : Generator m) : Rules :=
  g.config.rules

/-- Which error counts in a run. Only a configuration that allows any order leaves that open. -/
def choice (g : Generator m) : ErrorChoice :=
  if g.config.parallel then g.race else .first

end Generator

/-- An operation with all its functions. -/
def Operation.render (r : Rules) (op : Operation) : Except GeneratorError RenderedOperation := do
  let sigs ← atStage .expansion (op.expand r)
  return { operation := op, functions := ← atStage .template (Signature.renderAll sigs) }

/-- The errors of the operations that fail, in the order of the operations. -/
def Operation.failures (r : Rules) (ops : List Operation) : List GeneratorError :=
  ops.filterMap fun op =>
    match op.render r with
    | .ok _ => none
    | .error e => some e

/-- The operations with all their functions. Where some of them fail, one of their errors is
chosen. -/
def Operation.renderEach (r : Rules) (ops : List Operation) (choice : ErrorChoice) :
    Except GeneratorError (List RenderedOperation) :=
  (ops.mapM (Operation.render r)).mapError fun first =>
    choice.pick first (Operation.failures r ops).tail

/-- The functions of all operations and conversions, before any of them are compared. -/
def Surface.ofOperations (r : Rules) (ops : List Operation) (choice : ErrorChoice := .first) :
    Except GeneratorError Surface := do
  let operations ← Operation.renderEach r ops choice
  return { operations, casts := ← atStage .template (Signature.renderAll r.casts) }

/-- Fails for a surface on which an overload occurs twice. -/
def Surface.checkOverloads (s : Surface) : Except GeneratorError Unit :=
  match repeatedOverloads s.signatures with
  | [] => .ok ()
  | k :: _ => .error (.duplicateSignature k.symbol k.inputs)

/-- The surface of some operations. -/
def Surface.build (r : Rules) (ops : List Operation) (choice : ErrorChoice := .first) :
    Except GeneratorError Surface := do
  let s ← Surface.ofOperations r ops choice
  s.checkOverloads
  return s

/-- The report on a surface and its files. -/
def Report.ofRun (operations : List Operation) (s : Surface) (files : List Artifact)
    (dryRun : Bool) : Report where
  operations := operations.length
  functions := s.functions.length
  files := files.map WrittenFile.ofArtifact
  dryRun := dryRun

/-- What a run has computed before it writes. -/
structure Prepared where
  operations : List Operation
  surface : Surface
  files : List Artifact

namespace Generator

variable {m : Type → Type} [Monad m]

/-- Everything that a run computes from the text of the catalog. -/
def prepare (config : Config) (extract : String → Except CatalogError (List Operation))
    (choice : ErrorChoice) (text : String) : Except GeneratorError Prepared := do
  let operations ← atStage .catalog (extract text)
  let surface ← Surface.build config.rules operations choice
  return { operations, surface, files := Artifact.assemble config surface }

/-- The operations of the catalog. -/
def operations (g : Generator m) : m (Except GeneratorError (List Operation)) := do
  return atStage .catalog ((← g.load).bind g.extract)

/-- Everything that a run computes. -/
def prepared (g : Generator m) : m (Except GeneratorError Prepared) := do
  return (atStage .catalog (← g.load)).bind (prepare g.config g.extract g.choice)

/-- The files of a run, none of them written. -/
def plan (g : Generator m) : m (Except GeneratorError (List Artifact)) := do
  return (← g.prepared).map Prepared.files

/-- The report of a run that writes nothing. -/
def dryRun (g : Generator m) : m (Except GeneratorError Report) := do
  return (← g.prepared).map fun p => Report.ofRun p.operations p.surface p.files true

/-- Hands files to the sink up to the first that fails. -/
def writeAll (g : Generator m) : List Artifact → m (Except EmitError Unit)
  | [] => return .ok ()
  | a :: rest => do
    match ← g.write a with
    | .error e => return .error e
    | .ok () => g.writeAll rest

/-- A whole run. -/
def generate (g : Generator m) : m (Except GeneratorError Report) := do
  match ← g.prepared with
  | .error e => return .error e
  | .ok p =>
    match ← g.writeAll p.files with
    | .error e => return .error (.emit e)
    | .ok () => return .ok (Report.ofRun p.operations p.surface p.files false)

end Generator

namespace Disk

variable {m : Type → Type} [Monad m]

/-- Loads the text of a catalog from a file. -/
def loadCatalog (disk : Disk m) (p : Path) : m (Except CatalogError String) := do
  match ← disk.readText p with
  | .ok text => return .ok text
  | .error cause => return .error (.unreadable p cause)

/-- Makes the directories that lead to a file. -/
def makeParents (disk : Disk m) (p : Path) : m (Except EmitError Unit) := do
  match p.parent? with
  | none => return .ok ()
  | some parent =>
    match ← disk.makeDirs parent with
    | .ok () => return .ok ()
    | .error cause => return .error (.createDir parent cause)

/-- Writes a file below a root directory, with the directories that lead to it. -/
def emit (disk : Disk m) (root : Path) (a : Artifact) : m (Except EmitError Unit) := do
  let p := root.join a.path
  match ← disk.makeParents p with
  | .error e => return .error e
  | .ok () =>
    match ← disk.writeText p a.contents with
    | .ok () => return .ok ()
    | .error cause => return .error (.write p cause)

end Disk

end FheSolidity
