import FheSolidity.Abi
import FheSolidity.Benchmark

/-!
# Artifacts

An artifact is a file ready to be written. `Artifact.assemble` turns a surface into all of them:
the library, the test contracts, the benchmark contracts and the TypeScript declarations. An
operation without functions has no test contract.
-/

namespace FheSolidity

/-- What a file is. -/
inductive ArtifactKind where
  | library
  | testContract
  | benchmark
  | abiDeclarations
  deriving DecidableEq

/-- The name of a kind of file in reports. -/
def ArtifactKind.name : ArtifactKind → String
  | .library => "Library"
  | .testContract => "TestContract"
  | .benchmark => "Benchmark"
  | .abiDeclarations => "AbiDeclarations"

/-- A file ready to be written. -/
structure Artifact where
  kind : ArtifactKind
  /-- The place of the file as seen from the output directory. -/
  path : Path
  contents : String
  deriving DecidableEq

namespace Artifact

/-- The size in bytes. -/
def size (a : Artifact) : Nat :=
  a.contents.utf8ByteSize

/-- The path of a contract in a directory. -/
def contractPath (dir contract : String) : Path :=
  Path.join ⟨dir⟩ ⟨contract ++ ".sol"⟩

/-- The library of a surface. -/
def library (c : Config) (surface : Surface) : Artifact where
  kind := .library
  path := ⟨c.libraryFile⟩
  contents := (Library.File.ofSurface c surface).render

/-- The test contracts of a surface. -/
def testContracts (surface : Surface) : List TestContract :=
  (surface.operations.filter (!·.functions.isEmpty)).map TestContract.ofOperation

/-- The file of a test contract. -/
def ofTestContract (c : Config) (t : TestContract) : Artifact where
  kind := .testContract
  path := contractPath c.testsDir t.name
  contents := t.render c

/-- The benchmark contracts of a surface that a configuration asks for. -/
def benchmarks (c : Config) (surface : Surface) : List Benchmark :=
  (surface.operations.filter (c.benchmarks ·.operation.name)).filterMap Benchmark.ofOperation?

/-- The file of a benchmark contract. -/
def ofBenchmark (c : Config) (b : Benchmark) : Artifact where
  kind := .benchmark
  path := contractPath c.benchDir b.name
  contents := b.render c

/-- The TypeScript declarations of a surface. -/
def abi (c : Config) (surface : Surface) : Artifact where
  kind := .abiDeclarations
  path := ⟨c.abiFile⟩
  contents := Abi.render (testContracts surface)

/-- Every file of a surface, in the order in which they are written. -/
def assemble (c : Config) (surface : Surface) : List Artifact :=
  [library c surface]
    ++ (testContracts surface).map (ofTestContract c)
    ++ (benchmarks c surface).map (ofBenchmark c)
    ++ [abi c surface]

end Artifact

end FheSolidity
