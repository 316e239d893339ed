import FheSolidity.Error
import FheSolidity.Rules
import FheSolidity.Text.Trim

/-!
# Configuration

A configuration starts from its defaults and is changed by settings, each of which gives one field
a value. Files, the environment and command-line flags are all lists of settings, so a later layer
overrides exactly the fields it sets. `validate` refuses values that no run could use.
-/

namespace FheSolidity

/-- The configuration of a run. -/
structure Config where
  /-- The source text that holds the catalog of operations. -/
  catalogPath : Path := ⟨"catalog/fheops.go"⟩
  /-- The directory that everything is written under. -/
  outputDir : Path := ⟨"solidity"⟩
  /-- The file name of the library. -/
  libraryFile : String := "FHE.sol"
  /-- The directory of the test contracts, below the output directory. -/
  testsDir : String := "tests"
  /-- The directory of the benchmark contracts, below the output directory. -/
  benchDir : String := "benchmarks"
  /-- The file name of the TypeScript declarations. -/
  abiFile : String := "abis.ts"
  /-- The licence identifier of generated files. -/
  license : String := "MIT"
  /-- The compiler versions that generated files ask for. -/
  pragma : String := ">=0.8.19 <0.9.0"
  /-- The file that the library imports the dispatcher from. -/
  precompileImport : String := "./FheOS.sol"
  /-- The operations that get a benchmark contract; every one that can have one, if not given. -/
  benchOperations : Option (List String) := none
  /-- Whether sealing is also offered with a tagged result. -/
  typedSeal : Bool := true
  /-- Whether operations may be rendered in any order. What is written does not depend on it, but if
  several operations fail, the error of any of them may end the run. -/
  parallel : Bool := true
  deriving DecidableEq

/-- The fields of a configuration, in the order of their declarations. -/
inductive Field where
  | catalogPath
  | outputDir
  | libraryFile
  | testsDir
  | benchDir
  | abiFile
  | license
  | pragma
  | precompileImport
  | benchOperations
  | typedSeal
  | parallel
  deriving DecidableEq

namespace Field

/-- Every field, in the order of their declarations. -/
def all : List Field :=
  [.catalogPath, .outputDir, .libraryFile, .testsDir, .benchDir, .abiFile, .license, .pragma,
    .precompileImport, .benchOperations, .typedSeal, .parallel]

/-- The name of a field in configuration files and messages. -/
def name : Field → String
  | .catalogPath => "catalog_path"
  | .outputDir => "output_dir"
  | .libraryFile => "library_file"
  | .testsDir => "tests_dir"
  | .benchDir => "bench_dir"
  | .abiFile => "abi_file"
  | .license => "license"
  | .pragma => "pragma"
  | .precompileImport => "precompile_import"
  | .benchOperations => "bench_operations"
  | .typedSeal => "typed_seal"
  | .parallel => "parallel"

/-- The field of a given name. -/
def ofName? (n : String) : Option Field :=
  all.find? (·.name == n)

theorem mem_all (f : Field) : f ∈ all := by
  cases f <;> decide

theorem ofName?_name (f : Field) : ofName? f.name = some f := by
  cases f <;> decide

end Field

/-- A value for one field. -/
inductive Setting where
  | catalogPath (p : Path)
  | outputDir (p : Path)
  | libraryFile (s : String)
  | testsDir (s : String)
  | benchDir (s : String)
  | abiFile (s : String)
  | license (s : String)
  | pragma (s : String)
  | precompileImport (s : String)
  | benchOperations (operations : Option (List String))
  | typedSeal (b : Bool)
  | parallel (b : Bool)
  deriving DecidableEq

/-- The field that a setting gives a value. -/
def Setting.field : Setting → Field
  | .catalogPath _ => .catalogPath
  | .outputDir _ => .outputDir
  | .libraryFile _ => .libraryFile
  | .testsDir _ => .testsDir
  | .benchDir _ => .benchDir
  | .abiFile _ => .abiFile
  | .license _ => .license
  | .pragma _ => .pragma
  | .precompileImport _ => .precompileImport
  | .benchOperations _ => .benchOperations
  | .typedSeal _ => .typedSeal
  | .parallel _ => .parallel

namespace Config

/-- The setting that a configuration holds for a field. -/
def get (c : Config) : Field → Setting
  | .catalogPath => .catalogPath c.catalogPath
  | .outputDir => .outputDir c.outputDir
  | .libraryFile => .libraryFile c.libraryFile
  | .testsDir => .testsDir c.testsDir
  | .benchDir => .benchDir c.benchDir
  | .abiFile => .abiFile c.abiFile
  | .license => .license c.license
  | .pragma => .pragma c.pragma
  | .precompileImport => .precompileImport c.precompileImport
  | .benchOperations => .benchOperations c.benchOperations
  | .typedSeal => .typedSeal c.typedSeal
  | .parallel => .parallel c.parallel

/-- The configuration with one field changed. -/
def set (c : Config) : Setting → Config
  | .catalogPath p => { c with catalogPath := p }
  | .outputDir p => { c with outputDir := p }
  | .libraryFile s => { c with libraryFile := s }
  | .testsDir s => { c with testsDir := s }
  | .benchDir s => { c with benchDir := s }
  | .abiFile s => { c with abiFile := s }
  | .license s => { c with license := s }
  | .pragma s => { c with pragma := s }
  | .precompileImport s => { c with precompileImport := s }
  | .benchOperations operations => { c with benchOperations := operations }
  | .typedSeal b => { c with typedSeal := b }
  | .parallel b => { c with parallel := b }

/-- The configuration after several settings, the last of each field counting. -/
def apply (c : Config) (settings : List Setting) : Config :=
  settings.foldl set c

/-- The environment variable that gives the catalog. -/
def catalogVariable : String := "FHEGEN_CATALOG"

/-- The environment variable that gives the output directory. -/
def outputVariable : String := "FHEGEN_OUT_DIR"

/-- The setting that a variable gives, unless it is absent or empty. -/
def variableSetting (value : Option String) (setting : Path → Setting) : List Setting :=
  match value with
  | none | some "" => []
  | some path => [setting ⟨path⟩]

/-- The settings of the environment. -/
def environmentSettings (lookup : String → Option String) : List Setting :=
  variableSetting (lookup catalogVariable) .catalogPath
    ++ variableSetting (lookup outputVariable) .outputDir

/-- Fails for a value that is no plain file name. -/
def checkFileName (field : Field) (value : String) : Except ConfigError Unit :=
  if value = "" then .error (.invalid (.empty field.name))
  else if value.toList.any (fun c => c == '/' || c == '\\') then
    .error (.invalid (.notFileName field.name value))
  else .ok ()

/-- Fails for an empty value. -/
def checkNotEmpty (field : Field) (value : String) : Except ConfigError Unit :=
  if value = "" then .error (.invalid (.empty field.name)) else .ok ()

/-- Fails for a configuration that no run could use. The first faulty field counts. -/
def validate (c : Config) : Except ConfigError Unit := do
  checkFileName .libraryFile c.libraryFile
  checkFileName .abiFile c.abiFile
  checkNotEmpty .testsDir c.testsDir
  checkNotEmpty .benchDir c.benchDir
  if Text.isBlankText c.pragma.toList then throw (.invalid (.empty Field.pragma.name))

/-- The rules of a run with this configuration. -/
def rules (c : Config) : Rules :=
  Rules.standard.withTypedSeal c.typedSeal

/-- Whether an operation gets a benchmark contract. -/
def benchmarks (c : Config) (operation : String) : Bool :=
  match c.benchOperations with
  | none => true
  | some operations => operations.contains operation

theorem get_set (c : Config) (s : Setting) : (c.set s).get s.field = s := by
  cases s <;> rfl

theorem get_set_of_ne {c : Config} {s : Setting} {f : Field} (h : s.field ≠ f) :
    (c.set s).get f = c.get f := by
  cases s <;> cases f <;> simp_all [set, get, Setting.field]

theorem apply_append (c : Config) (s t : List Setting) :
    c.apply (s ++ t) = (c.apply s).apply t := by
  simp [apply]

end Config

end FheSolidity
