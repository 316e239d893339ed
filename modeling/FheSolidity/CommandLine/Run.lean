import FheSolidity.CommandLine.Failure
import FheSolidity.CommandLine.Options
import FheSolidity.ConfigFile
import FheSolidity.Generator

/-!
# Commands

A command reads its options, settles the configuration and runs the generator on a disk. The
configuration is layered: the defaults, the configuration file, the environment, the options. The
outcome is an exit status with what goes to the two output streams.
-/

namespace FheSolidity.CommandLine

/-- The version of the program. -/
def programVersion : String := "0.1.0"

/-- What a command leaves besides files. -/
structure Outcome where
  status : Nat
  output : String
  complaint : String
  deriving DecidableEq

namespace Outcome

/-- A command that succeeded. -/
def success (output : String) : Outcome :=
  ⟨0, output, ""⟩

/-- A command whose run failed. -/
def failure (causes : List String) : Outcome :=
  ⟨1, "", failureText causes⟩

/-- A command line that was not understood. -/
def misuse (e : UsageError) : Outcome :=
  ⟨2, "", "error: " ++ e.message ++ "\n"⟩

end Outcome

/-- How the command is used. -/
def helpText : String :=
  "Generate the FHE Solidity library and its test surface from the operation catalog

Usage: fhegen [OPTIONS]

Options:
  -c, --catalog <CATALOG>  Annotated Go catalog (overrides config and FHEGEN_CATALOG)
  -o, --out <OUT>          Output directory (overrides config and FHEGEN_OUT_DIR)
      --config <CONFIG>    JSON configuration file
      --bench <BENCH>      Only benchmark these operations (comma-separated)
      --no-typed-seal      Skip the typed seal overloads
      --sequential         Render operations on the current thread
      --dry-run            Run the pipeline without writing files
      --json               Print the report as JSON
  -v, --verbose...         Increase log verbosity (-v debug, -vv trace)
  -h, --help               Print help
  -V, --version            Print version
"

/-- The outcome of a command line that asks for no run. -/
def Stop.outcome : Stop → Outcome
  | .version => .success ("fhegen " ++ programVersion ++ "\n")
  | .help => .success helpText
  | .misuse e => .misuse e

/-- The report in the form that the options ask for. -/
def Options.present (o : Options) (r : Report) : String :=
  if o.json then r.jsonText else r.plainText

variable {m : Type → Type} [Monad m]

/-- The settings of the configuration file, none without a file, or the causes of its failure. -/
def fileSettings (disk : Disk m) (file : Option Path) : m (Except (List String) (List Setting)) :=
  match file with
  | none => return .ok []
  | some p => do
    match ← ConfigFile.load disk p with
    | .ok settings => return .ok settings
    | .error e =>
      return .error (("Failed to load config " ++ p.spelling) :: (GeneratorError.config e).causes)

/-- The configuration that a run with these options has. -/
def Options.layered (o : Options) (file environment : List Setting) : Config :=
  ({} : Config).apply (file ++ environment ++ o.settings)

/-- Runs the generator, or returns the causes of its failure. -/
def generate (race : ErrorChoice) (disk : Disk m) (o : Options) (c : Config) :
    m (Except (List String) Report) := do
  match Generator.ofConfig c (disk.loadCatalog c.catalogPath) (disk.emit c.outputDir) race with
  | .error e => return .error ("Invalid configuration" :: e.causes)
  | .ok g =>
    let report ← if o.dryRun then g.dryRun else g.generate
    return report.mapError GeneratorError.causes

/-- Runs what the options ask for. -/
def runOptions (race : ErrorChoice) (disk : Disk m) (lookup : String → Option String)
    (o : Options) : m Outcome := do
  match ← fileSettings disk o.config with
  | .error causes => return .failure causes
  | .ok settings =>
    match ← generate race disk o (o.layered settings (Config.environmentSettings lookup)) with
    | .error causes => return .failure causes
    | .ok report => return .success (o.present report)

/-- Runs a command, with a choice among the errors of operations that are rendered at the same
time. -/
def runWith (race : ErrorChoice) (disk : Disk m) (lookup : String → Option String)
    (words : List String) : m Outcome :=
  match Options.read words with
  | .error stop => return stop.outcome
  | .ok o => runOptions race disk lookup o

/-- Runs a command in which the operations are rendered one after the other. -/
def run (disk : Disk m) (lookup : String → Option String) (words : List String) : m Outcome :=
  runWith .first disk lookup words

end FheSolidity.CommandLine
