import Mathlib.Data.List.Induction
import FheSolidity.CommandLine.Run

/-!
# Layers of a configuration

A layer gives values to some fields of a configuration. The defaults, the configuration file, the
environment and the options of a command lie over each other, so each field has the value of the
topmost layer that gives it one. `run_resolves` says so of the configuration that a command runs
with, for every file that holds an object of settings.
-/

namespace FheSolidity

/-- What a layer gives each field, if anything. -/
abbrev Layer := Field → Option Setting

namespace Layer

/-- One layer over another: the lower one counts for the fields that the upper one leaves open. -/
def above (upper lower : Layer) : Layer :=
  fun f => (upper f).or (lower f)

/-- The layer of some settings. The last of each field counts. -/
def ofSettings (settings : List Setting) : Layer :=
  fun f => settings.reverse.find? (·.field = f)

/-- The layer of the environment. An empty variable is as good as none. -/
def ofEnvironment (lookup : String → Option String) : Layer
  | .catalogPath => ((lookup "FHEGEN_CATALOG").filter (· ≠ "")).map fun s => .catalogPath ⟨s⟩
  | .outputDir => ((lookup "FHEGEN_OUT_DIR").filter (· ≠ "")).map fun s => .outputDir ⟨s⟩
  | _ => none

/-- The layer of the options of a command. Its two switches can only turn their fields off. -/
def ofOptions (o : CommandLine.Options) : Layer
  | .catalogPath => o.catalog.map .catalogPath
  | .outputDir => o.out.map .outputDir
  | .benchOperations => o.bench.map fun operations => .benchOperations (some operations)
  | .typedSeal => if o.noTypedSeal then some (.typedSeal false) else none
  | .parallel => if o.sequential then some (.parallel false) else none
  | _ => none

/-! ### Layers of lists of settings -/

theorem ofSettings_append (settings more : List Setting) (f : Field) :
    ofSettings (settings ++ more) f = (ofSettings more f).or (ofSettings settings f) := by
  rw [ofSettings, ofSettings, ofSettings, List.reverse_append, List.find?_append]

theorem ofSettings_singleton (s : Setting) (f : Field) :
    ofSettings [s] f = if s.field = f then some s else none := by
  rw [ofSettings, List.reverse_singleton, List.find?_singleton]
  simp only [decide_eq_true_eq]

/-- A value that may be missing gives its own field a value, and no other. -/
theorem ofSettings_map_toList {α : Type} {setting : α → Setting} {own : Field}
    (sets : ∀ a, (setting a).field = own) (value : Option α) (f : Field) :
    ofSettings (value.map setting).toList f = if own = f then value.map setting else none := by
  cases value with
  | none => simp [ofSettings]
  | some a =>
    rw [Option.map_some, Option.toList_some, ofSettings_singleton, sets]

theorem ofSettings_ite (given : Bool) (s : Setting) (f : Field) :
    ofSettings (if given then [s] else []) f =
      if s.field = f then if given then some s else none else none := by
  cases given with
  | false => simp [ofSettings]
  | true => exact ofSettings_singleton s f

theorem variableSetting_eq (value : Option String) (setting : Path → Setting) :
    Config.variableSetting value setting =
      ((value.filter (· ≠ "")).map fun s => setting ⟨s⟩).toList := by
  unfold Config.variableSetting
  split
  · rfl
  · rfl
  · next s nonempty =>
    have kept : (some s).filter (· ≠ "") = some s := by
      simp only [Option.filter_some, decide_eq_true_eq]
      exact if_pos nonempty
    rw [kept]
    rfl

theorem ofSettings_environmentSettings (lookup : String → Option String) (f : Field) :
    ofSettings (Config.environmentSettings lookup) f = ofEnvironment lookup f := by
  have catalog (s : String) : (Setting.catalogPath ⟨s⟩).field = .catalogPath := rfl
  have out (s : String) : (Setting.outputDir ⟨s⟩).field = .outputDir := rfl
  rw [Config.environmentSettings, variableSetting_eq, variableSetting_eq, ofSettings_append,
    ofSettings_map_toList catalog, ofSettings_map_toList out]
  cases f <;> simp [ofEnvironment, Config.catalogVariable, Config.outputVariable]

theorem ofSettings_options (o : CommandLine.Options) (f : Field) :
    ofSettings o.settings f = ofOptions o f := by
  have catalog (p : Path) : (Setting.catalogPath p).field = .catalogPath := rfl
  have out (p : Path) : (Setting.outputDir p).field = .outputDir := rfl
  have bench (operations : List String) :
      (Setting.benchOperations (some operations)).field = .benchOperations := rfl
  rw [CommandLine.Options.settings, ofSettings_append, ofSettings_append, ofSettings_append,
    ofSettings_append, ofSettings_map_toList catalog, ofSettings_map_toList out,
    ofSettings_map_toList bench, ofSettings_ite, ofSettings_ite]
  cases f <;> simp [ofOptions, Setting.field]

end Layer

/-- **Settings change what they set.** A field has the value of its last setting, and the one it had
before if there is none. -/
theorem Config.get_apply (c : Config) (settings : List Setting) (f : Field) :
    (c.apply settings).get f = (Layer.ofSettings settings f).getD (c.get f) := by
  induction settings using List.reverseRecOn with
  | nil => rfl
  | append_singleton settings s ih =>
    rw [apply_append, Layer.ofSettings_append, Layer.ofSettings_singleton]
    by_cases own : s.field = f
    · rw [if_pos own, ← own]
      exact get_set _ s
    · rw [if_neg own, Option.none_or, ← ih]
      exact get_set_of_ne own

/-! ### Configuration files -/

theorem Field.ofName?_eq_none_iff {n : String} : ofName? n = none ↔ ∀ f : Field, f.name ≠ n := by
  rw [ofName?, List.find?_eq_none]
  simp only [beq_iff_eq]
  exact ⟨fun none f => none f f.mem_all, fun none f _ => none f⟩

namespace ConfigFile

variable {members : List (List Json.TextUnit × Json.Value)} {settings : List Setting}

/-- The members of an object make some settings, in the order of the members. What stands under
another key than the name of a field plays no part. -/
inductive Makes : List (List Json.TextUnit × Json.Value) → List Setting → Prop where
  | nil : Makes [] []
  | field {key : List Json.TextUnit} {v : Json.Value} {s : Setting}
      {members : List (List Json.TextUnit × Json.Value)} {settings : List Setting}
      (named : Json.decode? key = some s.field.name.toList) (value : setting? s.field v = some s)
      (rest : Makes members settings) : Makes ((key, v) :: members) (s :: settings)
  | other {key : List Json.TextUnit} {name : List Char} (v : Json.Value)
      {members : List (List Json.TextUnit × Json.Value)} {settings : List Setting}
      (named : Json.decode? key = some name) (unknown : ∀ f : Field, f.name ≠ String.ofList name)
      (rest : Makes members settings) : Makes ((key, v) :: members) settings

/-- An object that gives no field two values is read as what it says. -/
theorem ofMembers?_of_makes (made : Makes members settings) {seen : List Field}
    (once : (settings.map Setting.field).Nodup) (fresh : ∀ s ∈ settings, s.field ∉ seen) :
    ofMembers? seen members = some settings := by
  induction made generalizing seen with
  | nil => rfl
  | @field key v s members settings named value rest ih =>
    obtain ⟨new, once⟩ := List.nodup_cons.1 once
    have own : s.field ∉ seen := fresh s List.mem_cons_self
    have later : ∀ t ∈ settings, t.field ∉ s.field :: seen := by
      intro t ht
      rw [List.mem_cons, not_or]
      refine ⟨fun same => new ?_, fresh t (List.mem_cons_of_mem s ht)⟩
      exact same ▸ List.mem_map_of_mem ht
    simp [ofMembers?, named, Field.ofName?_name, own, value, ih once later]
  | @other key name v members settings named unknown rest ih =>
    simp [ofMembers?, named, Field.ofName?_eq_none_iff.2 unknown, ih once fresh]

end ConfigFile

namespace CommandLine

variable {σ : Type} {disk : Disk (StateM σ)} {world next : σ} {words : List String} {o : Options}
  {settings : List Setting}

/-- The settings that a command finds where it looks for its configuration file: none without a
file, and otherwise those of an object that gives values to some fields, each once. -/
inductive FindsSettings (disk : Disk (StateM σ)) (world : σ) :
    Option Path → List Setting → σ → Prop where
  | noFile : FindsSettings disk world none [] world
  | object {p : Path} {text : String} {next : σ}
      {members : List (List Json.TextUnit × Json.Value)} {settings : List Setting}
      (held : disk.readText p world = (.ok text, next))
      (json : Json.read? text = some (.object members))
      (made : ConfigFile.Makes members settings) (once : (settings.map Setting.field).Nodup) :
      FindsSettings disk world (some p) settings next

theorem fileSettings_of_findsSettings {file : Option Path}
    (finds : FindsSettings disk world file settings next) :
    fileSettings disk file world = (.ok settings, next) := by
  cases finds with
  | noFile => rfl
  | @object p text next members settings held json made once =>
    have read : ConfigFile.settings? text = some settings := by
      rw [ConfigFile.settings?, json]
      exact ConfigFile.ofMembers?_of_makes made once fun _ _ => List.not_mem_nil
    simp only [fileSettings, ConfigFile.load, bind, StateT.bind, held, read]
    rfl

/-- A command whose configuration is settled. -/
def runSettled (race : ErrorChoice) (disk : Disk (StateM σ)) (o : Options) (c : Config) :
    StateM σ Outcome := do
  match ← generate race disk o c with
  | .error causes => return .failure causes
  | .ok report => return .success (o.present report)

/-- **The topmost layer counts.** A command that finds settings in its configuration file, or looks
for none, runs with a configuration each field of which has the value of the first of these that
gives it one: the options, the environment, the file, the defaults. -/
theorem run_resolves (lookup : String → Option String) (asked : Options.read words = .ok o)
    (finds : FindsSettings disk world o.config settings next) :
    ∃ c : Config,
      (∀ race, runWith race disk lookup words world = runSettled race disk o c next) ∧
      ∀ f, c.get f = (((Layer.ofOptions o).above ((Layer.ofEnvironment lookup).above
        (Layer.ofSettings settings))) f).getD (({} : Config).get f) := by
  refine ⟨o.layered settings (Config.environmentSettings lookup), fun race => ?_, fun f => ?_⟩
  · have found := fileSettings_of_findsSettings finds
    simp only [runWith, asked, runOptions, bind, StateT.bind, found]
    rfl
  · rw [Options.layered, Config.get_apply, Layer.ofSettings_append, Layer.ofSettings_append,
      Layer.ofSettings_options, Layer.ofSettings_environmentSettings]
    rfl

/-- A command with all four layers. The empty variable leaves the output directory to the file, over
which the option stands, and the switch stands over the value of the file. -/
theorem run_resolves_four_layers : ∃ (disk : Disk (StateM Unit)) (o : Options) (c : Config),
    Options.read ["--config", "c.json", "-o", "b", "--no-typed-seal"] = .ok o ∧
    FindsSettings disk () o.config [.typedSeal true, .outputDir ⟨"a"⟩, .benchOperations none] () ∧
    run disk (fun n => if n = "FHEGEN_CATALOG" then some "ops.go" else some "")
      ["--config", "c.json", "-o", "b", "--no-typed-seal"] () = runSettled .first disk o c () ∧
    c.get .catalogPath = .catalogPath ⟨"ops.go"⟩ ∧ c.get .outputDir = .outputDir ⟨"b"⟩ ∧
    c.get .libraryFile = .libraryFile "FHE.sol" ∧
    c.get .benchOperations = .benchOperations none ∧ c.get .typedSeal = .typedSeal false := by
  obtain ⟨text, json⟩ : ∃ text, Json.read? text = some (.object
      [("x".toList.map .char, .array [.number]), ("typed_seal".toList.map .char, .bool true),
        ("output_dir".toList.map .char, .text [.char 'a']),
        ("bench_operations".toList.map .char, .null)]) :=
    ⟨"\x7b\"x\":[1],\"typed_seal\":true,\"output_dir\":\"a\",\"bench_operations\":null\x7d", rfl⟩
  let disk : Disk (StateM Unit) :=
    { readText := fun _ => pure (.ok text)
      writeText := fun _ _ => pure (.ok ())
      makeDir := fun _ => pure (.ok ())
      isDir := fun _ => pure false }
  let o : Options := { config := some ⟨"c.json"⟩, out := some ⟨"b"⟩, noTypedSeal := true }
  have asked : Options.read ["--config", "c.json", "-o", "b", "--no-typed-seal"] = .ok o := rfl
  have unknown (f : Field) : f.name ≠ String.ofList ['x'] := by cases f <;> decide
  have finds : FindsSettings disk () (some ⟨"c.json"⟩)
      [.typedSeal true, .outputDir ⟨"a"⟩, .benchOperations none] () := by
    refine .object rfl json (.other _ rfl unknown ?_) (by decide)
    exact .field rfl rfl (.field rfl rfl (.field rfl rfl .nil))
  obtain ⟨c, ran, resolved⟩ := run_resolves
    (fun n => if n = "FHEGEN_CATALOG" then some "ops.go" else some "") asked finds
  exact ⟨disk, o, c, asked, finds, ran .first, resolved .catalogPath, resolved .outputDir,
    resolved .libraryFile, resolved .benchOperations, resolved .typedSeal⟩

end CommandLine

end FheSolidity
