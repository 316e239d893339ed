import FheSolidity.Config
import FheSolidity.Json.Value

/-!
# Configuration files

A configuration file is JSON: an object that gives values to some of the fields, or an array that
gives values to the first fields in their order. Other members of an object are passed over; a
field that is given twice, or a value of another type than its field's, is an error.
-/

namespace FheSolidity.ConfigFile

/-- The text of a JSON value. -/
def text? : Json.Value → Option String
  | .text units => (Json.decode? units).map String.ofList
  | _ => none

/-- The truth value of a JSON value. -/
def bool? : Json.Value → Option Bool
  | .bool b => some b
  | _ => none

/-- A list of texts, or null for none. -/
def texts? : Json.Value → Option (Option (List String))
  | .null => some none
  | .array items => (items.mapM text?).map some
  | _ => none

/-- The setting that a JSON value makes for a field. -/
def setting? (f : Field) (v : Json.Value) : Option Setting :=
  match f with
  | .catalogPath => (text? v).map fun s => .catalogPath ⟨s⟩
  | .outputDir => (text? v).map fun s => .outputDir ⟨s⟩
  | .libraryFile => (text? v).map .libraryFile
  | .testsDir => (text? v).map .testsDir
  | .benchDir => (text? v).map .benchDir
  | .abiFile => (text? v).map .abiFile
  | .license => (text? v).map .license
  | .pragma => (text? v).map .pragma
  | .precompileImport => (text? v).map .precompileImport
  | .benchOperations => (texts? v).map .benchOperations
  | .typedSeal => (bool? v).map .typedSeal
  | .parallel => (bool? v).map .parallel

/-- The settings of an object's members, none of them for a field among `seen`. -/
def ofMembers? (seen : List Field) :
    List (List Json.TextUnit × Json.Value) → Option (List Setting)
  | [] => some []
  | (key, v) :: rest => do
    match Field.ofName? (String.ofList (← Json.decode? key)) with
    | none => ofMembers? seen rest
    | some f =>
      if seen.contains f then none
      else return (← setting? f v) :: (← ofMembers? (f :: seen) rest)

/-- The settings of an array's items for fields in their order. -/
def ofItems? : List Field → List Json.Value → Option (List Setting)
  | _, [] => some []
  | [], _ :: _ => none
  | f :: fields, v :: rest => return (← setting? f v) :: (← ofItems? fields rest)

/-- The settings that a JSON value makes. -/
def ofValue? : Json.Value → Option (List Setting)
  | .object members => ofMembers? [] members
  | .array items => ofItems? Field.all items
  | _ => none

/-- The settings that the text of a configuration file makes. -/
def settings? (text : String) : Option (List Setting) :=
  (Json.read? text).bind ofValue?

/-- The settings of a configuration file on a disk. -/
def load {m : Type → Type} [Monad m] (disk : Disk m) (p : Path) :
    m (Except ConfigError (List Setting)) := do
  match ← disk.readText p with
  | .error cause => return .error (.unreadable p cause)
  | .ok text =>
    match settings? text with
    | some settings => return .ok settings
    | none => return .error (.malformed p)

end FheSolidity.ConfigFile
