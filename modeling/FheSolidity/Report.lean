import FheSolidity.Artifact
import FheSolidity.Json.Quoted

/-!
# Reports

A report says how many operations and functions a run found and which files it wrote, or would
have written. It is shown as plain lines or as JSON.
-/

namespace FheSolidity

/-- A file of a run. -/
structure WrittenFile where
  path : Path
  kind : ArtifactKind
  bytes : Nat
  deriving DecidableEq

/-- A file of a run by what it holds. -/
def WrittenFile.ofArtifact (a : Artifact) : WrittenFile where
  path := a.path
  kind := a.kind
  bytes := a.size

/-- What a run did, or would have done. -/
structure Report where
  operations : Nat
  functions : Nat
  files : List WrittenFile
  /-- Whether nothing was written. -/
  dryRun : Bool
  deriving DecidableEq

namespace Report

/-- The size of all files together. -/
def totalBytes (r : Report) : Nat :=
  r.files.foldl (fun total f => total + f.bytes) 0

/-- The report as lines of text. -/
def plainText (r : Report) : String :=
  let verb := if r.dryRun then "would write" else "wrote"
  Library.unlines
    ((r.files.map fun f =>
        verb ++ " " ++ f.path.spelling ++ " (" ++ toString f.bytes ++ " bytes)")
      ++ [toString r.operations ++ " operations, " ++ toString r.functions ++ " functions, " ++
        toString r.files.length ++ " files, " ++ toString r.totalBytes ++ " bytes"])

/-- A file as JSON, inside the list of files. -/
def fileJson (f : WrittenFile) : String :=
  "    \x7b\n      \"path\": " ++ Json.quote f.path.spelling ++
    ",\n      \"kind\": " ++ Json.quote f.kind.name ++
    ",\n      \"bytes\": " ++ toString f.bytes ++ "\n    \x7d"

/-- The list of files as JSON. -/
def filesJson : List WrittenFile → String
  | [] => "[]"
  | files => "[\n" ++ ",\n".intercalate (files.map fileJson) ++ "\n  ]"

/-- The report as JSON text of several lines. -/
def jsonText (r : Report) : String :=
  "\x7b\n  \"operations\": " ++ toString r.operations ++
    ",\n  \"functions\": " ++ toString r.functions ++
    ",\n  \"files\": " ++ filesJson r.files ++
    ",\n  \"dry_run\": " ++ (if r.dryRun then "true" else "false") ++ "\n\x7d\n"

end Report

end FheSolidity
