import FheSolidity.CommandLine.Run

/-!
# The command

Real files and environment variables for a command. Nothing is decided here.
-/

namespace FheSolidity

/-- The cause of a failed operation on real files. -/
def fileError : IO.Error → FileError
  | .noFileOrDirectory .. => .notFound
  | .alreadyExists .. => .alreadyExists
  | .inappropriateType _ 20 _ => .notDirectory
  | .inappropriateType _ 21 _ => .isDirectory
  | .invalidArgument _ 36 _ => .nameTooLong
  | .invalidArgument _ 22 "string contains NUL bytes" => .nulInPath
  | .permissionDenied _ code details | .resourceExhausted _ code details =>
    .other (details ++ " (os error " ++ toString code ++ ")")
  | e => .other (toString e)

/-- An operation on real files with its failure as a value. -/
def caught {α : Type} (act : IO α) : IO (Except FileError α) := do
  match ← act.toBaseIO with
  | .ok a => return .ok a
  | .error e => return .error (fileError e)

/-- The contents of a real file. -/
def readReal (p : Path) : IO (Except FileError ByteArray) :=
  caught (IO.FS.withFile p.spelling .read (·.readBinToEnd))

/-- The contents of a real text file. -/
def readRealText (p : Path) : IO (Except FileError String) := do
  match ← readReal p with
  | .error e => return .error e
  | .ok bytes =>
    match String.fromUTF8? bytes with
    | some text => return .ok text
    | none => return .error .notText

/-- The disk of the machine. -/
def realDisk : Disk IO where
  readText := readRealText
  writeText p text := caught (IO.FS.writeFile p.spelling text)
  makeDir p := caught (IO.FS.createDir p.spelling)
  isDir p := do
    match ← readReal p with
    | .error .isDirectory => return true
    | _ => return false

/-- The environment variables that a command looks up. -/
def environment : IO (String → Option String) := do
  let names := [Config.catalogVariable, Config.outputVariable]
  let values ← names.mapM fun n => return (n, ← IO.getEnv n)
  return fun n => (values.lookup n).join

end FheSolidity

open FheSolidity in
/-- Runs the command and ends with its exit status. -/
def main (args : List String) : IO UInt32 := do
  let outcome ← CommandLine.run realDisk (← environment) args
  (← IO.getStdout).putStr outcome.output
  (← IO.getStderr).putStr outcome.complaint
  return outcome.status.toUInt32
