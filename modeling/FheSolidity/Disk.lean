import FheSolidity.Path

/-!
# Disks

A disk is what the generator needs of a file system: reading and writing whole text files, making
one directory, and asking for one. The effects happen in a monad `m`, so the same run works on
real files and on a tree of files that is a value. `makeDirs` and `emit` are built on these.
-/

namespace FheSolidity

/-- Why a file operation failed. -/
inductive FileError where
  | notFound
  | alreadyExists
  | isDirectory
  | notDirectory
  /-- A name or a path has too many bytes. -/
  | nameTooLong
  /-- The path has a NUL, which no path may have. -/
  | nulInPath
  /-- The contents are not UTF-8. -/
  | notText
  | other (description : String)
  deriving DecidableEq

/-- The cause of a failed file operation in words. -/
def FileError.message : FileError → String
  | .notFound => "No such file or directory (os error 2)"
  | .alreadyExists => "File exists (os error 17)"
  | .isDirectory => "Is a directory (os error 21)"
  | .notDirectory => "Not a directory (os error 20)"
  | .nameTooLong => "File name too long (os error 36)"
  | .nulInPath => "file name contained an unexpected NUL byte"
  | .notText => "stream did not contain valid UTF-8"
  | .other description => description

/-- The operations of a file system, as effects of `m`. -/
structure Disk (m : Type → Type) where
  /-- The contents of a text file. -/
  readText : Path → m (Except FileError String)
  /-- Replaces the contents of a file, or makes a new one. -/
  writeText : Path → String → m (Except FileError Unit)
  /-- Makes one directory in a directory that exists. -/
  makeDir : Path → m (Except FileError Unit)
  /-- Whether a path leads to a directory. -/
  isDir : Path → m Bool

namespace Disk

variable {m : Type → Type} [Monad m]

/-- Makes a directory, and a directory that is there already is as good as a new one. -/
def settleDir (disk : Disk m) (p : Path) : m (Except FileError Unit) := do
  match ← disk.makeDir p with
  | .ok () => return .ok ()
  | .error e => if ← disk.isDir p then return .ok () else return .error e

/-- Makes a directory together with those that lead to it. -/
def makeDirs (disk : Disk m) (p : Path) : m (Except FileError Unit) :=
  if p.spelling = "" then return .ok ()
  else do
    match ← disk.makeDir p with
    | .ok () => return .ok ()
    | .error .notFound =>
      match _hq : p.parent? with
      | none => return .error (.other "failed to create whole tree")
      | some q =>
        match ← disk.makeDirs q with
        | .error e => return .error e
        | .ok () => disk.settleDir p
    | .error e => if ← disk.isDir p then return .ok () else return .error e
termination_by p.spelling.length
decreasing_by exact Path.length_parent?_lt _hq

end Disk

end FheSolidity
