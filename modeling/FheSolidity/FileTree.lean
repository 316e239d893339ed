import FheSolidity.Disk

/-!
# Trees of files

A file tree is a file system that is a value: a root directory, whose entries are files and
directories again. `disk` gives it the operations of a disk. A path is walked segment by segment,
from the root or from the working directory; every segment needs a directory to start from, so a
trailing separator is only right after a directory. A walk remembers the directories it came
through, so that it can go back up, and so that the tree can be rebuilt around what it found.
-/

namespace FheSolidity

/-- What a name in a directory stands for. -/
inductive Entry where
  | file (contents : ByteArray)
  | dir (entries : List (String × Entry))

namespace Entry

/-- The entries of a directory with a name standing for another entry. -/
def put (name : String) (e : Entry) : List (String × Entry) → List (String × Entry)
  | [] => [(name, e)]
  | (n, old) :: rest => if n = name then (name, e) :: rest else (n, old) :: put name e rest

mutual

/-- All that is below an entry, with the names that lead there. -/
def descendants : Entry → List (List String × Entry)
  | .file _ => []
  | .dir entries => descendantsIn entries

/-- All that is at or below some names. -/
def descendantsIn : List (String × Entry) → List (List String × Entry)
  | [] => []
  | (name, e) :: rest =>
    ([name], e) :: (descendants e).map (fun (names, e) => (name :: names, e))
      ++ descendantsIn rest

end

/-- The row of an entry in a listing: its path, ended by a separator for a directory, and the size
of a file. -/
def row (names : List String) : Entry → String × Option Nat
  | .dir _ => ("/".intercalate names ++ "/", none)
  | .file contents => ("/".intercalate names, some contents.size)

end Entry

/-- The directories that a walk came through, the nearest first: the entries of each, and the name
among them that it went on with. -/
abbrev Trail := List (String × List (String × Entry))

/-- The root directory, with an entry at the end of a trail. -/
def Trail.rebuild (e : Entry) : Trail → Entry
  | [] => e
  | (name, entries) :: trail => Trail.rebuild (.dir (Entry.put name e entries)) trail

/-- An entry together with the way to it. -/
structure Place where
  entry : Entry
  trail : Trail

namespace Place

/-- The most bytes that a name may take. -/
def maxNameBytes : Nat := 255

/-- Fails for a name with too many bytes. -/
def checkName (name : String) : Except FileError Unit :=
  if name.utf8ByteSize ≤ maxNameBytes then .ok () else .error .nameTooLong

/-- The directory that a place is in. That of the root is the root. -/
def up : Place → Place
  | ⟨_, (_, entries) :: trail⟩ => ⟨.dir entries, trail⟩
  | root => root

/-- The entries of the directory at a place. -/
def entries (p : Place) : Except FileError (List (String × Entry)) :=
  match p.entry with
  | .dir entries => .ok entries
  | .file _ => .error .notDirectory

/-- The place that one segment of a path leads to. -/
def step (p : Place) (segment : List Char) : Except FileError Place := do
  let entries ← p.entries
  match segment with
  | [] | ['.'] => return p
  | ['.', '.'] => return p.up
  | cs =>
    let name := String.ofList cs
    checkName name
    match entries.lookup name with
    | none => .error .notFound
    | some e => return ⟨e, (name, entries) :: p.trail⟩

/-- The place that the segments of a path lead to. -/
def walk (p : Place) (segments : List (List Char)) : Except FileError Place :=
  segments.foldlM step p

end Place

/-- The entries below a root directory. -/
structure FileTree where
  root : Entry
  /-- The working directory, from which relative paths start. -/
  here : Path := ⟨""⟩

namespace FileTree

/-- A root directory with nothing in it. -/
def empty : FileTree where
  root := .dir []

/-- A root directory with nothing in it but an empty working directory. -/
def workingIn (name : String) : FileTree where
  root := .dir [(name, .dir [])]
  here := ⟨name⟩

/-- The most bytes that a path may take. -/
def maxPathBytes : Nat := 4095

/-- Fails for a path that no file system takes, and for the empty path, which leads nowhere. -/
def checkPath (p : Path) : Except FileError Unit :=
  if '\x00' ∈ p.spelling.toList then .error .nulInPath
  else if p.spelling = "" then .error .notFound
  else if p.spelling.utf8ByteSize ≤ maxPathBytes then .ok ()
  else .error .nameTooLong

/-- The place that a path starts from. -/
def start (t : FileTree) (p : Path) : Except FileError Place :=
  let top : Place := ⟨t.root, []⟩
  if p.isAbsolute then .ok top else top.walk t.here.segments

/-- The entry that a path leads to. -/
def locate (t : FileTree) (p : Path) : Except FileError Entry := do
  checkPath p
  return (← (← t.start p).walk p.segments).entry

/-- Where the last name of a path would be entered. -/
inductive Target where
  /-- A name among the entries of a directory; `slashed` if a separator follows the name. -/
  | slot (name : String) (entries : List (String × Entry)) (trail : Trail) (slashed : Bool)
  /-- A path that ends in `.` or `..`, or is the root. -/
  | directory

/-- The place that a path names for a new entry. -/
def target (t : FileTree) (p : Path) : Except FileError Target := do
  checkPath p
  let back := p.segments.reverse
  let names := back.dropWhile (· = [])
  match names with
  | [] => return .directory
  | last :: front =>
    let parent ← (← t.start p).walk front.reverse
    let entries ← parent.entries
    if last = ['.'] ∨ last = ['.', '.'] then return .directory
    return .slot (String.ofList last) entries parent.trail (names.length < back.length)

/-- The contents of a text file. -/
def readText (t : FileTree) (p : Path) : Except FileError String := do
  match ← t.locate p with
  | .dir _ => .error .isDirectory
  | .file contents =>
    match String.fromUTF8? contents with
    | some text => return text
    | none => .error .notText

/-- The tree with new contents of a file. -/
def write (t : FileTree) (p : Path) (contents : ByteArray) : Except FileError FileTree := do
  match ← t.target p with
  | .directory | .slot _ _ _ true => .error .isDirectory
  | .slot name entries trail false =>
    Place.checkName name
    match entries.lookup name with
    | some (.dir _) => .error .isDirectory
    | _ => return { t with root := Trail.rebuild (.file contents) ((name, entries) :: trail) }

/-- The tree with a new directory. -/
def makeDir (t : FileTree) (p : Path) : Except FileError FileTree := do
  match ← t.target p with
  | .directory => .error .alreadyExists
  | .slot name entries trail _ =>
    Place.checkName name
    match entries.lookup name with
    | some _ => .error .alreadyExists
    | none => return { t with root := Trail.rebuild (.dir []) ((name, entries) :: trail) }

/-- Whether a path leads to a directory. -/
def isDir (t : FileTree) (p : Path) : Bool :=
  match t.locate p with
  | .ok (.dir _) => true
  | _ => false

/-- Runs a step that may replace the tree. -/
def update (f : FileTree → Except FileError FileTree) : StateM FileTree (Except FileError Unit) :=
  fun t => match f t with
    | .ok t' => (.ok (), t')
    | .error e => (.error e, t)

/-- The operations of a disk on a tree of files. -/
def disk : Disk (StateM FileTree) where
  readText p := fun t => (t.readText p, t)
  writeText p text := update (·.write p text.toUTF8)
  makeDir p := update (·.makeDir p)
  isDir p := fun t => (t.isDir p, t)

/-- The rows of all entries, in the order of their paths as they are listed. -/
def listing (t : FileTree) : List (String × Option Nat) :=
  let rows := t.root.descendants.map fun (names, e) => e.row names
  rows.mergeSort fun a b => !(decide (b.1 < a.1))

end FileTree

end FheSolidity
