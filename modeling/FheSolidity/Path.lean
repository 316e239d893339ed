import FheSolidity.Text.Pieces

/-!
# File paths

A path is kept as it is spelled and compared by its components: repeated and trailing separators
and inner `.` components do not count, a leading `./` does, and `..` is a component like any
other. `key` is an order key: paths with equal keys name the same place, and keys order the root
before a leading `.`, that before `..`, and that before names, which go by code points.
-/

namespace FheSolidity

/-- One step of a path. -/
inductive Component where
  | root
  | here
  | up
  | name (s : List Char)
  deriving DecidableEq

/-- The order key of one step. -/
def Component.key : Component → List Nat
  | .root => [0]
  | .here => [1]
  | .up => [2]
  | .name s => 3 :: s.map Char.toNat

/-- A file path as it is spelled. -/
structure Path where
  spelling : String
  deriving DecidableEq

namespace Path

/-- The step that an inner segment stands for. Empty segments and `.` stand for none. -/
def innerComponent? : List Char → Option Component
  | [] => none
  | ['.'] => none
  | ['.', '.'] => some .up
  | s => some (.name s)

/-- The segments of a path, empty ones included. -/
def segments (p : Path) : List (List Char) :=
  Text.pieces '/' p.spelling.toList

/-- Whether a path starts at the root. -/
def isAbsolute (p : Path) : Bool :=
  p.spelling.toList.head? == some '/'

/-- The steps of a path. -/
def components (p : Path) : List Component :=
  if p.isAbsolute then .root :: p.segments.filterMap innerComponent?
  else match p.segments with
    | ['.'] :: rest => .here :: rest.filterMap innerComponent?
    | segments => segments.filterMap innerComponent?

/-- The order key of a path. -/
def key (p : Path) : List (List Nat) :=
  p.components.map Component.key

/-- Whether two spellings name the same place. -/
def same (p q : Path) : Bool :=
  p.key == q.key

/-- Whether `p` comes before `q`. -/
def before (p q : Path) : Bool :=
  decide (p.key < q.key)

/-- The path `q` seen from `p`: an absolute `q` stands for itself. -/
def join (p q : Path) : Path :=
  if q.isAbsolute then q
  else match p.spelling.toList.getLast? with
    | none | some '/' => ⟨p.spelling ++ q.spelling⟩
    | some _ => ⟨p.spelling ++ "/" ++ q.spelling⟩

/-- A reversed spelling from its first segment on that is neither empty nor `.`. -/
def dropIdleEnd : List Char → List Char
  | '/' :: cs => dropIdleEnd cs
  | ['.'] => []
  | '.' :: '/' :: cs => dropIdleEnd cs
  | cs => cs

/-- The spelling cut after its root or its leading `.`, the rest reversed. -/
def splitLead : List Char → List Char × List Char
  | '/' :: cs => (['/'], cs.reverse)
  | ['.'] => (['.'], [])
  | '.' :: '/' :: cs => (['.'], ('/' :: cs).reverse)
  | cs => ([], cs.reverse)

/-- The path without its last component. The root and the empty path have none to lose. -/
def parent? (p : Path) : Option Path :=
  let (lead, tail) := splitLead p.spelling.toList
  match dropIdleEnd tail with
  | [] => if lead = ['.'] then some ⟨""⟩ else none
  | cs => some ⟨String.ofList (lead ++ (dropIdleEnd (cs.dropWhile (· ≠ '/'))).reverse)⟩

theorem length_dropIdleEnd_le (cs : List Char) : (dropIdleEnd cs).length ≤ cs.length := by
  fun_induction dropIdleEnd cs <;> simp_all <;> omega

theorem head?_dropIdleEnd (cs : List Char) : (dropIdleEnd cs).head? ≠ some '/' := by
  fun_induction dropIdleEnd cs with
  | case1 _ ih => exact ih
  | case2 => simp
  | case3 _ ih => exact ih
  | case4 cs h => cases cs with
    | nil => simp
    | cons c cs => rintro hc; simp at hc; exact absurd rfl (hc ▸ h cs)

theorem length_splitLead (cs : List Char) :
    (splitLead cs).1.length + (splitLead cs).2.length = cs.length := by
  fun_cases splitLead cs <;> simp <;> omega

/-- The spelling of a parent is shorter. -/
theorem length_parent?_lt {p q : Path} (h : p.parent? = some q) :
    q.spelling.length < p.spelling.length := by
  have hs := length_splitLead p.spelling.toList
  simp only [parent?] at h
  have hd := length_dropIdleEnd_le (splitLead p.spelling.toList).2
  have hh := head?_dropIdleEnd (splitLead p.spelling.toList).2
  revert h hs hd hh
  rw [← String.length_toList, ← String.length_toList]
  generalize dropIdleEnd (splitLead p.spelling.toList).2 = body
  intro h hs hd hh
  match body with
  | [] =>
    dsimp only at h
    split at h
    · next hl =>
      obtain rfl := Option.some.inj h
      rw [hl] at hs
      simp at hs ⊢
      omega
    · cases h
  | c :: cs =>
    obtain rfl := Option.some.inj h
    have hc : c ≠ '/' := by simpa using hh
    have h1 := length_dropIdleEnd_le ((c :: cs).dropWhile (· ≠ '/'))
    have h2 := (List.dropWhile_sublist (fun x : Char => decide (x ≠ '/')) (l := cs)).length_le
    simp [hc] at h1 h2 hd ⊢
    omega

end Path

end FheSolidity
