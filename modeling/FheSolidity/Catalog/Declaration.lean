import FheSolidity.Text.Pieces
import FheSolidity.Text.Scan
import FheSolidity.Text.Trim
import FheSolidity.Unicode.Word

/-!
# Function declarations in Go source

The catalog is Go source. `declarations` finds its top-level functions, each with the text between
its parentheses and with the comments that belong to it: the block of comment lines right above,
and the comment of every line of its body. A body ends with the line on which its braces balance,
braces in comments not counting.
-/

namespace FheSolidity.Catalog

open Unicode (isBlank isWord)

/-- A line of source, without its end. -/
abbrev Line := List Char

/-- A top-level function with what the catalog reads of it. -/
structure Declaration where
  name : List Char
  /-- The text between the parentheses. -/
  params : List Char
  /-- The comments above and inside the function, without their slashes. -/
  comments : List (List Char)
  deriving DecidableEq

/-- The comment of a line that is nothing but a comment. -/
def wholeComment? (line : Line) : Option (List Char) :=
  Text.literal? ['/', '/'] (Text.trimStart line)

/-- A line cut at its first two slashes: the code before them and the comment after them. -/
def splitComment : Line → Line × Option (List Char)
  | [] => ([], none)
  | '/' :: '/' :: cs => ([], some cs)
  | c :: cs => (c :: (splitComment cs).1, (splitComment cs).2)

/-- Whether a character may start the name of a function. -/
def startsName (c : Char) : Bool :=
  c.isAlpha || c == '_'

/-- The name of the function that a line declares, and the rest of the line after the parenthesis
that opens its parameters. -/
def opening? (line : Line) : Option (List Char × List Char) := do
  let rest ← Text.blanks1? (← Text.literal? ['f', 'u', 'n', 'c'] line)
  match rest with
  | [] => none
  | c :: cs =>
    if !startsName c then none
    else
      let (tail, rest) := cs.span isWord
      match Text.trimStart rest with
      | '(' :: rest => some (c :: tail, rest)
      | _ => none

/-- The text before the parenthesis that closes the last of `depth` open ones, and how many are
still open at the end of the line. -/
def upToClose : Nat → List Char → List Char × Nat
  | 0, _ => ([], 0)
  | depth, [] => ([], depth)
  | depth + 1, c :: cs =>
    if c = ')' then
      if depth = 0 then ([], 0)
      else (c :: (upToClose depth cs).1, (upToClose depth cs).2)
    else
      let inner := if c = '(' then depth + 2 else depth + 1
      (c :: (upToClose inner cs).1, (upToClose inner cs).2)

/-- The text between `depth` open parentheses and the one that closes the last of them, with a
blank for every line end between. Without one it is the text of all lines. -/
def paramText (depth : Nat) (line : Line) : List Line → List Char
  | [] => (upToClose depth line).1
  | next :: rest =>
    match upToClose depth line with
    | (text, 0) => text
    | (text, unclosed + 1) => text ++ ' ' :: paramText (unclosed + 1) next rest

/-- How far the braces of a body are balanced. -/
structure Balance where
  depth : Int
  /-- Whether there was an opening brace. -/
  opened : Bool

/-- The balance after one more character. -/
def Balance.step (b : Balance) (c : Char) : Balance :=
  if c = '{' then ⟨b.depth + 1, true⟩
  else if c = '}' then ⟨b.depth - 1, b.opened⟩
  else b

/-- The balance after one more line. -/
def Balance.afterLine (b : Balance) (line : Line) : Balance :=
  (splitComment line).1.foldl Balance.step b

/-- Whether the body is complete. -/
def Balance.isClosed (b : Balance) : Bool :=
  b.opened && decide (b.depth ≤ 0)

/-- The lines up to the one that completes a body, and those after it. A body that is never
complete takes all lines. -/
def splitBody (b : Balance) : List Line → List Line × List Line
  | [] => ([], [])
  | line :: rest =>
    let b := b.afterLine line
    if b.isClosed then ([line], rest)
    else (line :: (splitBody b rest).1, (splitBody b rest).2)

theorem splitBody_append (b : Balance) (lines : List Line) :
    (splitBody b lines).1 ++ (splitBody b lines).2 = lines := by
  induction lines generalizing b with
  | nil => rfl
  | cons line rest ih =>
    simp only [splitBody]
    split
    · rfl
    · simp [ih]

/-- A body takes at least the line it starts with. -/
theorem length_splitBody_lt (b : Balance) (line : Line) (rest : List Line) :
    (splitBody b (line :: rest)).2.length < (line :: rest).length := by
  have h := congrArg List.length (splitBody_append b (line :: rest))
  have : 0 < (splitBody b (line :: rest)).1.length := by
    simp only [splitBody]
    split <;> simp
  simp only [List.length_append] at h
  omega

/-- The functions declared by lines, where `above` are the comments right above the first line, the
nearest first. -/
def declarationsFrom (above : List (List Char)) : List Line → List Declaration
  | [] => []
  | line :: rest =>
    match wholeComment? line with
    | some comment => declarationsFrom (comment :: above) rest
    | none =>
      match opening? line with
      | none => declarationsFrom [] rest
      | some (name, tail) =>
        let body := splitBody ⟨0, false⟩ (line :: rest)
        { name
          params := paramText 1 tail rest
          comments := above.reverse ++ body.1.filterMap fun l => (splitComment l).2 } ::
          declarationsFrom [] body.2
termination_by lines => lines.length
decreasing_by
  · simp
  · simp
  · exact length_splitBody_lt _ _ _

/-- The functions declared by lines. -/
def declarations (lines : List Line) : List Declaration :=
  declarationsFrom [] lines

end FheSolidity.Catalog
