import FheSolidity.Text.Pieces

/-!
# Lines

A line ends with a line feed, and one carriage return before it belongs to the end. What follows
the last line feed is a line of its own unless it is empty, and there a carriage return stays.
-/

namespace FheSolidity.Text

/-- A line without the carriage return at its end. -/
def dropReturn (cs : List Char) : List Char :=
  if cs.getLast? = some '\r' then cs.dropLast else cs

/-- The lines among the pieces between line feeds. -/
def linesOfPieces : List (List Char) → List (List Char)
  | [] => []
  | [last] => if last = [] then [] else [last]
  | p :: q :: ps => dropReturn p :: linesOfPieces (q :: ps)

/-- The lines of a text. -/
def lines (cs : List Char) : List (List Char) :=
  linesOfPieces (pieces '\n' cs)

theorem pieces_append_cons {sep : Char} {p : List Char} (hp : sep ∉ p) (cs : List Char) :
    pieces sep (p ++ sep :: cs) = p :: pieces sep cs := by
  induction p with
  | nil => simp [pieces]
  | cons c p ih =>
    simp only [List.mem_cons, not_or] at hp
    simp [pieces, Ne.symm hp.1, ih hp.2]

/-- A line that ends in a line feed stands in front of the lines of the rest. -/
theorem lines_append_cons {p : List Char} (hp : '\n' ∉ p) (cs : List Char) :
    lines (p ++ '\n' :: cs) = dropReturn p :: lines cs := by
  rw [lines, pieces_append_cons hp]
  match h : pieces '\n' cs with
  | [] => exact absurd h (pieces_ne_nil _ _)
  | q :: qs => simp [linesOfPieces, lines, h]

end FheSolidity.Text
