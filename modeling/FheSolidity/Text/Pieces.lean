/-!
# Texts with separators

`pieces sep` cuts a text at every separator, and `joinWith sep` puts one between neighbours. Empty
pieces count, so cutting loses nothing and joining the pieces gives the text back.
-/

namespace FheSolidity.Text

/-- The pieces of a text between its separators. There is always at least one. -/
def pieces (sep : Char) : List Char → List (List Char)
  | [] => [[]]
  | c :: cs =>
    if c = sep then [] :: pieces sep cs
    else match pieces sep cs with
      | [] => [[c]]
      | p :: ps => (c :: p) :: ps

/-- The texts with a separator between neighbours. -/
def joinWith (sep : Char) : List (List Char) → List Char
  | [] => []
  | [p] => p
  | p :: q :: ps => p ++ sep :: joinWith sep (q :: ps)

theorem pieces_ne_nil (sep : Char) (cs : List Char) : pieces sep cs ≠ [] := by
  cases cs with
  | nil => simp [pieces]
  | cons c cs =>
    simp only [pieces]
    split
    · simp
    · split <;> simp

theorem joinWith_pieces (sep : Char) (cs : List Char) : joinWith sep (pieces sep cs) = cs := by
  induction cs with
  | nil => rfl
  | cons c cs ih =>
    simp only [pieces]
    split
    · next h =>
      match hp : pieces sep cs with
      | [] => exact absurd hp (pieces_ne_nil sep cs)
      | p :: ps => rw [hp] at ih; simp [joinWith, ih, h]
    · match hp : pieces sep cs with
      | [] => exact absurd hp (pieces_ne_nil sep cs)
      | [p] => rw [hp] at ih; simpa [joinWith] using ih
      | p :: q :: ps => rw [hp] at ih; simpa [joinWith] using ih

/-- No piece holds the separator. -/
theorem sep_not_mem_pieces {sep : Char} {cs p : List Char} (h : p ∈ pieces sep cs) : sep ∉ p := by
  induction cs generalizing p with
  | nil => simp_all [pieces]
  | cons c cs ih =>
    simp only [pieces] at h
    split at h
    · rcases List.mem_cons.1 h with rfl | h
      · simp
      · exact ih h
    · next hc =>
      match hp : pieces sep cs with
      | [] => exact absurd hp (pieces_ne_nil sep cs)
      | q :: qs =>
        rw [hp] at h
        rcases List.mem_cons.1 h with rfl | h
        · have := ih (p := q) (by simp [hp])
          simp [Ne.symm hc, this]
        · exact ih (by simp [hp, h])

end FheSolidity.Text
