import FheSolidity.Unicode.Blank

/-!
# Text without the white space around it

`trimStart` and `trim` drop white space at the start and at both ends of a text. What is left
starts, and in the second case also ends, with a character that is not blank.
-/

namespace FheSolidity.Text

open Unicode (isBlank)

/-- The text from its first character that is not blank. -/
def trimStart (cs : List Char) : List Char :=
  cs.dropWhile isBlank

/-- The text between its first and its last character that are not blank. -/
def trim (cs : List Char) : List Char :=
  (trimStart (trimStart cs).reverse).reverse

/-- Whether a text holds nothing but white space. -/
def isBlankText (cs : List Char) : Bool :=
  cs.all isBlank

theorem trimStart_cons_of_blank {c : Char} {cs : List Char} (h : isBlank c = true) :
    trimStart (c :: cs) = trimStart cs := by
  simp [trimStart, h]

theorem trimStart_cons_of_not_blank {c : Char} {cs : List Char} (h : isBlank c = false) :
    trimStart (c :: cs) = c :: cs := by
  simp [trimStart, h]

theorem trimStart_append_of_blank {bs cs : List Char} (h : ∀ c ∈ bs, isBlank c = true) :
    trimStart (bs ++ cs) = trimStart cs := by
  induction bs with
  | nil => rfl
  | cons b bs ih =>
    rw [List.cons_append, trimStart_cons_of_blank (h b (by simp))]
    exact ih fun c hc => h c (by simp [hc])

end FheSolidity.Text
