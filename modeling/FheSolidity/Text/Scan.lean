import FheSolidity.Text.Trim
import FheSolidity.Unicode.Digit

/-!
# Reading a text from its start

Small readers that take something off the start of a text and hand back the rest. A reader fails
where the text does not start with what it reads.
-/

namespace FheSolidity.Text

open Unicode (isBlank isDecimalDigit)

/-- The rest after a given text. -/
def literal? : List Char → List Char → Option (List Char)
  | [], cs => some cs
  | w :: ws, c :: cs => if c = w then literal? ws cs else none
  | _ :: _, [] => none

/-- A character without its case, as far as the letters of keywords go: ASCII letters, and the two
characters outside ASCII whose case pairs are ASCII letters. -/
def foldCase (c : Char) : Char :=
  if c = 'ſ' then 's' else if c.toNat = 0x212A then 'k' else c.toLower

/-- The rest after a keyword in lower case, whatever its case in the text. -/
def keyword? : List Char → List Char → Option (List Char)
  | [], cs => some cs
  | w :: ws, c :: cs => if foldCase c = w then keyword? ws cs else none
  | _ :: _, [] => none

/-- The rest after all white space, of which there has to be some. -/
def blanks1? : List Char → Option (List Char)
  | c :: cs => if isBlank c then some (trimStart cs) else none
  | [] => none

/-- The longest start without white space, which must not be empty, and the rest. -/
def word? (cs : List Char) : Option (List Char × List Char) :=
  match cs.span (fun c => !isBlank c) with
  | ([], _) => none
  | (word, rest) => some (word, rest)

/-- The longest start of decimal digits, which must not be empty, and the rest. -/
def digits? (cs : List Char) : Option (List Char × List Char) :=
  match cs.span isDecimalDigit with
  | ([], _) => none
  | (digits, rest) => some (digits, rest)

/-- Succeeds at the end of a text. -/
def atEnd? : List Char → Option Unit
  | [] => some ()
  | _ :: _ => none

/-- The number that a run of ASCII digits stands for. -/
def decimalValue (digits : List Char) : Nat :=
  digits.foldl (fun n d => 10 * n + (d.toNat - '0'.toNat)) 0

/-- The largest count there is. -/
def maxCount : Nat := UInt64.size - 1

/-- A run of digits as a count. Digits of other scripts, and numbers that are too large, read as
the largest count, at which the reading stays however many digits follow. -/
def countOf (digits : List Char) : Nat :=
  if digits.all Char.isDigit then
    digits.foldl (fun n d => min (10 * n + (d.toNat - '0'.toNat)) maxCount) 0
  else maxCount

theorem literal?_append (w cs : List Char) : literal? w (w ++ cs) = some cs := by
  induction w with
  | nil => rfl
  | cons c w ih => simpa [literal?] using ih

/-- A count is the value of its digits, or the largest count where that is less. -/
theorem countOf_eq_min {digits : List Char} (h : digits.all Char.isDigit = true) :
    countOf digits = min (decimalValue digits) maxCount := by
  have key (m : Nat) : digits.foldl (fun n d => min (10 * n + (d.toNat - '0'.toNat)) maxCount)
      (min m maxCount) =
        min (digits.foldl (fun n d => 10 * n + (d.toNat - '0'.toNat)) m) maxCount := by
    clear h
    induction digits generalizing m with
    | nil => rfl
    | cons d ds ih =>
      have step : min (10 * min m maxCount + (d.toNat - '0'.toNat)) maxCount =
          min (10 * m + (d.toNat - '0'.toNat)) maxCount := by omega
      rw [List.foldl_cons, step, ih, List.foldl_cons]
  simpa [countOf, decimalValue, h] using key 0

theorem countOf_le (digits : List Char) : countOf digits ≤ maxCount := by
  by_cases h : digits.all Char.isDigit = true
  · rw [countOf_eq_min h]
    exact Nat.min_le_right _ _
  · simp [countOf, h]

end FheSolidity.Text
