import FheSolidity.Unicode.Case

/-!
# Case changes of a whole text

A generated name starts with a capital where the operation it comes from starts with a small
letter, and the reverse. Only the first character changes, by its full case mapping; the rest is
kept. Keywords compare without regard to ASCII case.
-/

namespace FheSolidity.Text

/-- The text with its first character in upper case. -/
def capitalize (s : String) : String :=
  match s.toList with
  | [] => ""
  | c :: cs => String.ofList (Unicode.upperCase c ++ cs)

/-- The text with its first character in lower case. -/
def decapitalize (s : String) : String :=
  match s.toList with
  | [] => ""
  | c :: cs => String.ofList (Unicode.lowerCase c ++ cs)

/-- The text with its ASCII letters in lower case. -/
def asciiLower (s : String) : String :=
  s.map Char.toLower

/-- Equality up to the case of ASCII letters. -/
def sameIgnoringCase (a b : String) : Bool :=
  asciiLower a == asciiLower b

theorem capitalize_ofList {c : Char} {cs : List Char} (h : c.toNat < 128) :
    capitalize (String.ofList (c :: cs)) = String.ofList (c.toUpper :: cs) := by
  simp [capitalize, Unicode.upperCase_of_ascii h]

theorem decapitalize_ofList {c : Char} {cs : List Char} (h : c.toNat < 128) :
    decapitalize (String.ofList (c :: cs)) = String.ofList (c.toLower :: cs) := by
  simp [decapitalize, Unicode.lowerCase_of_ascii h]

end FheSolidity.Text
