import FheSolidity.Text.Scan

/-!
# Annotations

A comment of a catalog function may say something about the operation: what it returns, the kind
of an input, how many inputs there are. `Annotation.ofComment?` reads it; keywords may be in any
case, and white space counts as much as it does to a reader. A comment that says none of this is
no annotation.
-/

namespace FheSolidity.Catalog

open Text (blanks1? countOf digits? atEnd? keyword? trimStart word?)

/-- What a comment may say about an operation. -/
inductive Annotation where
  | returnType (word : String)
  | inputType (position : Nat) (word : String)
  | arity (n : Nat)
  | plainInput
  | plainOutput
  | booleanMath
  | sameType
  deriving DecidableEq

namespace Annotation

/-- The rest after a colon with white space on both sides. -/
def colon? (cs : List Char) : Option (List Char) := do
  return trimStart (← Text.literal? [':'] (trimStart cs))

/-- The rest after two keywords with white space between. -/
def keywords? (first second : String) (cs : List Char) : Option (List Char) := do
  keyword? second.toList (← blanks1? (← keyword? first.toList cs))

/-- Reads two keywords with nothing but white space after them. -/
def phrase? (first second : String) (cs : List Char) : Option Unit := do
  atEnd? (trimStart (← keywords? first second cs))

/-- Reads `return type: <word>`. -/
def returnType? (cs : List Char) : Option Annotation := do
  let (word, _) ← word? (← colon? (← keywords? "return" "type" cs))
  return .returnType (String.ofList word)

/-- Reads `input<n> type: <word>`. -/
def inputType? (cs : List Char) : Option Annotation := do
  let (digits, rest) ← digits? (trimStart (← keyword? "input".toList cs))
  let rest ← colon? (← keyword? "type".toList (← blanks1? rest))
  let (word, _) ← word? rest
  return .inputType (countOf digits) (String.ofList word)

/-- Reads `arity: <n>`. -/
def arity? (cs : List Char) : Option Annotation := do
  let (digits, _) ← digits? (← colon? (← keyword? "arity".toList cs))
  return .arity (countOf digits)

/-- The annotation that a comment is. -/
def ofComment? (comment : List Char) : Option Annotation :=
  let cs := Text.trim comment
  returnType? cs
    <|> inputType? cs
    <|> arity? cs
    <|> (phrase? "plaintext" "input" cs).map (fun _ => .plainInput)
    <|> (phrase? "plaintext" "output" cs).map (fun _ => .plainOutput)
    <|> (phrase? "boolean" "math" cs).map (fun _ => .booleanMath)
    <|> (phrase? "same" "type" cs).map (fun _ => .sameType)

end Annotation

end FheSolidity.Catalog
