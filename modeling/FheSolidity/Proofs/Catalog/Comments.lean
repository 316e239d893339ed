import FheSolidity.Catalog.Annotation
import FheSolidity.Proofs.Text

/-!
# Annotations written as comments

`Annotation.comment` writes an annotation the way catalogs write it. The seven patterns of
annotations are tried one after another, so reading a comment back takes that no earlier pattern
reads it as something else: `ofComment?_comment`.
-/

namespace FheSolidity.Catalog.Annotation

open Text (IsSolid decimal)

/-- The text of an annotation. -/
def text : Annotation → List Char
  | .returnType word => "Return type: ".toList ++ word.toList
  | .inputType position word =>
    "Input".toList ++ (decimal position ++ (" type: ".toList ++ word.toList))
  | .arity n => "Arity: ".toList ++ decimal n
  | .plainInput => "Plaintext input".toList
  | .plainOutput => "Plaintext output".toList
  | .booleanMath => "Boolean math".toList
  | .sameType => "Same type".toList

/-- An annotation as a comment, without the slashes. -/
def comment (a : Annotation) : List Char :=
  ' ' :: a.text

/-- Whether a comment can say an annotation: words are without white space, and numbers are
counts. -/
def IsSayable : Annotation → Prop
  | .returnType word => IsSolid word.toList
  | .inputType position word => position ≤ Text.maxCount ∧ IsSolid word.toList
  | .arity n => n ≤ Text.maxCount
  | .plainInput | .plainOutput | .booleanMath | .sameType => True

variable {a : Annotation} {w : List Char}

/-- No annotation starts or ends with white space. -/
theorem trim_comment (h : a.IsSayable) : Text.trim a.comment = a.text := by
  rw [comment, Text.trim_cons_of_blank Unicode.isBlank_space]
  cases a with
  | returnType word =>
    have solid : IsSolid word.toList := h
    refine solid.trim_append ?_
    rintro _ ⟨⟩
    decide
  | inputType position word =>
    have solid : IsSolid word.toList := h.2
    have grouped : text (.inputType position word) =
        ("Input".toList ++ decimal position ++ " type: ".toList) ++ word.toList := by
      rw [List.append_assoc, List.append_assoc]
      rfl
    rw [grouped]
    refine solid.trim_append ?_
    rintro _ ⟨⟩
    decide
  | arity n =>
    refine (Text.isSolid_decimal n).trim_append ?_
    rintro _ ⟨⟩
    decide
  | plainInput | plainOutput | booleanMath | sameType => decide +kernel

/-- An annotation stands on one line. -/
theorem isLine_comment (h : a.IsSayable) : Text.IsLine a.comment := by
  have blank : Text.IsLine [' '] := by decide
  refine blank.append ?_
  cases a with
  | returnType word =>
    have solid : IsSolid word.toList := h
    exact Text.IsLine.append (by decide) solid.isLine
  | inputType position word =>
    have solid : IsSolid word.toList := h.2
    exact Text.IsLine.append (by decide)
      ((Text.isSolid_decimal position).isLine.append (Text.IsLine.append (by decide) solid.isLine))
  | arity n => exact Text.IsLine.append (by decide) (Text.isSolid_decimal n).isLine
  | plainInput | plainOutput | booleanMath | sameType => decide

/-- After the colon and a blank stands the word. -/
theorem colon?_append (h : IsSolid w) : colon? (": ".toList ++ w) = some w := by
  have blank : Text.trimStart (' ' :: w) = w := by
    rw [Text.trimStart_cons_of_blank Unicode.isBlank_space]
    simpa using h.trimStart_append []
  exact congrArg some blank

theorem returnType?_text {word : String} (h : IsSolid word.toList) :
    returnType? (text (.returnType word)) = some (.returnType word) := by
  have keywords : keywords? "return" "type" (text (.returnType word)) =
      some (": ".toList ++ word.toList) := rfl
  simp only [returnType?, keywords, colon?_append h, h.word?, String.ofList_toList,
    Option.bind_eq_bind, Option.bind_some, Option.pure_def]

theorem inputType?_text {position : Nat} {word : String} (count : position ≤ Text.maxCount)
    (h : IsSolid word.toList) :
    inputType? (text (.inputType position word)) = some (.inputType position word) := by
  have keyword : Text.keyword? "input".toList (text (.inputType position word)) =
      some (decimal position ++ (" type: ".toList ++ word.toList)) := rfl
  have number : Text.digits? (decimal position ++ (" type: ".toList ++ word.toList)) =
      some (decimal position, " type: ".toList ++ word.toList) := by
    refine Text.digits?_decimal_append position ?_
    rintro _ ⟨⟩
    decide
  have blanks : Text.blanks1? (" type: ".toList ++ word.toList) =
      some ("type: ".toList ++ word.toList) := rfl
  have type : Text.keyword? "type".toList ("type: ".toList ++ word.toList) =
      some (": ".toList ++ word.toList) := rfl
  simp only [inputType?, keyword, (Text.isSolid_decimal position).trimStart_append, number, blanks,
    type, colon?_append h, h.word?, Text.countOf_decimal count, String.ofList_toList,
    Option.bind_eq_bind, Option.bind_some, Option.pure_def]

theorem arity?_text {n : Nat} (count : n ≤ Text.maxCount) :
    arity? (text (.arity n)) = some (.arity n) := by
  have keyword : Text.keyword? "arity".toList (text (.arity n)) =
      some (": ".toList ++ decimal n) := rfl
  have number : Text.digits? (decimal n) = some (decimal n, []) := by
    have nothing : ∀ c ∈ ([] : List Char).head?, Unicode.isDecimalDigit c = false := by simp
    simpa using Text.digits?_decimal_append n nothing
  simp only [arity?, keyword, colon?_append (Text.isSolid_decimal n), number,
    Text.countOf_decimal count, Option.bind_eq_bind, Option.bind_some, Option.pure_def]

/-- What is written as an annotation is read as that annotation. -/
theorem ofComment?_comment (h : a.IsSayable) : ofComment? a.comment = some a := by
  rw [ofComment?, trim_comment h]
  -- Every reader before the right one fails at the first letters of the text.
  cases a with
  | returnType word =>
    rw [returnType?_text h]
    rfl
  | inputType position word =>
    have noReturn : returnType? (text (.inputType position word)) = none := rfl
    rw [noReturn, inputType?_text h.1 h.2]
    rfl
  | arity n =>
    have noReturn : returnType? (text (.arity n)) = none := rfl
    have noInput : inputType? (text (.arity n)) = none := rfl
    rw [noReturn, noInput, arity?_text h]
    rfl
  | plainInput | plainOutput | booleanMath | sameType => decide +kernel

end FheSolidity.Catalog.Annotation
