import Mathlib
import FheSolidity.Proofs.Catalog.Alike

/-!
# The case of letters in annotations

Keywords of annotations are read in any case, and so are the words for a family of types. The name
of a type is not: it is looked up as it is written. So of comments that differ in the case of
letters both say the same, or both say nothing, as long as they name the same type: they can stand
for each other in every catalog exactly if the words that they have for types are the same letter
by letter (`letter_case_ignored_iff`).
-/

namespace FheSolidity

/-! ### Characters -/

namespace Unicode

/-- A class of characters that has all letters, or none, does not depend on case. -/
theorem apply_toLower {α : Type} (f : Char → α) (x : α) (letters : ∀ c, c.isAlpha = true → f c = x)
    (c : Char) : f c.toLower = f c := by
  by_cases alpha : c.isAlpha = true
  · rw [letters c alpha, letters c.toLower ((Char.isAlpha_toLower_eq_isAlpha c).trans alpha)]
  · have noUpper : ¬c.isUpper = true := fun upper => alpha (Bool.or_eq_true_iff.2 (.inl upper))
    rw [Char.toLower_eq_of_not_isUpper noUpper]

theorem le_toNat_of_isAlpha {c : Char} (h : c.isAlpha = true) : 65 ≤ c.toNat := by
  rcases Bool.or_eq_true_iff.1 h with upper | lower
  · have bounds : 'A' ≤ c ∧ c ≤ 'Z' := of_decide_eq_true upper
    exact UInt32.le_iff_toNat_le.1 bounds.1
  · have above : 'a' ≤ c := of_decide_eq_true (Bool.and_eq_true_iff.1 lower).1
    exact Nat.le_trans (by decide) (UInt32.le_iff_toNat_le.1 above)

theorem isDecimalDigit_of_isAlpha {c : Char} (h : c.isAlpha = true) : isDecimalDigit c = false := by
  have outside : ∀ n < 128, 65 ≤ n → inRanges digitRanges n = false := by decide +kernel
  have noDigit : c.isDigit = false := by
    rw [Char.isDigit, Bool.and_eq_false_iff]
    right
    refine decide_eq_false fun below => ?_
    have greatest : c.toNat ≤ '9'.toNat := UInt32.le_iff_toNat_le.1 below
    exact absurd (Nat.le_trans (le_toNat_of_isAlpha h) greatest) (by decide)
  rw [isDecimalDigit, noDigit, outside c.toNat (toNat_lt_of_isAlpha h) (le_toNat_of_isAlpha h)]
  rfl

/-- Only letters change. -/
theorem toLower_eq_iff {c x : Char} (h : x.isAlpha = false) : c.toLower = x ↔ c = x := by
  refine iff_of_eq (apply_toLower (· = x) False (fun c alpha => eq_false ?_) c)
  rintro rfl
  exact Bool.false_ne_true (h.symm.trans alpha)

theorem isBlank_toLower (c : Char) : isBlank c.toLower = isBlank c :=
  apply_toLower isBlank false (fun _ => isBlank_of_isAlpha) c

theorem isDecimalDigit_toLower (c : Char) : isDecimalDigit c.toLower = isDecimalDigit c :=
  apply_toLower isDecimalDigit false (fun _ => isDecimalDigit_of_isAlpha) c

end Unicode

/-! ### Readers -/

namespace Text

open Unicode (isBlank isDecimalDigit)

variable {cs : List Char}

theorem foldCase_toLower (c : Char) : foldCase c.toLower = foldCase c := by
  by_cases alpha : c.isAlpha = true
  · have plain {c : Char} (alpha : c.isAlpha = true) : foldCase c = c.toLower := by
      have ascii := Unicode.toNat_lt_of_isAlpha alpha
      have noLongS : c ≠ 'ſ' := by
        rintro rfl
        exact absurd ascii (by decide)
      have noKelvin : c.toNat ≠ 0x212A := fun same => absurd (same ▸ ascii) (by decide)
      rw [foldCase, if_neg noLongS, if_neg noKelvin]
    rw [plain alpha, plain ((Char.isAlpha_toLower_eq_isAlpha c).trans alpha),
      Char.toLower_toLower_eq_toLower]
  · have noUpper : ¬c.isUpper = true := fun upper => alpha (Bool.or_eq_true_iff.2 (.inl upper))
    rw [Char.toLower_eq_of_not_isUpper noUpper]

theorem trimStart_map_toLower (cs : List Char) :
    trimStart (cs.map Char.toLower) = (trimStart cs).map Char.toLower := by
  have blank : isBlank ∘ Char.toLower = isBlank := funext Unicode.isBlank_toLower
  rw [trimStart, List.dropWhile_map, blank, trimStart]

theorem trim_map_toLower (cs : List Char) :
    trim (cs.map Char.toLower) = (trim cs).map Char.toLower := by
  rw [trim, trimStart_map_toLower, ← List.map_reverse, trimStart_map_toLower, ← List.map_reverse,
    trim]

theorem keyword?_map_toLower (w cs : List Char) :
    keyword? w (cs.map Char.toLower) = (keyword? w cs).map (List.map Char.toLower) := by
  induction w generalizing cs with
  | nil => rfl
  | cons x w ih =>
    cases cs with
    | nil => rfl
    | cons c cs =>
      rw [List.map_cons, keyword?, keyword?, foldCase_toLower, ih]
      split <;> rfl

theorem literal?_colon_map_toLower (cs : List Char) :
    literal? [':'] (cs.map Char.toLower) = (literal? [':'] cs).map (List.map Char.toLower) := by
  cases cs with
  | nil => rfl
  | cons c cs =>
    have colon : c.toLower = ':' ↔ c = ':' := Unicode.toLower_eq_iff (by decide)
    simp only [List.map_cons, literal?, colon]
    split <;> rfl

theorem blanks1?_map_toLower (cs : List Char) :
    blanks1? (cs.map Char.toLower) = (blanks1? cs).map (List.map Char.toLower) := by
  cases cs with
  | nil => rfl
  | cons c cs =>
    rw [List.map_cons, blanks1?, blanks1?, Unicode.isBlank_toLower, trimStart_map_toLower]
    split <;> rfl

theorem word?_map_toLower (cs : List Char) : word? (cs.map Char.toLower) =
    (word? cs).map (Prod.map (List.map Char.toLower) (List.map Char.toLower)) := by
  have solid : (fun c => !isBlank c) ∘ Char.toLower = fun c => !isBlank c :=
    funext fun c => congrArg (!·) (Unicode.isBlank_toLower c)
  rw [word?, word?, List.span_eq_takeWhile_dropWhile, List.span_eq_takeWhile_dropWhile,
    List.takeWhile_map, List.dropWhile_map, solid]
  cases cs.takeWhile fun c => !isBlank c <;> rfl

/-- Digits have no case. -/
theorem digits?_map_toLower (cs : List Char) : digits? (cs.map Char.toLower) =
    (digits? cs).map (Prod.map id (List.map Char.toLower)) := by
  have digit : isDecimalDigit ∘ Char.toLower = isDecimalDigit :=
    funext Unicode.isDecimalDigit_toLower
  have own : (cs.takeWhile isDecimalDigit).map Char.toLower = cs.takeWhile isDecimalDigit := by
    refine (List.map_congr_left fun c hc => ?_).trans (List.map_id _)
    have noUpper : ¬c.isUpper = true := fun upper => by
      have noDigit := Unicode.isDecimalDigit_of_isAlpha (Bool.or_eq_true_iff.2 (.inl upper))
      rw [List.mem_takeWhile_imp hc] at noDigit
      cases noDigit
    exact Char.toLower_eq_of_not_isUpper noUpper
  rw [digits?, digits?, List.span_eq_takeWhile_dropWhile, List.span_eq_takeWhile_dropWhile,
    List.takeWhile_map, List.dropWhile_map, digit, own]
  cases cs.takeWhile isDecimalDigit <;> rfl

theorem atEnd?_map_toLower (cs : List Char) : atEnd? (cs.map Char.toLower) = atEnd? cs := by
  cases cs <;> rfl

theorem asciiLower_ofList (cs : List Char) :
    asciiLower (String.ofList cs) = String.ofList (cs.map Char.toLower) := by
  rw [← String.toList_inj, asciiLower, String.toList_map, String.toList_ofList,
    String.toList_ofList]

end Text

namespace Catalog

open Text (asciiLower)

namespace Annotation

/-- An annotation with its word in lower case. -/
def lower : Annotation → Annotation
  | .returnType word => .returnType (asciiLower word)
  | .inputType position word => .inputType position (asciiLower word)
  | a => a

theorem colon?_map_toLower (cs : List Char) :
    colon? (cs.map Char.toLower) = (colon? cs).map (List.map Char.toLower) := by
  simp only [colon?, Text.trimStart_map_toLower, Text.literal?_colon_map_toLower,
    Option.bind_eq_bind, Option.bind_map, Option.map_bind, Function.comp_def, Option.pure_def,
    Option.map_some]

theorem keywords?_map_toLower (first second : String) (cs : List Char) :
    keywords? first second (cs.map Char.toLower) =
      (keywords? first second cs).map (List.map Char.toLower) := by
  simp only [keywords?, Text.keyword?_map_toLower, Text.blanks1?_map_toLower, Option.bind_eq_bind,
    Option.bind_map, Option.map_bind, Function.comp_def]

theorem phrase?_map_toLower (first second : String) (cs : List Char) :
    phrase? first second (cs.map Char.toLower) = phrase? first second cs := by
  simp only [phrase?, keywords?_map_toLower, Text.trimStart_map_toLower, Text.atEnd?_map_toLower,
    Option.bind_eq_bind, Option.bind_map, Function.comp_def]

theorem returnType?_map_toLower (cs : List Char) :
    returnType? (cs.map Char.toLower) = (returnType? cs).map lower := by
  simp only [returnType?, keywords?_map_toLower, colon?_map_toLower, Text.word?_map_toLower,
    Option.bind_eq_bind, Option.bind_map, Option.map_bind, Function.comp_def, Option.pure_def,
    Prod.map, ← Text.asciiLower_ofList]
  rfl

theorem inputType?_map_toLower (cs : List Char) :
    inputType? (cs.map Char.toLower) = (inputType? cs).map lower := by
  simp only [inputType?, Text.keyword?_map_toLower, Text.trimStart_map_toLower,
    Text.digits?_map_toLower, Text.blanks1?_map_toLower, colon?_map_toLower, Text.word?_map_toLower,
    Option.bind_eq_bind, Option.bind_map, Option.map_bind, Function.comp_def, Option.pure_def,
    Prod.map, ← Text.asciiLower_ofList, id]
  rfl

theorem arity?_map_toLower (cs : List Char) :
    arity? (cs.map Char.toLower) = (arity? cs).map lower := by
  simp only [arity?, Text.keyword?_map_toLower, colon?_map_toLower, Text.digits?_map_toLower,
    Option.bind_eq_bind, Option.bind_map, Option.map_bind, Function.comp_def, Option.pure_def,
    Prod.map, id]
  rfl

/-- A comment in lower case says the same with its word in lower case. -/
theorem ofComment?_map_toLower (c : List Char) :
    ofComment? (c.map Char.toLower) = (ofComment? c).map lower := by
  simp only [ofComment?, Text.trim_map_toLower, returnType?_map_toLower, inputType?_map_toLower,
    arity?_map_toLower, phrase?_map_toLower, Option.orElse_eq_orElse, Option.orElse_eq_or,
    Option.map_or, Option.map_map, Function.comp_def]
  rfl

end Annotation

end Catalog

/-! ### The words for types -/

open Text (asciiLower)

/-- The words for families of types, in lower case. -/
def InputKind.families : List (String × InputKind) :=
  [("encrypted", .encrypted), ("plaintext", .plain)]

/-- The words for kinds of results other than one type, in lower case. -/
def ReturnKind.families : List (String × ReturnKind) :=
  [("encrypted", .encrypted), ("plaintext", .plain), ("none", .nothing), ("void", .nothing)]

/-- A word in any case is one for a family, or else it is looked up as it is. -/
theorem InputKind.ofWord?_eq (word : String) : ofWord? word =
    (families.lookup (asciiLower word)).or ((ValueType.ofName? word).map .fixed) := by
  unfold ofWord?
  split
  · next h => rw [h]; rfl
  · next h => rw [h]; rfl
  · next h₁ h₂ =>
    have none : families.lookup (asciiLower word) = none := by
      simp [families, List.lookup_cons, beq_eq_false_iff_ne.2 h₁, beq_eq_false_iff_ne.2 h₂]
    rw [none, Option.none_or]

theorem ReturnKind.ofWord?_eq (word : String) : ofWord? word =
    (families.lookup (asciiLower word)).or ((ValueType.ofName? word).map .explicit) := by
  unfold ofWord?
  split
  · next h => rw [h]; rfl
  · next h => rw [h]; rfl
  · next h => rw [h]; rfl
  · next h => rw [h]; rfl
  · next h₁ h₂ h₃ h₄ =>
    have none : families.lookup (asciiLower word) = none := by
      simp [families, List.lookup_cons, beq_eq_false_iff_ne.2 h₁, beq_eq_false_iff_ne.2 h₂,
        beq_eq_false_iff_ne.2 h₃, beq_eq_false_iff_ne.2 h₄]
    rw [none, Option.none_or]

theorem InputKind.ofWord?_of_family {word : String} {kind : InputKind}
    (family : families.lookup (asciiLower word) = some kind) : ofWord? word = some kind := by
  rw [ofWord?_eq, family, Option.some_or]

theorem ReturnKind.ofWord?_of_family {word : String} {kind : ReturnKind}
    (family : families.lookup (asciiLower word) = some kind) : ofWord? word = some kind := by
  rw [ofWord?_eq, family, Option.some_or]

/-- A type has one word, but for byte strings. -/
theorem ValueType.eq_name_of_ofName? {word : String} {t : ValueType} (h : ofName? word = some t) :
    word = t.name ∨ word = "string" := by
  simp only [ofName?, Option.orElse_eq_orElse, Option.orElse_eq_or, Option.or_eq_some_iff,
    Option.map_eq_some_iff] at h
  rcases h with ⟨s, found, rfl⟩ | ⟨_, ⟨s, found, rfl⟩ | ⟨_, h⟩⟩
  · have named := List.find?_some (p := fun s : Scalar => s.encryptedName == word) found
    exact .inl (eq_of_beq named).symm
  · have named := List.find?_some (p := fun s : Scalar => s.name == word) found
    exact .inl (eq_of_beq named).symm
  · split at h
    · cases h
      exact .inl rfl
    · cases h
      exact .inl rfl
    · exact .inr rfl
    · cases h
      exact .inl rfl
    · obtain ⟨f, found, rfl⟩ := Option.map_eq_some_iff.1 h
      have named := List.find?_some (p := fun f : SealFamily => f.name == word) found
      exact .inl (eq_of_beq named).symm

/-- Words for one type that differ in nothing but case are the same. -/
theorem ValueType.word_eq_of_ofName? {word word' : String} {t : ValueType}
    (lower : asciiLower word = asciiLower word') (h : ofName? word = some t)
    (h' : ofName? word' = some t) : word = word' := by
  have bytes {t : ValueType} (h : ofName? "string" = some t) : t.name = "bytes" := by
    have own : ofName? "string" = some (.fixed .bytes) := by decide +kernel
    rw [own] at h
    cases h
    rfl
  have apart : asciiLower "bytes" ≠ asciiLower "string" := by decide +kernel
  rcases eq_name_of_ofName? h with rfl | rfl <;> rcases eq_name_of_ofName? h' with rfl | rfl
  · rfl
  · rw [bytes h'] at lower
    exact absurd lower apart
  · rw [bytes h] at lower
    exact absurd lower.symm apart
  · rfl

namespace Catalog

variable {a a' : Annotation} {c c' : List Char} {word word' : String} {op : Operation}

/-- The word of an annotation that is looked up as the name of a type: no word for a family of
types, and not that of an input that there is none of. -/
def Annotation.typeName? : Annotation → Option String
  | .returnType word =>
    if (ReturnKind.families.lookup (asciiLower word)).isSome then none else some word
  | .inputType position word =>
    if position = 0 ∨ 3 < position ∨ (InputKind.families.lookup (asciiLower word)).isSome then none
    else some word
  | _ => none

open Annotation (ofComment? ofComment?_map_toLower typeName?)

/-- The word of a comment that is looked up as the name of a type. -/
def typeOfComment? (comment : List Char) : Option String :=
  (ofComment? comment).bind typeName?

/-- Whether two comments do the same to every operation. -/
def SaySame (c c' : List Char) : Prop :=
  ∀ op, (ofComment? c).toList.foldlM applyAnnotation op =
    (ofComment? c').toList.foldlM applyAnnotation op

/-! ### Annotations that do the same -/

/-- Annotations that are the same but for the case of their words. -/
inductive SameButCase : Annotation → Annotation → Prop where
  | returnType {word word' : String} (same : asciiLower word = asciiLower word') :
      SameButCase (.returnType word) (.returnType word')
  | inputType (position : Nat) {word word' : String} (same : asciiLower word = asciiLower word') :
      SameButCase (.inputType position word) (.inputType position word')
  | refl (a : Annotation) : SameButCase a a

theorem sameButCase_of_lower (h : a.lower = a'.lower) : SameButCase a a' := by
  cases a with
  | returnType word =>
    cases a' with
    | returnType word' => exact .returnType (by injection h)
    | _ => cases h
  | inputType position word =>
    cases a' with
    | inputType position' word' =>
      injection h with count same
      exact count ▸ .inputType position same
    | _ => cases h
  | arity n =>
    cases a' <;> cases h
    exact .refl _
  | plainInput | plainOutput | booleanMath | sameType =>
    cases a' <;> cases h
    exact .refl _

/-- Such annotations do the same if they have the same word for a type. -/
theorem SameButCase.applyAnnotation_eq (h : SameButCase a a') (types : a.typeName? = a'.typeName?)
    (op : Operation) : applyAnnotation op a = applyAnnotation op a' := by
  cases h with
  | refl => rfl
  | @returnType word word' same =>
    rw [typeName?, typeName?, same] at types
    cases family : ReturnKind.families.lookup (asciiLower word') with
    | none =>
      rw [family] at types
      cases types
      rfl
    | some kind =>
      rw [ applyAnnotation, applyAnnotation, ReturnKind.ofWord?_of_family family,
        ReturnKind.ofWord?_of_family (same ▸ family)]
      rfl
  | @inputType position word word' same =>
    by_cases illegal : position = 0 ∨ 3 < position
    · have refused : checkCount op.name 1 position = .error (.invalidArity op.name position) :=
        checkCount_eq_error_iff.2 ⟨rfl, illegal.imp_left Nat.lt_one_iff.2⟩
      rw [ applyAnnotation, applyAnnotation, refused]
      rfl
    · rw [typeName?, typeName?, same] at types
      cases family : InputKind.families.lookup (asciiLower word') with
      | none =>
        have legal : ¬(position = 0 ∨ 3 < position ∨ (none : Option InputKind).isSome = true) := by
          simpa using illegal
        rw [family, if_neg legal, if_neg legal] at types
        cases types
        rfl
      | some kind =>
        rw [ applyAnnotation, applyAnnotation, InputKind.ofWord?_of_family family,
          InputKind.ofWord?_of_family (same ▸ family)]
        rfl

/-- Comments that differ in case both say nothing, or both say the same but for the case of a
word. -/
theorem sameButCase_of_map_toLower (same : c.map Char.toLower = c'.map Char.toLower) :
    ofComment? c = none ∧ ofComment? c' = none ∨
      ∃ a a', ofComment? c = some a ∧ ofComment? c' = some a' ∧ SameButCase a a' := by
  have lower : (ofComment? c).map Annotation.lower = (ofComment? c').map Annotation.lower := by
    rw [← ofComment?_map_toLower, same, ofComment?_map_toLower]
  cases own : ofComment? c with
  | none =>
    rw [own, Option.map_none, eq_comm, Option.map_eq_none_iff] at lower
    exact .inl ⟨rfl, lower⟩
  | some a =>
    rw [own, Option.map_some, eq_comm, Option.map_eq_some_iff] at lower
    obtain ⟨a', own', lower⟩ := lower
    exact .inr ⟨a, a', rfl, own', sameButCase_of_lower lower.symm⟩

/-! ### Words that are told apart -/

variable {d d' : Declaration}

/-- A word that is looked up is told from its result. -/
theorem word_eq_of_resolve {κ β : Type} {kind : ValueType → κ} {result : κ → β}
    (inj : ∀ t t', result (kind t) = result (kind t') → t = t')
    (lower : asciiLower word = asciiLower word')
    (h : result <$> resolve "add" word ((ValueType.ofName? word).map kind) =
      result <$> resolve "add" word' ((ValueType.ofName? word').map kind)) : word = word' := by
  cases found : ValueType.ofName? word with
  | none =>
    cases found' : ValueType.ofName? word' with
    | none =>
      rw [found, found'] at h
      exact (CatalogError.unknownType.inj (Except.error.inj h)).2
    | some t' =>
      rw [found, found'] at h
      cases h
  | some t =>
    cases found' : ValueType.ofName? word' with
    | none =>
      rw [found, found'] at h
      cases h
    | some t' =>
      rw [found, found'] at h
      obtain rfl := inj t t' (Except.ok.inj h)
      exact ValueType.word_eq_of_ofName? lower found found'

theorem annotated_returnType (params : d.params = [])
    (own : d.annotations = [.returnType word]) : annotated "add" d =
      (fun returns => { undeclared "add" with returns }) <$>
        resolve "add" word (ReturnKind.ofWord? word) := by
  rw [Declaration.annotations] at own
  rw [annotated, own, params, List.foldlM_cons, applyAnnotation]
  cases ReturnKind.ofWord? word <;> rfl

theorem annotated_inputType {position : Nat} (least : position ≠ 0) (most : position ≤ 3)
    (params : d.params = []) (own : d.annotations = [.inputType position word]) :
    annotated "add" d = (fun kind =>
        { undeclared "add" with inputs := setInput position kind (undeclared "add").inputs }) <$>
      resolve "add" word (InputKind.ofWord? word) := by
  have count : checkCount "add" 1 position = .ok () :=
    checkCount_eq_ok_iff.2 ⟨Nat.one_le_iff_ne_zero.2 least, most⟩
  rw [Declaration.annotations] at own
  rw [annotated, own, params, List.foldlM_cons, applyAnnotation, count]
  cases InputKind.ofWord? word with
  | none => rfl
  | some kind =>
    let inputs := setInput position kind (undeclared "add").inputs
    have few : inputs.length ≤ 3 := by
      rw [length_setInput]
      exact Nat.max_le.2 ⟨most, Nat.le_refl 3⟩
    have checked : Operation.ofInputs "add" inputs = .ok { name := "add", inputs } :=
      Operation.ofInputs_eq_ok_iff.2 ⟨few, rfl⟩
    change Operation.ofInputs "add" inputs >>= _ = _
    rw [checked]
    rfl

/-- The kind at a position that there is can be read off the inputs. -/
theorem getElem?_setInput {position : Nat} (least : position ≠ 0) (kind : InputKind)
    (inputs : List InputKind) : (setInput position kind inputs)[position - 1]? = some kind := by
  have inside : position - 1 < (resize (max position inputs.length) inputs).length := by
    rw [length_resize]
    omega
  rw [setInput, List.getElem?_set_self inside]

/-- In a function that declares no inputs, such annotations do the same only if they have the same
word for a type. -/
theorem SameButCase.typeName?_eq (h : SameButCase a a') (params : d.params = [])
    (params' : d'.params = []) (own : d.annotations = [a]) (own' : d'.annotations = [a'])
    (same : annotated "add" d = annotated "add" d') : a.typeName? = a'.typeName? := by
  cases h with
  | refl => rfl
  | @returnType word word' lower =>
    rw [annotated_returnType params own, annotated_returnType params' own', ReturnKind.ofWord?_eq,
      ReturnKind.ofWord?_eq, lower] at same
    rw [typeName?, typeName?, lower]
    cases family : ReturnKind.families.lookup (asciiLower word') with
    | some kind => rfl
    | none =>
      rw [family, Option.none_or, Option.none_or] at same
      refine congrArg some (word_eq_of_resolve (fun t t' h => ?_) lower same)
      exact ReturnKind.explicit.inj (congrArg Operation.returns h)
  | @inputType position word word' lower =>
    rw [typeName?, typeName?, lower]
    by_cases illegal : position = 0 ∨ 3 < position
    · rw [if_pos (illegal.elim .inl fun h => .inr (.inl h)),
        if_pos (illegal.elim .inl fun h => .inr (.inl h))]
    · obtain ⟨least, most⟩ := not_or.1 illegal
      rw [annotated_inputType least (Nat.le_of_not_lt most) params own,
        annotated_inputType least (Nat.le_of_not_lt most) params' own', InputKind.ofWord?_eq,
        InputKind.ofWord?_eq, lower] at same
      cases family : InputKind.families.lookup (asciiLower word') with
      | some kind => simp
      | none =>
        rw [family, Option.none_or, Option.none_or] at same
        have equal := word_eq_of_resolve (fun t t' h => ?_) lower same
        · rw [equal]
        · have kinds := congrArg (·[position - 1]?) (congrArg Operation.inputs h)
          simp only [getElem?_setInput least] at kinds
          exact InputKind.fixed.inj (Option.some.inj kinds)

/-! ### Places for a comment -/

/-- Catalogs with a place for a comment: on a line of its own outside of functions, or at the end of
a line of a function, with or without code, where the parameters are closed. (In front of that it
would be read as a part of them.) -/
inductive CommentPlace : (List Char → List Line) → Prop where
  | above {earlier below : List Line} {left : Line} (whole : IsWhole earlier)
      (blank : ∀ x ∈ left, Unicode.isBlank x = true) :
      CommentPlace fun c => earlier ++ (left ++ '/' :: '/' :: c) :: below
  | inside {earlier init below : List Line} {start left : Line} {name : List Char}
      (whole : IsWhole earlier) (starts : opening? start = some (name, []))
      (params : (upToClose 1 (Text.joinWith ' ' (init ++ [left]))).2 = 0)
      (unclosed : closesBody ⟨0, false⟩ init = false)
      (code : ¬"//".toList <:+: left ++ ['/']) :
      CommentPlace fun c => earlier ++ prepend start (init ++ (left ++ '/' :: '/' :: c) :: below)

/-- Comments in hand go to the first function below, if it stands right below. -/
theorem declarationsFrom_above (lines : List Line) :
    (∀ above, declarationsFrom above lines = declarationsFrom [] lines) ∨
      ∃ (d : Declaration) (ds : List Declaration), ∀ above, declarationsFrom above lines =
        { d with comments := above.reverse ++ d.comments } :: ds := by
  induction lines with
  | nil => exact .inl fun above => by rw [declarationsFrom, declarationsFrom]
  | cons line rest ih =>
    cases comment : wholeComment? line with
    | some comment' =>
      have read (above : List (List Char)) : declarationsFrom above (line :: rest) =
          declarationsFrom (comment' :: above) rest := by
        rw [declarationsFrom, comment]
      rcases ih with none | ⟨d, ds, first⟩
      · exact .inl fun above => by rw [read, read, none, none [comment']]
      · refine .inr ⟨{ d with comments := comment' :: d.comments }, ds, fun above => ?_⟩
        rw [read, first, List.reverse_cons, List.append_assoc, List.singleton_append]
    | none =>
      cases starts : opening? line with
      | none =>
        exact .inl fun above => by rw [declarationsFrom, declarationsFrom, comment, starts]
      | some function =>
        let body := splitBody ⟨0, false⟩ (line :: rest)
        refine .inr ⟨⟨function.1, paramText 1 function.2 rest,
          body.1.filterMap fun l => (splitComment l).2⟩, declarationsFrom [] body.2,
          fun above => ?_⟩
        rw [declarationsFrom, comment, starts]

/-- Comments that differ in case, and have the same word for a type, do the same. -/
theorem saySame_of_map_toLower (same : c.map Char.toLower = c'.map Char.toLower)
    (types : typeOfComment? c = typeOfComment? c') : SaySame c c' := by
  intro op
  rcases sameButCase_of_map_toLower same with ⟨own, own'⟩ | ⟨a, a', own, own', sameButCase⟩
  · rw [own, own']
  · rw [typeOfComment?, typeOfComment?, own, own', Option.bind_some, Option.bind_some] at types
    rw [own, own', Option.toList_some, Option.toList_some, List.foldlM_cons, List.foldlM_cons,
      sameButCase.applyAnnotation_eq types]

/-- Functions that are the same but for such a comment make the same operation. -/
theorem operation?_eq_of_comments {before after : List (List Char)} (name : d.name = d'.name)
    (params : d.params = d'.params) (own : d.comments = before ++ c :: after)
    (own' : d'.comments = before ++ c' :: after) (comment : SaySame c c') :
    d.operation? = d'.operation? := by
  have split (c : List Char) : (before ++ c :: after).filterMap ofComment? =
      before.filterMap ofComment? ++ ((ofComment? c).toList ++ after.filterMap ofComment?) := by
    rw [List.filterMap_append, List.filterMap_cons]
    cases ofComment? c <;> rfl
  refine Declaration.operation?_congr_of_annotated name fun name => ?_
  rw [annotated, annotated, own, own', split, split, params]
  simp only [List.foldlM_append, comment _]

/-- Comments that do the same are read alike in every place for a comment. -/
theorem CommentPlace.readAlike {lines : List Char → List Line} (place : CommentPlace lines)
    (comment : SaySame c c') : ReadAlike (lines c) (lines c') := by
  cases place with
  | @above earlier below left whole blank =>
    have own (c : List Char) (above : List (List Char)) :
        declarationsFrom above ((left ++ '/' :: '/' :: c) :: below) =
          declarationsFrom (c :: above) below := by
      have whole : wholeComment? (left ++ '/' :: '/' :: c) = some c := by
        rw [wholeComment?, Text.trimStart_append_of_blank blank]
        rfl
      rw [declarationsFrom, whole]
    refine .of_forall₂ ?_
    rw [declarations, declarations, declarationsFrom_append whole, declarationsFrom_append whole,
      own, own]
    rcases declarationsFrom_above below with none | ⟨d, ds, first⟩
    · rw [none, none (c' :: _)]
      exact forall₂_operation?_refl _
    · rw [first, first]
      have comments (c : List Char) (above : List (List Char)) :
          (c :: above).reverse ++ d.comments = above.reverse ++ c :: d.comments := by
        rw [List.reverse_cons, List.append_assoc, List.singleton_append]
      exact List.rel_append (forall₂_operation?_refl _) (.cons
        (operation?_eq_of_comments rfl rfl (comments c _) (comments c' _) comment)
        (forall₂_operation?_refl ds))
  | @inside earlier init below start left name whole starts params unclosed code =>
    obtain ⟨inner, rest, body⟩ :=
      exists_splitBody_cons (init.foldl Balance.afterLine ⟨0, false⟩) left below
    have split (c : List Char) : splitBody ⟨0, false⟩ (init ++ (left ++ '/' :: '/' :: c) :: below) =
        (init ++ (left ++ '/' :: '/' :: c) :: inner, rest) := by
      rw [splitBody_append_of_open unclosed, body _ _ (afterLine_slashes code c _)]
    have comments (above : List (List Char)) (c : List Char) :
        (functionIn above name (init ++ (left ++ '/' :: '/' :: c) :: below)).comments =
          (above.reverse ++ init.filterMap fun l => (splitComment l).2) ++
            c :: inner.filterMap fun l => (splitComment l).2 := by
      simp only [functionIn, split, List.filterMap_append, List.filterMap_cons,
        splitComment_slashes code, List.append_assoc]
    refine .of_function whole starts (by simp) (by simp) (fun above => ?_) (by rw [split, split])
    refine operation?_eq_of_comments rfl ?_ (comments above c) (comments above c') comment
    rw [params_functionIn_of_closed params, params_functionIn_of_closed params]

/-- Comments that are read alike everywhere have the same word for a type. -/
theorem typeOfComment?_eq_of_readAlike (same : c.map Char.toLower = c'.map Char.toLower)
    (line : '\n' ∉ c) (alike : ∀ lines, CommentPlace lines → ReadAlike (lines c) (lines c')) :
    typeOfComment? c = typeOfComment? c' := by
  rcases sameButCase_of_map_toLower same with ⟨own, own'⟩ | ⟨a, a', own, own', sameButCase⟩
  · rw [typeOfComment?, typeOfComment?, own, own']
  · -- A function without parameters stands below the comment.
    let rest : Line := ") \x7b\x7d".toList
    have place : CommentPlace fun c => [] ++ ([] ++ '/' :: '/' :: c) :: prepend addStart [rest] :=
      .above .nil (List.forall_mem_nil _)
    have function (c : List Char) :
        declarations ([] ++ ([] ++ '/' :: '/' :: c) :: prepend addStart [rest]) =
          [functionIn [c] "Add".toList [rest]] := by
      have whole : wholeComment? ([] ++ '/' :: '/' :: c) = some c := rfl
      rw [declarations, List.nil_append, declarationsFrom, whole]
      simp only [declarationsFrom_prepend opening?_addStart (List.cons_ne_nil rest []),
        splitBody_singleton, declarationsFrom]
    have feeds {c : List Char} (line : '\n' ∉ c) :
        ∀ l ∈ [] ++ ([] ++ '/' :: '/' :: c) :: prepend addStart [rest], '\n' ∉ l := by
      refine List.forall_mem_cons.2 ⟨by simpa using line, ?_⟩
      decide +kernel
    have line' : '\n' ∉ c' := fun mem => by
      have lower : '\n' ∈ c'.map Char.toLower := List.mem_map.2 ⟨'\n', mem, rfl⟩
      rw [← same, List.mem_map] at lower
      obtain ⟨x, hx, feed⟩ := lower
      rw [Unicode.toLower_eq_iff (by decide)] at feed
      exact line (feed ▸ hx)
    have described := (alike _ place).annotated_eq (feeds line) (feeds line') (function c)
      (function c') rfl rfl
    have annotations {c : List Char} {a : Annotation} (own : ofComment? c = some a) :
        (functionIn [c] "Add".toList [rest]).annotations = [a] := by
      have code : splitComment rest = (rest, none) := by decide +kernel
      simp [Declaration.annotations, functionIn, splitBody_singleton, code, own]
    have params (above : List (List Char)) : (functionIn above "Add".toList [rest]).params = [] :=
      rfl
    rw [typeOfComment?, typeOfComment?, own, own', Option.bind_some, Option.bind_some]
    exact sameButCase.typeName?_eq (params _) (params _) (annotations own) (annotations own')
      described

/-! ### What the case of letters can change -/

/-- **The case of letters.** Comments that differ in the case of letters can stand for each other in
every catalog exactly if they have the same word for a type, letter by letter, or none. So case does
not count in keywords, nor in the words for families of types, and it counts in the name of a
type. -/
theorem letter_case_ignored_iff (same : c.map Char.toLower = c'.map Char.toLower)
    (line : '\n' ∉ c) :
    (∀ lines, CommentPlace lines → ReadAlike (lines c) (lines c')) ↔
      typeOfComment? c = typeOfComment? c' :=
  ⟨typeOfComment?_eq_of_readAlike same line, fun types _ place =>
    place.readAlike (saySame_of_map_toLower same types)⟩

/-- A keyword and a word for a family in capitals. -/
theorem letter_case_ignored_iff_void :
    let c := " Return type: void".toList
    let c' := " RETURN TYPE: VOID".toList
    let lines (c : List Char) : List Line :=
      [] ++ ([] ++ '/' :: '/' :: c) :: ["func Assert(x []byte) \x7b\x7d".toList]
    c.map Char.toLower = c'.map Char.toLower ∧ '\n' ∉ c ∧
      typeOfComment? c = none ∧ typeOfComment? c' = none ∧
      CommentPlace lines ∧ ReadAlike (lines c) (lines c') := by
  intro c c' lines
  have same : c.map Char.toLower = c'.map Char.toLower := by decide +kernel
  have line : '\n' ∉ c := by decide +kernel
  have family : typeOfComment? c = none := by decide +kernel
  have family' : typeOfComment? c' = none := by decide +kernel
  have place : CommentPlace lines := .above .nil (List.forall_mem_nil _)
  exact ⟨same, line, family, family', place,
    (letter_case_ignored_iff same line).2 (family.trans family'.symm) lines place⟩

/-- In capitals the name of a type is none. -/
theorem letter_case_refused :
    let lower := "// Return type: ebool\nfunc Lt(lhs, rhs []byte) \x7b\n\x7d\n"
    let upper := "// Return type: EBOOL\nfunc Lt(lhs, rhs []byte) \x7b\n\x7d\n"
    extract lower = .ok [{ name := "lt", inputs := [.encrypted, .encrypted]
                           returns := .explicit (.encrypted .bool) }] ∧
      extract upper = .error (.unknownType "lt" "EBOOL") := by
  decide +kernel

end Catalog

end FheSolidity
