import Mathlib
import FheSolidity.Proofs.Catalog.Annotated

/-!
# Catalogs written as source

`Catalog.source` writes operations as the source of a catalog: a function for each, with the
annotations of the operation above it. Reading such a catalog gives exactly the operations it was
written for, in their order: `extract_source`. What can be written is an operation of a plain name
that annotations can describe (`Operation.IsWritable`).
-/

namespace FheSolidity

namespace Operation

/-- A name that a catalog can have for an operation: a small letter, then letters, digits and
underscores. -/
def IsPlainName (name : String) : Prop :=
  ∃ c cs, name = String.ofList (c :: cs) ∧ c.isLower = true ∧
    ∀ x ∈ cs, x.isAlphanum = true ∨ x = '_'

/-- What an operation needs for a catalog to declare it. -/
structure IsWritable (op : Operation) : Prop extends op.IsDescribable where
  name : IsPlainName op.name
  not_handWritten : Rules.isHandWritten op.name = false
  not_sealAlias : Catalog.isSealAlias op.name = false

/-- The function that declares an operation. -/
def declaration (op : Operation) : Catalog.Declaration where
  name := (Text.capitalize op.name).toList
  params := Catalog.plumbing
  comments := op.annotations.map Catalog.Annotation.comment

/-- The lines that declare an operation. -/
def sourceLines (op : Operation) : List Catalog.Line :=
  Catalog.functionLines op.declaration.name op.declaration.comments

end Operation

namespace Catalog

/-- Operations as the source of a catalog. -/
def source (ops : List Operation) : String :=
  String.ofList (Text.ofLines (ops.flatMap Operation.sourceLines))

variable {op : Operation} {ops : List Operation} {c : Char} {cs : List Char}

/-! ### Names -/

theorem isAlpha_of_isLower (h : c.isLower = true) : c.isAlpha = true := by
  simp [Char.isAlpha, h]

/-- The function of an operation has the name of the operation, with a capital. -/
theorem toList_capitalize (h : c.isLower = true) :
    (Text.capitalize (String.ofList (c :: cs))).toList = c.toUpper :: cs := by
  rw [Text.capitalize_ofList (Unicode.toNat_lt_of_isAlpha (isAlpha_of_isLower h)), String.toList_ofList]

/-- The capital is taken back. -/
theorem decapitalize_toUpper (h : c.isLower = true) :
    Text.decapitalize (String.ofList (c.toUpper :: cs)) = String.ofList (c :: cs) := by
  have alpha : c.toUpper.isAlpha = true := by
    rw [Char.isAlpha_toUpper_eq_isAlpha, isAlpha_of_isLower h]
  rw [Text.decapitalize_ofList (Unicode.toNat_lt_of_isAlpha alpha), Char.toLower_toUpper_eq_toLower,
    Char.toLower_eq_of_not_isUpper (Char.not_isUpper_of_isLower h)]

theorem isFunctionName_declaration (h : op.IsWritable) : IsFunctionName op.declaration.name := by
  obtain ⟨c, cs, name, lower, word⟩ := h.name
  have alpha : c.toUpper.isAlpha = true := by
    rw [Char.isAlpha_toUpper_eq_isAlpha, isAlpha_of_isLower lower]
  rw [Operation.declaration, name, toList_capitalize lower]
  refine ⟨⟨c.toUpper, cs, rfl, by simp [startsName, alpha]⟩, fun x hx => ?_⟩
  rcases List.mem_cons.1 hx with rfl | hx
  · exact Unicode.isWord_of_isAlphanum (by simp [Char.isAlphanum, alpha])
  · rcases word x hx with alphanum | rfl
    · exact Unicode.isWord_of_isAlphanum alphanum
    · exact Unicode.isWord_underscore

theorem isExported_declaration (h : op.IsWritable) : op.declaration.isExported = true := by
  obtain ⟨c, cs, name, lower, _⟩ := h.name
  have exported : c.toUpper.isUpper = true := by
    rw [Char.isUpper_toUpper_eq_isAlpha, isAlpha_of_isLower lower]
  rw [Declaration.isExported, Operation.declaration, name, toList_capitalize lower]
  exact exported

theorem operationName_declaration (h : op.IsWritable) :
    op.declaration.operationName = op.name := by
  obtain ⟨c, cs, name, lower, _⟩ := h.name
  rw [Declaration.operationName, Operation.declaration, name, toList_capitalize lower,
    decapitalize_toUpper lower]

/-! ### Functions -/

/-- The function of an operation declares this operation. -/
theorem operation?_declaration (h : op.IsWritable) : op.declaration.operation? = .ok (some op) := by
  have described : annotated op.name op.declaration = .ok op := annotated_eq_ok h.toIsDescribable _
  rw [Declaration.operation?, operationName_declaration h, isExported_declaration h,
    h.not_handWritten, h.not_sealAlias, described]
  rfl

theorem isLine_of_mem_sourceLines (h : op.IsWritable) :
    ∀ l ∈ op.sourceLines, Text.IsLine l := by
  refine (isFunctionName_declaration h).isLine_of_mem_functionLines fun comment hc => ?_
  obtain ⟨a, ha, rfl⟩ := List.mem_map.1 hc
  exact Annotation.isLine_comment (isSayable_of_mem_annotations h.toIsDescribable a ha)

/-- The functions of several operations are read one by one. -/
theorem declarations_sourceLines (h : ∀ op ∈ ops, op.IsWritable) :
    declarations (ops.flatMap Operation.sourceLines) = ops.map Operation.declaration := by
  induction ops with
  | nil =>
    rw [List.flatMap_nil, declarations, declarationsFrom]
    rfl
  | cons op ops ih =>
    rw [List.flatMap_cons, Operation.sourceLines, declarations_functionLines_append
      (isFunctionName_declaration (h op List.mem_cons_self)),
      ih fun op' hop' => h op' (List.mem_cons_of_mem op hop')]
    rfl

/-- Operations of different names are all kept. -/
theorem firstOfEachName_eq_self (distinct : (ops.map Operation.name).Nodup) :
    firstOfEachName ops = ops := by
  -- The invariant of the fold: everything so far was kept, and nothing to come has its name.
  have keep (kept : List Operation) (h : ((kept ++ ops).map Operation.name).Nodup) :
      ops.foldl (fun kept op => if kept.any (·.name == op.name) then kept else kept ++ [op]) kept =
        kept ++ ops := by
    clear distinct
    induction ops generalizing kept with
    | nil => rw [List.append_nil]; rfl
    | cons op ops ih =>
      have fresh : ¬ kept.any (·.name == op.name) = true := by
        intro earlier
        obtain ⟨op', hop', same⟩ := List.any_eq_true.1 earlier
        rw [List.map_append, List.map_cons] at h
        exact (List.nodup_append.1 h).2.2 _ (List.mem_map_of_mem hop') _ List.mem_cons_self
          (eq_of_beq same)
      have whole : kept ++ op :: ops = (kept ++ [op]) ++ ops := by simp
      rw [List.foldl_cons, if_neg fresh, whole]
      exact ih (kept ++ [op]) (whole ▸ h)
  exact keep [] distinct

theorem operationsOfLines_sourceLines (h : ∀ op ∈ ops, op.IsWritable)
    (distinct : (ops.map Operation.name).Nodup) :
    operationsOfLines (ops.flatMap Operation.sourceLines) = .ok ops := by
  have read : (ops.map Operation.declaration).mapM Declaration.operation? = .ok (ops.map some) := by
    rw [mapM_eq_ok_iff, List.forall₂_map_left_iff, List.forall₂_map_right_iff, List.forall₂_same]
    exact fun op hop => operation?_declaration (h op hop)
  have kept : firstOfEachName ((ops.map some).filterMap id) = ops := by
    rw [List.filterMap_map, Function.id_comp, List.filterMap_some, firstOfEachName_eq_self distinct]
  rw [operationsOfLines, declarations_sourceLines h, read]
  exact congrArg Except.ok kept

/-- A catalog that was written for some operations is read as these. -/
theorem extract_source (nonempty : ops ≠ []) (distinct : (ops.map Operation.name).Nodup)
    (writable : ∀ op ∈ ops, op.IsWritable) : extract (source ops) = .ok ops := by
  have lines : Text.lines (source ops).toList = ops.flatMap Operation.sourceLines := by
    rw [source, String.toList_ofList, Text.lines_ofLines]
    intro l hl
    obtain ⟨op, hop, hl⟩ := List.mem_flatMap.1 hl
    exact isLine_of_mem_sourceLines (writable op hop) l hl
  rw [extract, lines, operationsOfLines_sourceLines writable distinct]
  cases ops with
  | nil => exact absurd rfl nonempty
  | cons op ops => rfl

/-- A selection between values of one type, and a shift by a value in the clear whose result is a
byte string. -/
theorem extract_source_select_shl :
    let select : Operation :=
      { name := "select", inputs := [.fixed (.encrypted .bool), .encrypted, .encrypted]
        sameType := true }
    let shl : Operation :=
      { name := "shl_2", inputs := [.encrypted, .plain], returns := .explicit (.fixed .bytes)
        boolean := true }
    select.IsWritable ∧ shl.IsWritable ∧
      [select, shl].flatMap Operation.sourceLines =
        ["// Arity: 3", "// Input1 type: ebool", "// Input2 type: encrypted",
          "// Input3 type: encrypted", "// Return type: encrypted", "// Same type",
          "func Select(utype byte, tp *TxParams) \x7b", "\x7d", "",
          "// Arity: 2", "// Input1 type: encrypted", "// Input2 type: plaintext",
          "// Return type: bytes", "// Boolean math",
          "func Shl_2(utype byte, tp *TxParams) \x7b", "\x7d", ""].map String.toList ∧
      extract (source [select, shl]) = .ok [select, shl] := by
  intro select shl
  have writableSelect : select.IsWritable :=
    { arity := by decide
      inputs := by
        intro t ht
        obtain rfl : t = .encrypted .bool := by simpa [select] using ht
        exact ⟨"ebool", by decide⟩
      returns := by
        intro t ht
        cases ht
      name := ⟨'s', ['e', 'l', 'e', 'c', 't'], rfl, by decide, by simp⟩
      not_handWritten := by decide +kernel
      not_sealAlias := by decide +kernel }
  have writableShl : shl.IsWritable :=
    { arity := by decide
      inputs := by
        intro t ht
        simp [shl] at ht
      returns := by
        intro t ht
        cases ht
        exact ⟨"bytes", by decide⟩
      name := ⟨'s', ['h', 'l', '_', '2'], rfl, by decide, by simp⟩
      not_handWritten := by decide +kernel
      not_sealAlias := by decide +kernel }
  refine ⟨writableSelect, writableShl, by decide +kernel, ?_⟩
  refine extract_source (by decide) (by decide) fun op hop => ?_
  rcases List.mem_cons.1 hop with rfl | hop
  · exact writableSelect
  · cases List.mem_singleton.1 hop
    exact writableShl

end Catalog

end FheSolidity
