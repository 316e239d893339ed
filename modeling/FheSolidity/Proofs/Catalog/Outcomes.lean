import FheSolidity.Proofs.Catalog.Annotated
import FheSolidity.Proofs.Catalog.Extraction

/-!
# What comes out of a catalog

`Operation.IsCatalogued` says what every operation read from a catalog is like, whatever the text:
its name starts with a small letter and belongs to no function that is written by hand, it has no
more inputs than there may be, no type of it is the struct of a ciphertext, and only sealing has a
name that stands for sealing. The operations come in the order in which their names appear. A count
that a catalog is refused for is no count there may be, and `Declaration.Miscounts` says where it
stands.
-/

namespace FheSolidity

/-! ### Kinds that annotations name -/

theorem InputKind.isNamed_of_ofWord? {word : String} {t : ValueType}
    (h : ofWord? word = some (.fixed t)) : t.IsNamed := by
  unfold ofWord? at h
  split at h
  · cases h
  · cases h
  · obtain ⟨t', ht', same⟩ := Option.map_eq_some_iff.1 h
    cases same
    exact ⟨word, ht'⟩

theorem ReturnKind.isNamed_of_ofWord? {word : String} {t : ValueType}
    (h : ofWord? word = some (.explicit t)) : t.IsNamed := by
  unfold ofWord? at h
  split at h
  · cases h
  · cases h
  · cases h
  · cases h
  · obtain ⟨t', ht', same⟩ := Option.map_eq_some_iff.1 h
    cases same
    exact ⟨word, ht'⟩

/-- Annotations have no word for the struct of a ciphertext. -/
theorem ValueType.not_isNamed_input (s : Scalar) : ¬(fixed (.input s)).IsNamed := by
  intro h
  have listed := h.mem_named
  cases s <;> exact absurd listed (by decide)

/-- What every operation of a catalog is like. Names that are left out or stand for sealing do so in
any case. -/
structure Operation.IsCatalogued (op : Operation) : Prop where
  name : ∃ c cs, op.name.toList = c :: cs ∧ c.isLower = true
  not_handWritten :
    op.name.toLower ∉ ["trivialencrypt", "cast", "verify", "getnetworkpublickey"]
  arity : op.inputs.length ≤ 3
  inputs : ∀ s, .fixed (.fixed (.input s)) ∉ op.inputs
  returns : ∀ s, op.returns ≠ .explicit (.fixed (.input s))
  sealing : op.name.toLower = "sealoutput" ∨ op.name.toLower = "reencrypt" →
    op.name = "sealoutput" ∧ op.inputs = [.encrypted, .fixed (.fixed .bytes32)] ∧
      op.returns = .explicit (.fixed .bytes) ∧ op.sameType = false ∧ op.boolean = false

theorem Rules.isHandWritten_eq_true_iff {name : String} : isHandWritten name = true ↔
    name.toLower ∈ ["trivialencrypt", "cast", "verify", "getnetworkpublickey"] := by
  have lowered : handWritten.map Text.asciiLower =
      ["trivialencrypt", "cast", "verify", "getnetworkpublickey"] := by
    decide +kernel
  have same : Text.asciiLower name = name.toLower := rfl
  rw [← lowered, List.mem_map, isHandWritten, List.any_eq_true]
  simp only [Text.sameIgnoringCase, same, beq_iff_eq]

namespace Catalog

theorem isSealAlias_eq_true_iff {name : String} : isSealAlias name = true ↔
    name.toLower = "sealoutput" ∨ name.toLower = "reencrypt" := by
  have lowered : sealAliases.map Text.asciiLower = ["sealoutput", "reencrypt"] := by
    decide +kernel
  have same : Text.asciiLower name = name.toLower := rfl
  rw [← List.mem_pair, ← lowered, List.mem_map, isSealAlias, List.any_eq_true]
  simp only [Text.sameIgnoringCase, same, beq_iff_eq]

variable {op op' : Operation} {d : Declaration} {a : Annotation} {kind : InputKind}

/-! ### Inputs -/

theorem length_resize (n : Nat) (inputs : List InputKind) : (resize n inputs).length = n := by
  rw [resize, List.length_append, List.length_take, List.length_replicate]
  omega

theorem length_setInput (position : Nat) (kind : InputKind) (inputs : List InputKind) :
    (setInput position kind inputs).length = max position inputs.length := by
  rw [setInput, List.length_set, length_resize]

/-- Lists of inputs are filled up with encrypted ones. -/
theorem mem_resize {n : Nat} {inputs : List InputKind} (h : kind ∈ resize n inputs) :
    kind ∈ inputs ∨ kind = .encrypted := by
  rcases List.mem_append.1 h with h | h
  · exact .inl (List.mem_of_mem_take h)
  · exact .inr (List.eq_of_mem_replicate h)

theorem mem_setInput {position : Nat} {new : InputKind} {inputs : List InputKind}
    (h : kind ∈ setInput position new inputs) : kind ∈ inputs ∨ kind = .encrypted ∨ kind = new := by
  rcases List.mem_or_eq_of_mem_set h with h | rfl
  · exact (mem_resize h).imp id .inl
  · exact .inr (.inr rfl)

/-- No parameter is the struct of a ciphertext. -/
theorem input_not_mem_declaredInputs (params : List Char) (s : Scalar) :
    .fixed (.fixed (.input s)) ∉ declaredInputs params := by
  unfold declaredInputs
  split
  · intro h
    cases List.eq_of_mem_replicate h
  · intro h
    obtain ⟨p, _, stands⟩ := List.mem_filterMap.1 h
    unfold kindOfType? at stands
    split at stands <;> cases stands

/-- A list of parameters with more inputs than there may be declares just these. -/
theorem length_inputKinds_of_lt {params : List Char} (h : 3 < (declaredInputs params).length) :
    (inputKinds params).length = (declaredInputs params).length := by
  unfold declaredInputs at h ⊢
  split at h
  · rw [List.length_replicate] at h
    exact absurd h (by decide)
  · rfl

/-! ### One annotation -/

/-- What an annotation may do: set types that annotations have words for, and change the number of
inputs to one there may be. -/
structure Alters (op op' : Operation) : Prop where
  name : op'.name = op.name
  arity : op'.inputs.length ≤ 3 ∨ op'.inputs.length = op.inputs.length
  inputs : ∀ t, .fixed t ∈ op'.inputs → .fixed t ∈ op.inputs ∨ t.IsNamed
  returns : ∀ t, op'.returns = .explicit t → op.returns = .explicit t ∨ t.IsNamed

theorem Alters.refl (op : Operation) : Alters op op where
  name := rfl
  arity := .inr rfl
  inputs _ := .inl
  returns _ := .inl

theorem Alters.trans {op'' : Operation} (h : Alters op op') (h' : Alters op' op'') :
    Alters op op'' where
  name := h'.name.trans h.name
  arity := h'.arity.elim .inl fun same => same ▸ h.arity
  inputs t ht := (h'.inputs t ht).elim (h.inputs t) .inr
  returns t ht := (h'.returns t ht).elim (h.returns t) .inr

theorem Alters.ofInputs {inputs : List InputKind}
    (arity : inputs.length ≤ 3 ∨ inputs.length = op.inputs.length)
    (types : ∀ t, .fixed t ∈ inputs → .fixed t ∈ op.inputs ∨ t.IsNamed) :
    Alters op { op with inputs } where
  name := rfl
  arity := arity
  inputs := types
  returns _ := .inl

theorem Alters.ofReturns {returns : ReturnKind}
    (types : ∀ t, returns = .explicit t → op.returns = .explicit t ∨ t.IsNamed) :
    Alters op { op with returns } where
  name := rfl
  arity := .inr rfl
  inputs _ := .inl
  returns := types

theorem Alters.setInput {position : Nat} (low : position ≤ 3)
    (named : ∀ t, kind = .fixed t → t.IsNamed) :
    Alters op { op with inputs := Catalog.setInput position kind op.inputs } := by
  refine .ofInputs ?_ fun t ht => ?_
  · rw [length_setInput]
    omega
  · rcases mem_setInput ht with old | other | new
    · exact .inl old
    · cases other
    · exact .inr (named t new.symm)

theorem checkCount_eq_ok_iff {name : String} {least n : Nat} :
    checkCount name least n = .ok () ↔ least ≤ n ∧ n ≤ 3 := by
  rw [checkCount]
  split
  · next legal => exact iff_of_true rfl legal
  · next illegal => exact iff_of_false (by simp) illegal

theorem checkCount_eq_error_iff {name : String} {least n : Nat} {e : CatalogError} :
    checkCount name least n = .error e ↔ e = .invalidArity name n ∧ (n < least ∨ 3 < n) := by
  rw [checkCount]
  split
  · next legal =>
    have bound : n ≤ 3 := legal.2
    exact iff_of_false (by simp) (by omega)
  · next illegal =>
    have bound : n < least ∨ 3 < n := by
      by_contra h
      exact illegal ⟨by omega, show n ≤ 3 by omega⟩
    simp [bound, eq_comm]

theorem resolve_eq_ok_iff {κ : Type} {name word : String} {found : Option κ} {k : κ} :
    resolve name word found = .ok k ↔ found = some k := by
  cases found <;> simp [resolve]

theorem resolve_eq_error_iff {κ : Type} {name word : String} {found : Option κ}
    {e : CatalogError} :
    resolve name word found = .error e ↔ found = none ∧ e = .unknownType name word := by
  cases found <;> simp [resolve, eq_comm]

theorem alters_of_annotation_ok (h : applyAnnotation op a = .ok op') : Alters op op' := by
  cases a with
  | returnType word =>
    obtain ⟨kind, found, h⟩ := bind_eq_ok_iff.1 h
    cases h
    rw [resolve_eq_ok_iff] at found
    exact .ofReturns fun t ht =>
      .inr (ReturnKind.isNamed_of_ofWord? (found.trans (congrArg some ht)))
  | inputType position word =>
    obtain ⟨count, h⟩ := check_bind_eq_ok_iff.1 h
    obtain ⟨kind, found, h⟩ := bind_eq_ok_iff.1 h
    cases h
    rw [resolve_eq_ok_iff] at found
    exact .setInput (checkCount_eq_ok_iff.1 count).2 fun t ht =>
      InputKind.isNamed_of_ofWord? (found.trans (congrArg some ht))
  | arity n =>
    obtain ⟨count, h⟩ := check_bind_eq_ok_iff.1 h
    cases h
    refine .ofInputs (.inl ?_) fun t ht => ?_
    · rw [length_resize]
      exact (checkCount_eq_ok_iff.1 count).2
    · rcases mem_resize ht with old | other
      · exact .inl old
      · cases other
  | plainInput =>
    cases h
    exact .setInput (by decide) fun t ht => by cases ht
  | plainOutput =>
    cases h
    exact .ofReturns fun t ht => by cases ht
  | booleanMath | sameType =>
    cases h
    exact
      { name := rfl
        arity := .inr rfl
        inputs := fun _ => .inl
        returns := fun _ => .inl }

/-- All annotations of a function together do no more than each of them may. -/
theorem alters_of_foldlM {as : List Annotation} (h : as.foldlM applyAnnotation op = .ok op') :
    Alters op op' :=
  foldlM_induction h (.refl op) fun _ _ _ step before =>
    before.trans (alters_of_annotation_ok step)

/-! ### One function -/

/-- The annotations of a function. -/
def Declaration.annotations (d : Declaration) : List Annotation :=
  d.comments.filterMap Annotation.ofComment?

/-- What the parameters of a function say of its operation. -/
def Declaration.unannotated (d : Declaration) : Operation where
  name := d.operationName
  inputs := declaredInputs d.params

/-- The count `n` that a function is refused for: the position of an input that there is none of, or
a number of inputs that is too large, in an annotation or in the parameters. All annotations before
it can be applied. -/
inductive Declaration.Miscounts (d : Declaration) (n : Nat) : Prop where
  | position {before after : List Annotation} {word : String} {op : Operation}
      (place : d.annotations = before ++ .inputType n word :: after)
      (earlier : before.foldlM applyAnnotation d.unannotated = .ok op) (illegal : n = 0 ∨ 3 < n)
  | arity {before after : List Annotation} {op : Operation}
      (place : d.annotations = before ++ .arity n :: after)
      (earlier : before.foldlM applyAnnotation d.unannotated = .ok op) (illegal : 3 < n)
  | parameters {op : Operation} (count : (inputKinds d.params).length = n)
      (earlier : d.annotations.foldlM applyAnnotation d.unannotated = .ok op) (illegal : 3 < n)

/-- A function describes what its annotations make of its parameters. -/
theorem annotated_eq_ok_iff : annotated d.operationName d = .ok op ↔
    d.annotations.foldlM applyAnnotation d.unannotated = .ok op ∧ op.inputs.length ≤ 3 := by
  rw [annotated, bind_eq_ok_iff]
  constructor
  · rintro ⟨described, hdescribed, h⟩
    obtain ⟨checked, hchecked, h⟩ := bind_eq_ok_iff.1 h
    obtain ⟨few, rfl⟩ := Operation.ofInputs_eq_ok_iff.1 hchecked
    cases h
    have name : described.name = d.operationName := (alters_of_foldlM hdescribed).name
    rw [← name]
    exact ⟨hdescribed, few⟩
  · rintro ⟨hdescribed, few⟩
    have name : op.name = d.operationName := (alters_of_foldlM hdescribed).name
    refine ⟨op, hdescribed, bind_eq_ok_iff.2 ⟨_, Operation.ofInputs_eq_ok_iff.2 ⟨few, rfl⟩, ?_⟩⟩
    rw [← name]
    rfl

/-- The annotation that is refused for its count. -/
theorem invalid_of_annotation_error {name : String} {n : Nat}
    (h : applyAnnotation op a = .error (.invalidArity name n)) : name = op.name ∧
      ((∃ word, a = .inputType n word ∧ (n = 0 ∨ 3 < n)) ∨ a = .arity n ∧ 3 < n) := by
  cases a with
  | returnType word =>
    rcases bind_eq_error_iff.1 h with h | ⟨_, _, h⟩
    · cases (resolve_eq_error_iff.1 h).2
    · cases h
  | inputType position word =>
    rcases bind_eq_error_iff.1 h with h | ⟨_, _, h⟩
    · obtain ⟨same, illegal⟩ := checkCount_eq_error_iff.1 h
      cases same
      exact ⟨rfl, .inl ⟨word, rfl, illegal.imp Nat.lt_one_iff.1 id⟩⟩
    · rcases bind_eq_error_iff.1 h with h | ⟨_, _, h⟩
      · cases (resolve_eq_error_iff.1 h).2
      · cases h
  | arity m =>
    rcases bind_eq_error_iff.1 h with h | ⟨_, _, h⟩
    · obtain ⟨same, illegal⟩ := checkCount_eq_error_iff.1 h
      cases same
      exact ⟨rfl, .inr ⟨rfl, illegal.resolve_left (Nat.not_lt_zero n)⟩⟩
    · cases h
  | plainInput | plainOutput | booleanMath | sameType => cases h

/-- A function is refused under its own name, for a count that it gives wrong. -/
theorem miscounts_of_annotated {name : String} {n : Nat}
    (h : annotated d.operationName d = .error (.invalidArity name n)) :
    name = d.operationName ∧ d.Miscounts n := by
  rcases bind_eq_error_iff.1 h with h | ⟨described, hdescribed, h⟩
  · obtain ⟨before, a, after, reached, place, earlier, fails⟩ := foldlM_eq_error_iff.1 h
    obtain ⟨own, ⟨word, rfl, illegal⟩ | ⟨rfl, illegal⟩⟩ := invalid_of_annotation_error fails
    · exact ⟨own.trans (alters_of_foldlM earlier).name, .position place earlier illegal⟩
    · exact ⟨own.trans (alters_of_foldlM earlier).name, .arity place earlier illegal⟩
  · rcases bind_eq_error_iff.1 h with h | ⟨_, _, h⟩
    · unfold Operation.ofInputs at h
      split at h
      · cases h
      · next many =>
        cases h
        -- Annotations leave no more inputs than there may be, so the parameters are too many.
        have many : 3 < described.inputs.length := Nat.lt_of_not_le many
        have declared : described.inputs.length = (declaredInputs d.params).length :=
          (alters_of_foldlM hdescribed).arity.resolve_left (Nat.not_le.2 many)
        have count : (inputKinds d.params).length = described.inputs.length :=
          (length_inputKinds_of_lt (declared ▸ many)).trans declared.symm
        exact ⟨rfl, .parameters count hdescribed many⟩
    · cases h

theorem miscounts_of_operation? {name : String} {n : Nat}
    (h : d.operation? = .error (.invalidArity name n)) :
    name = d.operationName ∧ d.Miscounts n := by
  unfold Declaration.operation? at h
  split at h
  · cases h
  · split at h
    · cases h
    · exact miscounts_of_annotated (map_eq_error_iff.1 h)

/-! ### The operation of a function -/

theorem isLower_toLower {c : Char} (h : c.isUpper = true) : c.toLower.isLower = true := by
  have range : 'A' ≤ c ∧ c ≤ 'Z' := of_decide_eq_true h
  have above : 65 ≤ c.toNat := UInt32.le_iff_toNat_le.1 range.1
  have below : c.toNat ≤ 90 := UInt32.le_iff_toNat_le.1 range.2
  have lowered : c.toLower.toNat = c.toNat + 32 := by
    have val : c.toLower.val = c.val + 32 := congrArg Char.val (dif_pos range)
    have sum : (c.val + 32).toNat = (c.toNat + 32) % 2 ^ 32 := UInt32.toNat_add c.val 32
    rw [Char.toNat, val, sum]
    omega
  have least : 'a'.toNat ≤ c.toLower.toNat := by
    rw [lowered]
    exact Nat.add_le_add_right above 32
  have greatest : c.toLower.toNat ≤ 'z'.toNat := by
    rw [lowered]
    exact Nat.add_le_add_right below 32
  exact Bool.and_eq_true_iff.2 ⟨decide_eq_true (UInt32.le_iff_toNat_le.2 least),
    decide_eq_true (UInt32.le_iff_toNat_le.2 greatest)⟩

/-- The name of an exported function starts with a capital, which becomes a small letter. -/
theorem exists_operationName (exported : d.isExported = true) :
    ∃ c cs, d.operationName.toList = c :: cs ∧ c.isLower = true := by
  obtain ⟨name, _, _⟩ := d
  cases name with
  | nil => cases exported
  | cons c cs =>
    have upper : c.isUpper = true := exported
    have alpha : c.isAlpha = true := Bool.or_eq_true_iff.2 (.inl upper)
    refine ⟨c.toLower, cs, ?_, isLower_toLower upper⟩
    rw [Declaration.operationName, Text.decapitalize_ofList (Unicode.toNat_lt_of_isAlpha alpha),
      String.toList_ofList]

theorem isCatalogued_sealing : sealing.IsCatalogued where
  name := ⟨'s', "ealoutput".toList, by decide, by decide⟩
  not_handWritten := by decide +kernel
  arity := by decide
  inputs s := by simp [sealing]
  returns s := by simp [sealing]
  sealing _ := ⟨rfl, rfl, rfl, rfl, rfl⟩

theorem isCatalogued_of_operation? (h : d.operation? = .ok (some op)) : op.IsCatalogued := by
  rcases eq_sealing_or_name_of_operation? h with rfl | ⟨ordinary, name⟩
  · exact isCatalogued_sealing
  · unfold Declaration.operation? at h
    split at h
    · cases h
    · next read =>
      rw [Bool.or_eq_true, not_or, Bool.not_eq_true', Bool.not_eq_false, Bool.not_eq_true] at read
      split at h
      · next alias' =>
        rw [name, alias'] at ordinary
        cases ordinary
      · obtain ⟨own, described, same⟩ := map_eq_ok_iff.1 h
        cases same
        obtain ⟨applied, arity⟩ := annotated_eq_ok_iff.1 described
        have altered := alters_of_foldlM applied
        exact
          { name := name ▸ exists_operationName read.1
            not_handWritten := by
              rw [name, ← Rules.isHandWritten_eq_true_iff, read.2]
              decide
            arity := arity
            inputs := fun s hs => (altered.inputs _ hs).elim
              (input_not_mem_declaredInputs d.params s) (ValueType.not_isNamed_input s)
            returns := fun s hs => (altered.returns _ hs).elim
              (fun declared => by cases declared) (ValueType.not_isNamed_input s)
            sealing := fun stands => by
              rw [isSealAlias_eq_true_iff.2 stands] at ordinary
              cases ordinary }

/-! ### Outcomes -/

/-- **Outcomes.** A catalog that is read has operations, all of them `IsCatalogued`, with different
names in the order in which these appear. A catalog that is refused for a count has a function that
gives a count there may not be, and before it only functions that are read. -/
theorem extract_outcome (text : String) :
    (∀ ops, extract text = .ok ops → ops ≠ [] ∧ (∀ op ∈ ops, op.IsCatalogued) ∧
      (ops.map Operation.name).Nodup ∧
      ∃ found, (declarations (Text.lines text.toList)).mapM Declaration.operation? = .ok found ∧
        InOrderOfAppearance (ops.map Operation.name) ((found.filterMap id).map Operation.name)) ∧
    ∀ name n, extract text = .error (.invalidArity name n) →
      ∃ before d after, declarations (Text.lines text.toList) = before ++ d :: after ∧
        (∀ earlier ∈ before, ∃ read, earlier.operation? = .ok read) ∧
        name = d.operationName ∧ d.Miscounts n := by
  refine ⟨fun ops h => ?_, fun name n h => ?_⟩
  · obtain ⟨found, read, rfl, nonempty⟩ := extract_eq_ok_iff.1 h
    refine ⟨nonempty, fun op hop => ?_, (inOrder_firstOfEachName _).nodup, found, read,
      inOrder_firstOfEachName _⟩
    obtain ⟨d, _, declared⟩ := exists_declaration_of_mem_extract h hop
    exact isCatalogued_of_operation? declared
  · obtain ⟨before, d, after, place, earlier, fails⟩ := mapM_eq_error_iff.1
      (mapM_eq_error_of_extract h fun own => by cases own)
    obtain ⟨own, miscounts⟩ := miscounts_of_operation? fails
    exact ⟨before, d, after, place, earlier, own, miscounts⟩

/-- A name that comes again, sealing under its other name, and an input that there is none of. -/
theorem extract_outcome_add_reencrypt :
    let text :=
      "func Add(a, b []byte) \x7b\x7d\nfunc Not(a []byte) \x7b\x7d\nfunc Add() \x7b\x7d\n"
    let ops : List Operation := [{ name := "add", inputs := [.encrypted, .encrypted] },
      { name := "not", inputs := [.encrypted] }]
    let sealed := "func Reencrypt(utype byte, value []byte, key []byte) \x7b\x7d\n"
    let wrong := "func Add() \x7b\x7d\n// Input0 type: ebool\nfunc Not() \x7b\x7d\n"
    extract text = .ok ops ∧ (∀ op ∈ ops, op.IsCatalogued) ∧
      (∃ op, extract sealed = .ok [op] ∧ op.name = "sealoutput" ∧
        op.inputs = [.encrypted, .fixed (.fixed .bytes32)] ∧
        op.returns = .explicit (.fixed .bytes) ∧ op.sameType = false ∧ op.boolean = false) ∧
      extract wrong = .error (.invalidArity "not" 0) ∧
      ∃ d ∈ declarations (Text.lines wrong.toList), "not" = d.operationName ∧ d.Miscounts 0 := by
  intro text ops sealed wrong
  have read : extract text = .ok ops := by decide +kernel
  have refused : extract wrong = .error (.invalidArity "not" 0) := by decide +kernel
  have alias' : sealing.name.toLower = "sealoutput" := by decide +kernel
  have seals := ((extract_outcome sealed).1 _ extract_reencrypt).2.1 sealing List.mem_cons_self
  obtain ⟨before, d, after, place, _, own, miscounts⟩ := (extract_outcome wrong).2 _ _ refused
  have listed : d ∈ declarations (Text.lines wrong.toList) := by
    rw [place]
    exact List.mem_append_right before List.mem_cons_self
  exact ⟨read, ((extract_outcome text).1 ops read).2.1,
    ⟨sealing, extract_reencrypt, seals.sealing (.inl alias')⟩, refused, d, listed, own, miscounts⟩

end Catalog

end FheSolidity
