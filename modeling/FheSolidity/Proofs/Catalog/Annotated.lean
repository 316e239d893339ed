import FheSolidity.Catalog.Extract
import FheSolidity.Proofs.Catalog.Comments
import FheSolidity.Proofs.Catalog.Declarations
import FheSolidity.Proofs.Steps

/-!
# Operations written as annotations

`Operation.annotations` says everything about an operation but its name: how many inputs there are,
the kind of each, the result and the two flags. Read one after another, the annotations turn what
the parameters of every operation declare into this operation: `annotated_eq_ok`. The word for a
kind is read as the kind it was written for, as far as annotations have a word for its type
(`ValueType.IsNamed`); the seed and the structs of ciphertexts have none.
-/

namespace FheSolidity

open Text (IsSolid)

/-! ### Words -/

namespace ValueType

/-- Whether annotations have a word for a type. -/
def IsNamed (t : ValueType) : Prop :=
  ∃ word, ofName? word = some t

/-- The types that annotations have words for. -/
def named : List ValueType :=
  Scalar.all.map .encrypted ++ Scalar.all.map .plain ++ SealFamily.all.map (.fixed ∘ .sealed) ++
    [.fixed .bytes32, .fixed .bytes, .fixed .zone]

theorem IsNamed.mem_named {t : ValueType} (h : t.IsNamed) : t ∈ named := by
  obtain ⟨word, h⟩ := h
  simp only [ofName?, Option.orElse_eq_orElse, Option.orElse_eq_or, Option.or_eq_some_iff,
    Option.map_eq_some_iff] at h
  rcases h with ⟨s, _, rfl⟩ | ⟨_, ⟨s, _, rfl⟩ | ⟨_, h⟩⟩
  · simp [named, s.mem_all]
  · simp [named, s.mem_all]
  · split at h
    · cases h
      decide
    · cases h
      decide
    · cases h
      decide
    · cases h
      decide
    · obtain ⟨f, _, rfl⟩ := Option.map_eq_some_iff.1 h
      cases f <;> decide

theorem isSolid_name (t : ValueType) : IsSolid t.name.toList := by
  match t with
  | .encrypted s | .plain s | .fixed (.input s) => cases s <;> decide
  | .fixed (.sealed f) => cases f <;> decide
  | .fixed .bytes32 | .fixed .bytes | .fixed .seed | .fixed .zone => decide

end ValueType

theorem InputKind.isSolid_name (kind : InputKind) : IsSolid kind.name.toList := by
  cases kind with
  | encrypted | plain => decide
  | fixed t => exact t.isSolid_name

/-- A kind is read from its name. -/
theorem InputKind.ofWord?_name {kind : InputKind} (h : ∀ t, kind = .fixed t → t.IsNamed) :
    ofWord? kind.name = some kind := by
  cases kind with
  | encrypted | plain => decide +kernel
  | fixed t =>
    have read : ∀ t ∈ ValueType.named, ofWord? t.name = some (fixed t) := by decide +kernel
    exact read t (h t rfl).mem_named

namespace ReturnKind

/-- A return kind as an annotation has it. -/
def word : ReturnKind → String
  | .encrypted => "encrypted"
  | .plain => "plaintext"
  | .nothing => "none"
  | .explicit t => t.name

theorem isSolid_word (kind : ReturnKind) : IsSolid kind.word.toList := by
  cases kind with
  | encrypted | plain | nothing => decide
  | explicit t => exact t.isSolid_name

/-- A return kind is read from its word. -/
theorem ofWord?_word {kind : ReturnKind} (h : ∀ t, kind = .explicit t → t.IsNamed) :
    ofWord? kind.word = some kind := by
  cases kind with
  | encrypted | plain | nothing => decide +kernel
  | explicit t =>
    have read : ∀ t ∈ ValueType.named, ofWord? t.name = some (explicit t) := by decide +kernel
    exact read t (h t rfl).mem_named

end ReturnKind

/-! ### The annotations of an operation -/

/-- The annotations of inputs, of which the first stands at `position`. -/
def inputAnnotations (position : Nat) : List InputKind → List Catalog.Annotation
  | [] => []
  | kind :: kinds => .inputType position kind.name :: inputAnnotations (position + 1) kinds

namespace Operation

/-- The annotations of the flags. -/
def flagAnnotations (op : Operation) : List Catalog.Annotation :=
  (if op.boolean then [.booleanMath] else []) ++ if op.sameType then [.sameType] else []

/-- The annotations that say all about an operation but its name. -/
def annotations (op : Operation) : List Catalog.Annotation :=
  .arity op.arity ::
    (inputAnnotations 1 op.inputs ++ .returnType op.returns.word :: op.flagAnnotations)

/-- What an operation needs for annotations to describe it: no more inputs than there may be, and
types that annotations have words for. -/
structure IsDescribable (op : Operation) : Prop where
  arity : op.arity ≤ maxArity
  inputs : ∀ t, .fixed t ∈ op.inputs → t.IsNamed
  returns : ∀ t, op.returns = .explicit t → t.IsNamed

end Operation

namespace Catalog

open Operation (maxArity)

variable {op op' op'' : Operation} {as bs : List Annotation}

theorem isSayable_of_mem_inputAnnotations {kinds : List InputKind} {position : Nat}
    (h : position + kinds.length ≤ Text.maxCount) :
    ∀ a ∈ inputAnnotations position kinds, a.IsSayable := by
  induction kinds generalizing position with
  | nil => simp [inputAnnotations]
  | cons kind kinds ih =>
    rw [List.length_cons] at h
    intro a ha
    rcases List.mem_cons.1 ha with rfl | ha
    · exact ⟨by omega, kind.isSolid_name⟩
    · exact ih (by omega) a ha

theorem isSayable_of_mem_flagAnnotations : ∀ a ∈ op.flagAnnotations, a.IsSayable := by
  obtain ⟨name, inputs, returns, sameType, boolean⟩ := op
  cases sameType <;> cases boolean <;> simp [Operation.flagAnnotations, Annotation.IsSayable]

/-- Comments can say the annotations of an operation. -/
theorem isSayable_of_mem_annotations (h : op.IsDescribable) :
    ∀ a ∈ op.annotations, a.IsSayable := by
  have few : op.arity ≤ 3 := h.arity
  have count : op.arity + 1 ≤ Text.maxCount := Nat.le_trans (by omega) (by decide : 4 ≤ Text.maxCount)
  intro a ha
  rw [Operation.annotations, List.mem_cons, List.mem_append, List.mem_cons] at ha
  rcases ha with rfl | ha | rfl | ha
  · exact Nat.le_of_succ_le count
  · exact isSayable_of_mem_inputAnnotations (by rw [Nat.add_comm]; exact count) a ha
  · exact op.returns.isSolid_word
  · exact isSayable_of_mem_flagAnnotations a ha

/-! ### Reading them -/

theorem resize_length (inputs : List InputKind) : resize inputs.length inputs = inputs := by
  simp [resize]

/-- A kind that is set takes the place of the one before. -/
theorem setInput_append (done rest : List InputKind) (old new : InputKind) :
    setInput (done.length + 1) new (done ++ old :: rest) = done ++ new :: rest := by
  have whole : max (done.length + 1) (done ++ old :: rest).length = (done ++ old :: rest).length := by
    rw [List.length_append, List.length_cons]
    omega
  rw [setInput, whole, resize_length]
  simp

theorem applyAnnotation_arity {n : Nat} (h : n ≤ maxArity) :
    applyAnnotation op (.arity n) = .ok { op with inputs := resize n op.inputs } := by
  have count : checkCount op.name 0 n = .ok () := if_pos ⟨n.zero_le, h⟩
  exact check_bind_eq_ok_iff.2 ⟨count, rfl⟩

theorem applyAnnotation_inputType {position : Nat} {kind : InputKind} (low : 1 ≤ position)
    (high : position ≤ maxArity) (named : ∀ t, kind = .fixed t → t.IsNamed) :
    applyAnnotation op (.inputType position kind.name) =
      .ok { op with inputs := setInput position kind op.inputs } := by
  have count : checkCount op.name 1 position = .ok () := if_pos ⟨low, high⟩
  have resolved : resolve op.name kind.name (InputKind.ofWord? kind.name) = .ok kind := by
    rw [InputKind.ofWord?_name named, resolve]
  exact check_bind_eq_ok_iff.2 ⟨count, bind_eq_ok_iff.2 ⟨kind, resolved, rfl⟩⟩

theorem applyAnnotation_returnType {kind : ReturnKind}
    (named : ∀ t, kind = .explicit t → t.IsNamed) :
    applyAnnotation op (.returnType kind.word) = .ok { op with returns := kind } := by
  have resolved : resolve op.name kind.word (ReturnKind.ofWord? kind.word) = .ok kind := by
    rw [ReturnKind.ofWord?_word named, resolve]
  exact bind_eq_ok_iff.2 ⟨kind, resolved, rfl⟩

theorem foldlM_cons_eq_ok {a : Annotation} (first : applyAnnotation op a = .ok op')
    (later : as.foldlM applyAnnotation op' = .ok op'') :
    (a :: as).foldlM applyAnnotation op = .ok op'' := by
  rw [List.foldlM_cons, first]
  exact later

theorem foldlM_append_eq_ok (first : as.foldlM applyAnnotation op = .ok op')
    (later : bs.foldlM applyAnnotation op' = .ok op'') :
    (as ++ bs).foldlM applyAnnotation op = .ok op'' := by
  rw [List.foldlM_append, first]
  exact later

/-- The annotations of inputs replace encrypted ones from the left. -/
theorem foldlM_inputAnnotations {kinds : List InputKind} (done : List InputKind)
    (fits : done.length + kinds.length ≤ maxArity) (named : ∀ t, .fixed t ∈ kinds → t.IsNamed) :
    (inputAnnotations (done.length + 1) kinds).foldlM applyAnnotation
        { op with inputs := done ++ List.replicate kinds.length .encrypted } =
      .ok { op with inputs := done ++ kinds } := by
  -- The kinds in front of the position are the ones that are already set.
  induction kinds generalizing done with
  | nil => rfl
  | cons kind kinds ih =>
    rw [List.length_cons] at fits
    have set : setInput (done.length + 1) kind
        (done ++ List.replicate (kind :: kinds).length .encrypted) =
          (done ++ [kind]) ++ List.replicate kinds.length .encrypted := by
      rw [List.length_cons, List.replicate_succ, setInput_append, List.append_assoc,
        List.singleton_append]
    have namedKind : ∀ t, kind = .fixed t → t.IsNamed := fun t ht =>
      named t (ht ▸ List.mem_cons_self)
    refine foldlM_cons_eq_ok (applyAnnotation_inputType (by omega) (by omega) namedKind) ?_
    rw [set]
    have later := ih (done ++ [kind]) (by rw [List.length_append, List.length_singleton]; omega)
      fun t ht => named t (List.mem_cons_of_mem kind ht)
    rwa [List.length_append, List.length_singleton, List.append_assoc done [kind] kinds,
      List.singleton_append] at later

/-- The flags are set one by one. -/
theorem foldlM_flagAnnotations (op : Operation) :
    op.flagAnnotations.foldlM applyAnnotation { op with sameType := false, boolean := false } =
      .ok op := by
  obtain ⟨name, inputs, returns, sameType, boolean⟩ := op
  cases sameType <;> cases boolean <;> rfl

theorem resize_replicate (n m : Nat) :
    resize n (List.replicate m .encrypted) = List.replicate n .encrypted := by
  rw [resize, List.take_replicate, List.length_replicate, List.replicate_append_replicate]
  congr 1
  omega

/-- The annotations of an operation turn the inputs that every operation starts with into it. -/
theorem foldlM_annotations (h : op.IsDescribable) :
    op.annotations.foldlM applyAnnotation
      { name := op.name, inputs := List.replicate maxArity .encrypted } = .ok op := by
  refine foldlM_cons_eq_ok (applyAnnotation_arity h.arity) ?_
  rw [resize_replicate]
  refine foldlM_append_eq_ok (foldlM_inputAnnotations [] ?_ h.inputs) ?_
  · rw [List.length_nil, Nat.zero_add]
    exact h.arity
  · exact foldlM_cons_eq_ok (applyAnnotation_returnType h.returns) (foldlM_flagAnnotations op)

/-- Comments that say annotations are read as these. -/
theorem filterMap_ofComment?_map_comment (h : ∀ a ∈ as, a.IsSayable) :
    (as.map Annotation.comment).filterMap Annotation.ofComment? = as := by
  induction as with
  | nil => rfl
  | cons a as ih =>
    have read := Annotation.ofComment?_comment (h a List.mem_cons_self)
    rw [List.map_cons, List.filterMap_cons_some read,
      ih fun a' ha' => h a' (List.mem_cons_of_mem a ha')]

/-- The parameters that every operation has declare no input. -/
theorem declaredInputs_plumbing :
    declaredInputs plumbing = List.replicate maxArity .encrypted := by
  decide +kernel

/-- A declaration with the annotations of an operation describes this operation. -/
theorem annotated_eq_ok (h : op.IsDescribable) (name : List Char) :
    annotated op.name ⟨name, plumbing, op.annotations.map Annotation.comment⟩ = .ok op := by
  have described : ((op.annotations.map Annotation.comment).filterMap
      Annotation.ofComment?).foldlM applyAnnotation
        { name := op.name, inputs := declaredInputs plumbing } = .ok op := by
    rw [filterMap_ofComment?_map_comment (isSayable_of_mem_annotations h), declaredInputs_plumbing]
    exact foldlM_annotations h
  have checked : Operation.ofInputs op.name op.inputs =
      .ok { name := op.name, inputs := op.inputs } := Operation.ofInputs_eq_ok_iff.2 ⟨h.arity, rfl⟩
  rw [annotated]
  exact bind_eq_ok_iff.2 ⟨op, described, bind_eq_ok_iff.2 ⟨_, checked, rfl⟩⟩

end Catalog

end FheSolidity
