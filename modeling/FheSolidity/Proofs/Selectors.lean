import FheSolidity.Proofs.Names
import FheSolidity.Proofs.Text
import FheSolidity.Signature
import Mathlib.Data.List.Forall2

/-!
# Selectors

A selector is made of names and of characters that stand in no name, so it can be taken apart into
its names again: two functions with one selector are one overload. The name of a type tells the type
apart from the seed of a generator, which is written like a scalar: `selectors_tell_overloads`.
-/

namespace FheSolidity

namespace Solidity

/-- Whether a character may stand in a name. -/
def isNameChar (c : Char) : Bool :=
  c.isAlphanum || c == '_'

/-- A text that can be a name, apart from how it starts. -/
structure IsName (x : String) : Prop where
  ne_nil : x.toList ≠ []
  chars : ∀ c ∈ x.toList, isNameChar c = true

instance {x : String} : Decidable (IsName x) :=
  decidable_of_iff (x.toList ≠ [] ∧ x.toList.all isNameChar = true)
    ⟨fun h => ⟨h.1, List.all_eq_true.1 h.2⟩, fun h => ⟨h.1, List.all_eq_true.2 h.2⟩⟩

variable {x y : String}

theorem IsName.append (hx : IsName x) (hy : IsName y) : IsName (x ++ y) where
  ne_nil := by simp [hx.ne_nil]
  chars c hc := by
    rw [String.toList_append, List.mem_append] at hc
    exact hc.elim (hx.chars c) (hy.chars c)

theorem IsName.not_mem (hx : IsName x) {c : Char} (hc : isNameChar c = false) : c ∉ x.toList := by
  intro h
  rw [hx.chars c h] at hc
  cases hc

/-- A name in front of a character that stands in none is told by the whole text. -/
theorem IsName.append_cons_inj (hx : IsName x) (hy : IsName y) {c d : Char} {cs ds : List Char}
    (hc : isNameChar c = false) (hd : isNameChar d = false) :
    x.toList ++ c :: cs = y.toList ++ d :: ds ↔ x = y ∧ c = d ∧ cs = ds := by
  rw [Text.append_cons_inj hx.chars hy.chars hc hd, String.toList_inj]

/-- Whether a character stands for itself in a string literal: it is visible or a blank, and neither
the quote nor the backslash. -/
def isLiteralChar (c : Char) : Bool :=
  0x20 ≤ c.toNat && c.toNat < 0x7F && c.toNat != 0x22 && c.toNat != 0x5C

/-- A text that stands for itself in a string literal. -/
def IsLiteral (x : String) : Prop :=
  ∀ c ∈ x.toList, isLiteralChar c = true

instance {x : String} : Decidable (IsLiteral x) :=
  decidable_of_iff (x.toList.all isLiteralChar = true) List.all_eq_true

theorem IsLiteral.append (hx : IsLiteral x) (hy : IsLiteral y) : IsLiteral (x ++ y) := by
  intro c hc
  rw [String.toList_append, List.mem_append] at hc
  exact hc.elim (hx c) (hy c)

theorem isLiteralChar_of_between {c low high : Char} (above : low ≤ c) (below : c ≤ high)
    (first : 0x22 < low.toNat) (last : high.toNat < 0x7F)
    (apart : high.toNat < 0x5C ∨ 0x5C < low.toNat) : isLiteralChar c = true := by
  have least : low.toNat ≤ c.toNat := UInt32.le_iff_toNat_le.1 above
  have greatest : c.toNat ≤ high.toNat := UInt32.le_iff_toNat_le.1 below
  simp only [isLiteralChar, Bool.and_eq_true, decide_eq_true_eq, bne_iff_ne]
  omega

theorem isLiteralChar_of_isNameChar {c : Char} (h : isNameChar c = true) :
    isLiteralChar c = true := by
  rcases Bool.or_eq_true_iff.1 h with alphanum | underscore
  · rcases Bool.or_eq_true_iff.1 alphanum with alpha | digit
    · rcases Bool.or_eq_true_iff.1 alpha with upper | lower
      · have bounds : 'A' ≤ c ∧ c ≤ 'Z' := of_decide_eq_true upper
        exact isLiteralChar_of_between bounds.1 bounds.2 (by decide) (by decide) (by decide)
      · have bounds := Bool.and_eq_true_iff.1 lower
        have above : 'a' ≤ c := of_decide_eq_true bounds.1
        have below : c ≤ 'z' := of_decide_eq_true bounds.2
        exact isLiteralChar_of_between above below (by decide) (by decide) (by decide)
    · have bounds := Bool.and_eq_true_iff.1 digit
      have above : '0' ≤ c := of_decide_eq_true bounds.1
      have below : c ≤ '9' := of_decide_eq_true bounds.2
      exact isLiteralChar_of_between above below (by decide) (by decide) (by decide)
  · rw [beq_iff_eq.1 underscore]
    decide

theorem IsName.isLiteral (hx : IsName x) : IsLiteral x := fun c hc =>
  isLiteralChar_of_isNameChar (hx.chars c hc)

end Solidity

open Solidity (IsName IsLiteral)

theorem Scalar.isName_encryptedTitle (s : Scalar) : IsName s.encryptedTitle := by
  cases s <;> decide

theorem ValueType.isName_name (t : ValueType) : IsName t.name := by
  cases t with
  | encrypted s | plain s => cases s <;> decide
  | fixed t =>
    cases t with
    | bytes32 | bytes | seed | zone => decide
    | input s => cases s <;> decide
    | sealed f => cases f <;> decide

theorem Dispatcher.isName_of_mem_functionIds {n : String} (h : n ∈ functionIds) : IsName n := by
  revert n
  decide +kernel

/-- Every function of an operation that the dispatcher knows is called by a name. -/
theorem Operation.HasSymbol.isName {op : Operation} {x : String}
    (known : op.name ∈ Dispatcher.functionIds) (h : op.HasSymbol x) : IsName x := by
  cases h with
  | own => exact Dispatcher.isName_of_mem_functionIds known
  | tagged => decide
  | generated s => exact (Dispatcher.isName_of_mem_functionIds known).append s.isName_encryptedTitle

/-- A name with a list of types behind it. -/
def selectorText (symbol : String) (inputs : List ValueType) : String :=
  symbol ++ "(" ++ ",".intercalate (inputs.map ValueType.name) ++ ")"

theorem toList_selectorText (symbol : String) (inputs : List ValueType) :
    (selectorText symbol inputs).toList = symbol.toList ++
      '(' :: (Text.joinWith ',' ((inputs.map ValueType.name).map String.toList) ++ [')']) := by
  have comma : ",".toList = [','] := rfl
  simp [selectorText, Text.toList_intercalate comma]

/-- Names between commas are taken apart again. -/
theorem joinWith_names_inj {ts us : List ValueType} :
    Text.joinWith ',' ((ts.map ValueType.name).map String.toList) =
        Text.joinWith ',' ((us.map ValueType.name).map String.toList) ↔
      ts.map ValueType.name = us.map ValueType.name := by
  have pieces (ts : List ValueType) : ∀ p ∈ (ts.map ValueType.name).map String.toList,
      p ≠ [] ∧ ',' ∉ p := by
    intro p hp
    obtain ⟨_, hx, rfl⟩ := List.mem_map.1 hp
    obtain ⟨t, _, rfl⟩ := List.mem_map.1 hx
    exact ⟨t.isName_name.ne_nil, t.isName_name.not_mem (by decide)⟩
  rw [Text.joinWith_inj (pieces ts) (pieces us)]
  exact (List.map_injective_iff.2 fun _ _ => String.toList_inj.1).eq_iff

/-- What stands in a list of types is a comma or belongs to the name of a type. -/
theorem eq_comma_or_mem_name {ts : List ValueType} {c : Char}
    (h : c ∈ Text.joinWith ',' ((ts.map ValueType.name).map String.toList)) :
    c = ',' ∨ ∃ t : ValueType, c ∈ t.name.toList := by
  rcases Text.mem_joinWith h with comma | ⟨_, hp, hc⟩
  · exact .inl comma
  · obtain ⟨_, hname, rfl⟩ := List.mem_map.1 hp
    obtain ⟨t, _, rfl⟩ := List.mem_map.1 hname
    exact .inr ⟨t, hc⟩

theorem opening_not_mem_types (ts : List ValueType) :
    '(' ∉ Text.joinWith ',' ((ts.map ValueType.name).map String.toList) ++ [')'] := by
  rw [List.mem_append, List.mem_singleton, not_or]
  refine ⟨fun mem => ?_, by decide⟩
  rcases eq_comma_or_mem_name mem with comma | ⟨t, mem⟩
  · cases comma
  · exact t.isName_name.not_mem (by decide) mem

/-- The last opening parenthesis ends the name, since none stands among the types. -/
theorem selectorText_inj {x y : String} {ts us : List ValueType} :
    selectorText x ts = selectorText y us ↔
      x = y ∧ ts.map ValueType.name = us.map ValueType.name := by
  rw [← String.toList_inj, toList_selectorText, toList_selectorText,
    Text.append_cons_inj_of_not_mem (opening_not_mem_types ts) (opening_not_mem_types us),
    String.toList_inj, List.append_left_inj, joinWith_names_inj]

theorem isLiteral_selectorText {x : String} (hx : IsName x) (ts : List ValueType) :
    IsLiteral (selectorText x ts) := by
  intro c hc
  rw [toList_selectorText, List.mem_append, List.mem_cons, List.mem_append,
    List.mem_singleton] at hc
  rcases hc with hc | rfl | hc | rfl
  · exact hx.isLiteral c hc
  · decide
  · rcases eq_comma_or_mem_name hc with rfl | ⟨t, hc⟩
    · decide
    · exact t.isName_name.isLiteral c hc
  · decide

/-- The selector of a function tells the overload. -/
theorem Signature.selector_inj {sig sig' : Signature} :
    sig.selector = sig'.selector ↔ sig.overloadKey = sig'.overloadKey := by
  rw [overloadKey, overloadKey, OverloadKey.mk.injEq]
  exact selectorText_inj

/-! ### What an overload tells of the types -/

namespace ValueType

/-- Two value types that are one, or the seed of a generator and a `uint64` in the clear. -/
inductive SameButSeed : ValueType → ValueType → Prop where
  | refl (t : ValueType) : SameButSeed t t
  | seed : SameButSeed (.fixed .seed) (.plain .uint64)
  | word : SameButSeed (.plain .uint64) (.fixed .seed)

variable {t u v : ValueType}

theorem SameButSeed.symm (h : t.SameButSeed u) : u.SameButSeed t := by
  cases h with
  | refl => exact .refl t
  | seed => exact .word
  | word => exact .seed

theorem SameButSeed.trans (h : t.SameButSeed u) (h' : u.SameButSeed v) : t.SameButSeed v := by
  cases h with
  | refl => exact h'
  | seed =>
    cases h' with
    | refl => exact .seed
    | word => exact .refl _
  | word =>
    cases h' with
    | refl => exact .word
    | seed => exact .refl _

/-- A name is read as the type that has it, but never as the seed. -/
theorem sameButSeed_of_ofName? (h : ofName? t.name = some u) : t.SameButSeed u := by
  cases t with
  | encrypted s =>
    rw [ofName?_encrypted, Option.some_inj] at h
    exact h ▸ .refl _
  | plain s =>
    rw [ofName?_plain, Option.some_inj] at h
    exact h ▸ .refl _
  | fixed t =>
    cases t with
    | bytes32 | bytes | zone =>
      cases h
      exact .refl _
    | seed =>
      cases h
      exact .seed
    | input s => cases s <;> cases h
    | sealed f =>
      cases f <;> cases h <;> exact .refl _

/-- Only the structs that carry ciphertexts have names that are not read. -/
theorem exists_input_of_ofName?_eq_none (h : ofName? t.name = none) : ∃ s, t = .fixed (.input s) := by
  cases t with
  | encrypted s => simp [ofName?_encrypted] at h
  | plain s => simp [ofName?_plain] at h
  | fixed t =>
    cases t with
    | input s => exact ⟨s, rfl⟩
    | bytes32 | bytes | seed | zone => cases h
    | sealed f => cases f <;> cases h

/-- A name tells the type, apart from the seed. -/
theorem name_eq_name_iff : t.name = u.name ↔ t.SameButSeed u := by
  constructor
  · intro same
    cases read : ofName? u.name with
    | some v =>
      have own : t.SameButSeed v := sameButSeed_of_ofName? (same ▸ read)
      exact own.trans (sameButSeed_of_ofName? read).symm
    | none =>
      obtain ⟨a, rfl⟩ := exists_input_of_ofName?_eq_none (same ▸ read)
      obtain ⟨b, rfl⟩ := exists_input_of_ofName?_eq_none read
      have title : a = b := (Scalar.append_encryptedTitle_inj.1 same).2
      exact title ▸ .refl _
  · intro same
    cases same with
    | refl => rfl
    | seed => exact name_seed
    | word => exact name_seed.symm

end ValueType

/-- **What selectors and overloads tell.** Two functions have one selector exactly if they are one
overload, whatever characters stand in their names; and they are one overload exactly if they have
one name and the same number of inputs, and at each position the same type, where the seed of a
generator counts as a `uint64` in the clear. -/
theorem Signature.selectors_tell_overloads (sig sig' : Signature) :
    (sig.selector = sig'.selector ↔ sig.overloadKey = sig'.overloadKey) ∧
      (sig.overloadKey = sig'.overloadKey ↔
        sig.symbol = sig'.symbol ∧ sig.inputs.length = sig'.inputs.length ∧
          ∀ i (h : i < sig.inputs.length) (h' : i < sig'.inputs.length),
            sig.inputs[i].SameButSeed sig'.inputs[i]) := by
  refine ⟨selector_inj, ?_⟩
  rw [overloadKey, overloadKey, OverloadKey.mk.injEq]
  refine and_congr_right fun _ => ?_
  rw [← List.forall₂_eq_eq_eq, List.forall₂_map_left_iff, List.forall₂_map_right_iff,
    List.forall₂_iff_get]
  simp only [ValueType.name_eq_name_iff, List.get_eq_getElem]

end FheSolidity
