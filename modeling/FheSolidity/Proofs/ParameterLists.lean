import FheSolidity.Proofs.Catalog.Parameters
import FheSolidity.Proofs.GuardPlacement

/-!
# Lists of parameters

A shape gives the names of a function's parameters and the signature their types, and the two are
paired where the function is declared. They are as many for every shape, so the header of the
function, and of every function that passes its parameters on, lists each input once, and so does
the call that passes them on: `parameters_listed`. What is listed is told by the printed text, read
from the parenthesis that opens a list to the one that closes it.
-/

namespace FheSolidity

open Solidity (Expr Header IsName Param Stmt isNameChar renderBlock)
open Unicode (isBlank)

namespace Solidity

/-- A text with a list of given entries in parentheses between `front` and `behind`. The list ends
at its first closing parenthesis, and what stands between its commas is read as the entries. -/
structure HoldsList (front : String) (entries : List String) (behind text : String) : Prop where
  printed : text = front ++ "(" ++ ", ".intercalate entries ++ ")" ++ behind
  noClose : ')' ∉ (", ".intercalate entries).toList
  fields_eq : Catalog.fields (", ".intercalate entries).toList = entries.map String.toList

/-- A text that can be an entry of a list: without white space around it, and without a character
that ends an entry. -/
structure IsEntry (x : String) : Prop where
  ne_nil : x.toList ≠ []
  trimmed : Text.trim x.toList = x.toList
  noComma : ',' ∉ x.toList
  noClose : ')' ∉ x.toList

variable {x front behind text : String} {entries : List String}

theorem IsEntry.fields_eq (h : IsEntry x) : Catalog.fields x.toList = [x.toList] := by
  rw [Catalog.fields, Text.pieces_eq_singleton h.noComma, List.map_singleton, h.trimmed,
    List.filter_cons, if_pos (decide_eq_true h.ne_nil), List.filter_nil]

theorem toList_intercalate_cons_cons (x y : String) (entries : List String) :
    (", ".intercalate (x :: y :: entries)).toList =
      x.toList ++ ',' :: ([' '] ++ (", ".intercalate (y :: entries)).toList) := by
  have comma : ", ".toList = [',', ' '] := rfl
  simp [String.intercalate_cons_cons, comma]

/-- Entries are found again between commas. -/
theorem fields_intercalate (h : ∀ x ∈ entries, IsEntry x) :
    Catalog.fields (", ".intercalate entries).toList = entries.map String.toList := by
  induction entries with
  | nil => rfl
  | cons x entries ih =>
    obtain ⟨first, later⟩ := List.forall_mem_cons.1 h
    cases entries with
    | nil => rw [String.intercalate_singleton, first.fields_eq, List.map_singleton]
    | cons y entries =>
      rw [toList_intercalate_cons_cons, Catalog.fields_append_cons,
        Catalog.fields_append_of_blank Catalog.blank_space, first.fields_eq, ih later]
      rfl

theorem close_not_mem_intercalate (h : ∀ x ∈ entries, IsEntry x) :
    ')' ∉ (", ".intercalate entries).toList := by
  induction entries with
  | nil => simp
  | cons x entries ih =>
    obtain ⟨first, later⟩ := List.forall_mem_cons.1 h
    cases entries with
    | nil => simpa using first.noClose
    | cons y entries =>
      rw [toList_intercalate_cons_cons]
      simpa [first.noClose] using ih later

/-- A list of entries is read back from its text. -/
theorem holdsList_intercalate (h : ∀ x ∈ entries, IsEntry x) (front behind : String) :
    HoldsList front entries behind (front ++ "(" ++ ", ".intercalate entries ++ ")" ++ behind) where
  printed := rfl
  noClose := close_not_mem_intercalate h
  fields_eq := fields_intercalate h

theorem HoldsList.append (h : HoldsList front entries behind text) (more : String) :
    HoldsList front entries (behind ++ more) (text ++ more) where
  printed := by rw [h.printed, String.append_assoc]
  noClose := h.noClose
  fields_eq := h.fields_eq

/-! ### Entries -/

theorem isBlank_of_isNameChar {c : Char} (h : isNameChar c = true) : isBlank c = false := by
  rcases Bool.or_eq_true_iff.1 h with alphanum | underscore
  · rcases Bool.or_eq_true_iff.1 alphanum with alpha | digit
    · exact Unicode.isBlank_of_isAlpha alpha
    · exact Unicode.isBlank_of_isDigit digit
  · rw [beq_iff_eq.1 underscore]
    decide

theorem IsName.isSolid (h : IsName x) : Text.IsSolid x.toList where
  ne_nil := h.ne_nil
  solid c hc := isBlank_of_isNameChar (h.chars c hc)

theorem IsName.isEntry (h : IsName x) : IsEntry x where
  ne_nil := h.ne_nil
  trimmed := h.isSolid.trim_eq_self
  noComma := h.not_mem (by decide)
  noClose := h.not_mem (by decide)

/-- A type is declared by its name, with a location behind it where one is needed. -/
theorem exists_declaration_eq (t : ValueType) :
    ∃ location ∈ ["", " memory"], t.declaration = t.name ++ location := by
  unfold ValueType.declaration ValueType.declaredAt
  split
  · exact ⟨" memory", by simp, String.append_assoc⟩
  · exact ⟨"", by simp, by simp⟩

/-- Only blanks part the names in a declared type. -/
theorem isNameChar_or_eq_of_mem_declaration {t : ValueType} {c : Char}
    (hc : c ∈ t.declaration.toList) : isNameChar c = true ∨ c = ' ' := by
  obtain ⟨location, hlocation, declared⟩ := exists_declaration_eq t
  rw [declared, String.toList_append, List.mem_append] at hc
  rcases hc with hc | hc
  · exact .inl (t.isName_name.chars c hc)
  · rcases List.mem_pair.1 hlocation with rfl | rfl
    · cases hc
    · have word : IsName "memory" := by decide
      have spaced : " memory".toList = ' ' :: "memory".toList := rfl
      rw [spaced, List.mem_cons] at hc
      rcases hc with blank | hc
      · exact .inr blank
      · exact .inl (word.chars c hc)

/-- A parameter as it is listed: its declared type and its name. -/
def Param.entry (p : Param) : String :=
  p.type.declaration ++ " " ++ p.name

theorem Param.isEntry_entry {p : Param} (h : IsName p.name) : IsEntry p.entry := by
  have text : p.entry.toList = (p.type.declaration.toList ++ [' ']) ++ p.name.toList := by
    simp [entry]
  have outside {c : Char} (other : isNameChar c = false) (apart : c ≠ ' ') :
      c ∉ p.entry.toList := by
    intro hc
    rw [text, List.mem_append, List.mem_append, List.mem_singleton] at hc
    rcases hc with (hc | hc) | hc
    · rcases isNameChar_or_eq_of_mem_declaration hc with own | blank
      · exact Bool.false_ne_true (other.symm.trans own)
      · exact apart blank
    · exact apart hc
    · exact h.not_mem other hc
  have first : ∀ c ∈ (p.type.declaration.toList ++ [' ']).head?, isBlank c = false := by
    obtain ⟨location, _, declared⟩ := exists_declaration_eq p.type
    rw [declared, String.toList_append, List.append_assoc]
    exact p.type.isName_name.isSolid.head_append _
  refine ⟨by simp [text], ?_, outside (by decide) (by decide), outside (by decide) (by decide)⟩
  rw [text]
  exact h.isSolid.trim_append first

/-- A header lists its parameters behind the name of the function. -/
theorem Header.exists_holdsList_render {h : Header} (location : h.location = .memory)
    (names : ∀ p ∈ h.params, IsName p.name) :
    ∃ behind, HoldsList ("function " ++ h.symbol) (h.params.map Param.entry) behind h.render := by
  have entries : h.params.map (Param.render h.location) = h.params.map Param.entry := by
    rw [location]
    rfl
  have listed : ∀ x ∈ h.params.map Param.entry, IsEntry x := by
    intro x hx
    obtain ⟨p, hp, rfl⟩ := List.mem_map.1 hx
    exact Param.isEntry_entry (names p hp)
  have printed := holdsList_intercalate listed ("function " ++ h.symbol) ""
  rw [String.append_empty, ← entries] at printed
  rw [← entries]
  exact ⟨_, ((printed.append _).append _).append _⟩

end Solidity

namespace RenderedFunction

open Solidity (HoldsList)

variable {f : RenderedFunction}

/-- The parameters of a forwarding function are those of the function that it calls. -/
theorem params_forwarder (h : f.signature.render = .ok f) (symbol target : String)
    (visibility : Option String) :
    (f.forwarder symbol target visibility).header.params = f.decl.header.params := by
  rw [decl_of_render h]
  rfl

/-- A forwarding function is one call, which passes the parameters on by their names. -/
theorem holdsList_body_forwarder (names : ∀ x ∈ f.paramNames, IsName x)
    (symbol target indent : String) (visibility : Option String) :
    HoldsList (indent ++ (if f.signature.returns.isSome then "return " else "") ++ target)
      f.paramNames ";\n" (renderBlock indent (f.forwarder symbol target visibility).body) := by
  have arguments : Expr.renderAll (f.paramNames.map .name) = f.paramNames := by
    rw [Expr.renderAll_eq_map, List.map_map]
    exact List.map_id _
  have listed (front : String) := Solidity.holdsList_intercalate
    (fun x hx => (names x hx).isEntry) front ";\n"
  rw [forwarder]
  cases f.signature.returns with
  | none =>
    simpa [Solidity.renderBlock_singleton, Stmt.render, Expr.render, Expr.apply, arguments,
      String.append_assoc] using listed (indent ++ target)
  | some t =>
    simpa [Solidity.renderBlock_singleton, Stmt.render, Expr.render, Expr.apply, arguments,
      String.append_assoc] using listed (indent ++ "return " ++ target)

end RenderedFunction

namespace Signature

open Solidity (HoldsList)

variable {sig : Signature} {shape : Shape}

/-- **Every input is listed.** The names that a shape gives to parameters are different, and as many
as the inputs of every signature with that shape. So the parameters of the function have all inputs
as their types and all names as their names, in their order; its header, and that of every function
that passes its parameters on, lists them all, each as its declared type and its name; and what is
passed on are these names in this order. -/
theorem parameters_listed (h : sig.shape = .ok shape) :
    let f := sig.renderAs shape
    let params := f.decl.header.params
    sig.render = .ok f ∧ shape.paramNames.Nodup ∧ shape.paramNames.length = sig.inputs.length ∧
      params.map Param.type = sig.inputs ∧ params.map Param.name = shape.paramNames ∧
      (∃ behind, HoldsList ("function " ++ sig.symbol) (params.map Param.entry) behind
        f.decl.header.render) ∧
      ∀ symbol target visibility indent,
        let g := f.forwarder symbol target visibility
        (∃ behind, HoldsList ("function " ++ symbol) (params.map Param.entry) behind
          g.header.render) ∧
        HoldsList (indent ++ (if sig.returns.isSome then "return " else "") ++ target)
          shape.paramNames ";\n" (renderBlock indent g.body) := by
  intro f params
  have rendered : f.signature.render = .ok f := render_eq_ok_iff.2 ⟨shape, h, rfl⟩
  have names : ∀ p ∈ params, IsName p.name := fun p hp =>
    (RenderedFunction.isName_of_mem_params rendered hp).1
  refine ⟨rendered, shape.nodup_paramNames, length_paramNames_of_shape h,
    RenderedFunction.paramTypes_decl rendered, RenderedFunction.names_params_decl rendered,
    Solidity.Header.exists_holdsList_render rfl names, ?_⟩
  intro symbol target visibility indent g
  have same : g.header.params = params :=
    RenderedFunction.params_forwarder rendered symbol target visibility
  constructor
  · rw [← same] at names ⊢
    exact Solidity.Header.exists_holdsList_render rfl names
  · exact RenderedFunction.holdsList_body_forwarder (f := f)
      (fun x hx => (Shape.isName_of_mem_paramNames hx).1) symbol target indent visibility

/-- Sealing under a key that is a byte string, and the method that passes on to it. -/
theorem parameters_listed_sealoutput :
    let sig := Signature.ofOperation "sealoutput" [.encrypted .uint8, .fixed .bytes]
      (some (.fixed .bytes))
    ∃ shape, sig.shape = .ok shape ∧
      (∃ behind, HoldsList "function sealoutput" ["euint8 value", "bytes memory publicKey"] behind
        (sig.renderAs shape).decl.header.render) ∧
      HoldsList "        return FHE.sealoutput" ["value", "publicKey"] ";\n"
        (renderBlock "        " (((sig.renderAs shape).forwarder "sealoutput" "FHE.sealoutput"
          (some "internal")).body)) := by
  intro sig
  have planned : sig.shape = .ok _ := rfl
  obtain ⟨_, _, _, _, _, header, passes⟩ := parameters_listed planned
  exact ⟨_, planned, header,
    (passes "sealoutput" "FHE.sealoutput" (some "internal") "        ").2⟩

end Signature

end FheSolidity
