import FheSolidity.Catalog.Params
import FheSolidity.Proofs.Lists
import FheSolidity.Proofs.Text
import Mathlib.Data.List.Forall2

/-!
# Groups of parameters

Neighbouring parameters of one type are written as a group: the names with commas between them, and
the type behind the last (`ParamGroup`). White space may stand around every name and every type. A
list of groups is read as its names in their order, each with the type of its group, so how the
names of one type are grouped makes no difference: `inputKinds_grouped`.
-/

namespace FheSolidity.Catalog

open Text (IsSolid joinWith trim)
open Unicode (isBlank)

/-! ### The parts of a list -/

/-- The parameters of a list as they are written, without the white space around them. -/
def fields (text : List Char) : List (List Char) :=
  ((Text.pieces ',' text).map trim).filter (· ≠ [])

theorem params_eq (text : List Char) : params text = ((fields text).foldr consParam ([], none)).1 :=
  rfl

theorem blank_space : ∀ c ∈ [' '], isBlank c = true :=
  List.forall_mem_singleton.2 Unicode.isBlank_space

theorem blank_tab : ∀ c ∈ ['\t'], isBlank c = true :=
  List.forall_mem_singleton.2 (by decide)

theorem noComma_of_blank {bs : List Char} (h : ∀ c ∈ bs, isBlank c = true) : ',' ∉ bs := fun mem =>
  have solid : isBlank ',' = false := by decide
  Bool.false_ne_true (solid.symm.trans (h ',' mem))

/-- A comma ends a parameter. -/
theorem fields_append_cons (cs ds : List Char) :
    fields (cs ++ ',' :: ds) = fields cs ++ fields ds := by
  rw [fields, Text.pieces_append_sep, List.map_append, List.filter_append, fields, fields]

theorem fields_of_blank {bs : List Char} (h : ∀ c ∈ bs, isBlank c = true) : fields bs = [] := by
  have nothing : trim ([] ++ bs) = [] := Text.trim_append_blank h
  rw [List.nil_append] at nothing
  rw [fields, Text.pieces_eq_singleton (noComma_of_blank h), List.map_singleton, nothing]
  rfl

/-- White space in front of a parameter does not count. -/
theorem fields_append_of_blank {bs : List Char} (h : ∀ c ∈ bs, isBlank c = true) (cs : List Char) :
    fields (bs ++ cs) = fields cs := by
  obtain ⟨p, ps, pieces⟩ := List.exists_cons_of_ne_nil (Text.pieces_ne_nil ',' cs)
  rw [fields, fields, Text.pieces_append_of_not_mem (noComma_of_blank h) pieces, pieces,
    List.map_cons, List.map_cons, Text.trim_append_of_blank h]

theorem fields_joinWith {ps : List (List Char)} (h : ∀ p ∈ ps, ',' ∉ p) :
    fields (joinWith ',' ps) = (ps.map trim).filter (· ≠ []) := by
  by_cases empty : ps = []
  · rw [empty]
    rfl
  · rw [fields, Text.pieces_joinWith h empty]

/-! ### The inputs among parameters -/

/-- The types that stand for inputs. -/
def inputTypes : List (List Char × InputKind) :=
  [("[]byte".toList, .encrypted), ("uint64".toList, .fixed (.fixed .seed)),
    ("int32".toList, .fixed (.fixed .zone)), ("[32]byte".toList, .fixed (.fixed .bytes32))]

/-- The input that a parameter is: none for the two that every operation has, for a pointer and for
a type that is not in the table, where spaces in a type do not count. -/
def Param.input? (p : Param) : Option InputKind :=
  if p.name ∈ ["utype".toList, "tp".toList] ∨ p.type.head? = some '*' then none
  else inputTypes.lookup (p.type.filter (· ≠ ' '))

theorem kindOfType?_eq_lookup (type : List Char) :
    kindOfType? type = inputTypes.lookup (type.filter (· ≠ ' ')) := by
  unfold kindOfType?
  generalize type.filter (· ≠ ' ') = cs
  have told {s : String} (h : String.ofList cs = s) : cs = s.toList := by
    rw [← h, String.toList_ofList]
  split
  · next h => rw [told h]; rfl
  · next h => rw [told h]; rfl
  · next h => rw [told h]; rfl
  · next h => rw [told h]; rfl
  · next h₁ h₂ h₃ h₄ =>
    have other {s : String} (h : String.ofList cs ≠ s) : (cs == s.toList) = false := by
      rw [beq_eq_false_iff_ne]
      rintro rfl
      exact h String.ofList_toList
    simp only [inputTypes, List.lookup_cons, List.lookup_nil, other h₁, other h₂, other h₃,
      other h₄]

/-- The inputs of a list are those of its parameters. -/
theorem inputKinds_eq (text : List Char) :
    inputKinds text = (params text).filterMap Param.input? := by
  rw [inputKinds, List.filterMap_filter]
  congr 1
  funext p
  rw [Param.input?, ← kindOfType?_eq_lookup]
  by_cases plumbing : p.isPlumbing = true
  · have listed : p.name ∈ ["utype".toList, "tp".toList] ∨ p.type.head? = some '*' := by
      simpa [Param.isPlumbing, or_assoc] using plumbing
    rw [if_pos listed, plumbing]
    rfl
  · have unlisted : ¬(p.name ∈ ["utype".toList, "tp".toList] ∨ p.type.head? = some '*') := by
      simpa [Param.isPlumbing, or_assoc] using plumbing
    rw [Bool.not_eq_true] at plumbing
    rw [if_neg unlisted, plumbing]
    rfl

/-! ### Groups -/

/-- A type as it is written between white space. -/
structure IsTypeText (type : List Char) : Prop where
  ne_nil : type ≠ []
  first : ∀ c ∈ type.head?, isBlank c = false
  last : ∀ c ∈ type.getLast?, isBlank c = false
  noComma : ',' ∉ type

theorem all_solid_iff (c? : Option Char) :
    c?.all (!isBlank ·) = true ↔ ∀ c ∈ c?, isBlank c = false := by
  cases c? <;> simp

instance (type : List Char) : Decidable (IsTypeText type) :=
  decidable_of_iff (type ≠ [] ∧ type.head?.all (!isBlank ·) = true ∧
      type.getLast?.all (!isBlank ·) = true ∧ ',' ∉ type)
    ⟨fun h => ⟨h.1, (all_solid_iff _).1 h.2.1, (all_solid_iff _).1 h.2.2.1, h.2.2.2⟩,
      fun h => ⟨h.ne_nil, (all_solid_iff _).2 h.first, (all_solid_iff _).2 h.last, h.noComma⟩⟩

/-- Neighbouring parameters of one type. -/
structure ParamGroup where
  names : List (List Char)
  type : List Char
  named : names ≠ [] := by decide
  solid : ∀ name ∈ names, IsSolid name := by decide
  noComma : ∀ name ∈ names, ',' ∉ name := by decide
  typed : IsTypeText type := by decide

/-- The parameters of a group, each with the type. -/
def ParamGroup.params (g : ParamGroup) : List Param :=
  g.names.map (⟨·, g.type⟩)

/-- A text with nothing but white space around another. -/
def IsPadded (cs text : List Char) : Prop :=
  ∃ before after, text = before ++ (cs ++ after) ∧ (∀ c ∈ before, isBlank c = true) ∧
    ∀ c ∈ after, isBlank c = true

/-- The pieces between commas that write names of one type: the type stands behind the last. -/
inductive WritesGroup (type : List Char) : List (List Char) → List (List Char) → Prop where
  | last {name gap piece : List Char} (blank : ∀ c ∈ gap, isBlank c = true) (apart : gap ≠ [])
      (padded : IsPadded (name ++ (gap ++ type)) piece) : WritesGroup type [name] [piece]
  | more {name piece : List Char} {names pieces : List (List Char)} (padded : IsPadded name piece)
      (later : WritesGroup type names pieces) : WritesGroup type (name :: names) (piece :: pieces)

/-- A text that writes groups one after another, with commas between all pieces. Behind the last
parameter there may be further commas. -/
structure WritesList (groups : List ParamGroup) (text : List Char) : Prop where
  written : ∃ pieces ends,
    List.Forall₂ (fun (g : ParamGroup) pieces => WritesGroup g.type g.names pieces) groups pieces ∧
      (∀ end' ∈ ends, ∀ c ∈ end', isBlank c = true) ∧ text = joinWith ',' (pieces.flatten ++ ends)

variable {type name gap piece : List Char} {names pieces : List (List Char)}

theorem IsPadded.trim_eq {cs text : List Char} (h : IsPadded cs text) : trim text = trim cs := by
  obtain ⟨before, after, rfl, blank, blank'⟩ := h
  rw [Text.trim_append_of_blank blank, Text.trim_append_blank blank']

theorem IsPadded.noComma {cs text : List Char} (h : IsPadded cs text) (noComma : ',' ∉ cs) :
    ',' ∉ text := by
  obtain ⟨before, after, rfl, blank, blank'⟩ := h
  simp only [List.mem_append, not_or]
  exact ⟨noComma_of_blank blank, noComma, noComma_of_blank blank'⟩

theorem IsTypeText.trim_append (h : IsTypeText type) (solid : IsSolid name) (gap : List Char) :
    trim (name ++ (gap ++ type)) = name ++ (gap ++ type) := by
  refine Text.trim_eq_self (solid.head_append _) fun c hc => h.last c ?_
  rwa [← List.append_assoc, List.getLast?_append_of_ne_nil _ h.ne_nil] at hc

/-- A piece with something in it is a parameter of the list. -/
theorem filter_map_trim_cons (text : trim piece = name) (some' : name ≠ [])
    (pieces : List (List Char)) : ((piece :: pieces).map trim).filter (· ≠ []) =
      name :: (pieces.map trim).filter (· ≠ []) := by
  rw [List.map_cons, text, List.filter_cons, if_pos (decide_eq_true some')]

/-- A name alone has no type of its own. -/
theorem splitParam_name (solid : IsSolid name) : splitParam name = (name, none) := by
  have whole : (name ++ []).span (fun c => !isBlank c) = (name, []) :=
    Text.span_append (fun c hc => by simp [solid.solid c hc]) (by simp)
  rw [List.append_nil] at whole
  rw [splitParam, whole]

/-- What stands behind a name and white space is its type. -/
theorem splitParam_typed (typed : IsTypeText type) (solid : IsSolid name)
    (blank : ∀ c ∈ gap, isBlank c = true) (apart : gap ≠ []) :
    splitParam (name ++ (gap ++ type)) = (name, some type) := by
  obtain ⟨b, bs, rfl⟩ := List.exists_cons_of_ne_nil apart
  have split :
      (name ++ (b :: bs ++ type)).span (fun c => !isBlank c) = (name, b :: bs ++ type) := by
    refine Text.span_append (fun c hc => by simp [solid.solid c hc]) ?_
    rintro _ ⟨⟩
    simp [blank b List.mem_cons_self]
  have own : trim (b :: bs ++ type) = type := by
    rw [Text.trim_append_of_blank blank, Text.trim_eq_self typed.first typed.last]
  rw [splitParam, split]
  simp only [List.cons_append] at own ⊢
  rw [own]

/-- A group is read as its names with the type, which goes on to names in front of it. -/
theorem foldr_consParam_group (h : WritesGroup type names pieces) (typed : IsTypeText type)
    (solid : ∀ name ∈ names, IsSolid name) (after : List Param × Option (List Char)) :
    ((pieces.map trim).filter (· ≠ [])).foldr consParam after =
      (names.map (⟨·, type⟩) ++ after.1, some type) := by
  induction h with
  | @last name gap piece blank apart padded =>
    have own := solid name List.mem_cons_self
    have text : trim piece = name ++ (gap ++ type) := by
      rw [padded.trim_eq, typed.trim_append own]
    rw [filter_map_trim_cons text (List.append_ne_nil_of_left_ne_nil own.ne_nil _), List.foldr_cons,
      consParam, splitParam_typed typed own blank apart]
    rfl
  | @more name piece names pieces padded later ih =>
    have own := solid name List.mem_cons_self
    have text : trim piece = name := by
      rw [padded.trim_eq, own.trim_eq_self]
    rw [filter_map_trim_cons text own.ne_nil, List.foldr_cons,
      ih fun n hn => solid n (List.mem_cons_of_mem name hn), consParam, splitParam_name own]
    rfl

/-- No comma stands in a piece of a group. -/
theorem WritesGroup.noComma (h : WritesGroup type names pieces) (typed : IsTypeText type)
    (noComma : ∀ name ∈ names, ',' ∉ name) : ∀ piece ∈ pieces, ',' ∉ piece := by
  induction h with
  | @last name gap piece blank apart padded =>
    rw [List.forall_mem_singleton] at noComma ⊢
    refine padded.noComma ?_
    simp only [List.mem_append, not_or]
    exact ⟨noComma, noComma_of_blank blank, typed.noComma⟩
  | @more name piece names pieces padded later ih =>
    rw [List.forall_mem_cons] at noComma ⊢
    exact ⟨padded.noComma noComma.1, ih noComma.2⟩

/-! ### Lists of groups -/

variable {groups groups' : List ParamGroup} {written : List (List (List Char))}
  {text text' : List Char}

/-- Groups one after another are read one after another, whatever stands behind them. -/
theorem foldr_consParam_groups
    (h : List.Forall₂ (fun (g : ParamGroup) pieces => WritesGroup g.type g.names pieces)
      groups written)
    (after : List Param × Option (List Char)) :
    (((written.flatten.map trim).filter (· ≠ [])).foldr consParam after).1 =
      groups.flatMap ParamGroup.params ++ after.1 := by
  induction h with
  | nil => rfl
  | @cons g pieces groups written first later ih =>
    rw [List.flatten_cons, List.map_append, List.filter_append, List.foldr_append,
      foldr_consParam_group first g.typed g.solid, ih, List.flatMap_cons, List.append_assoc]
    rfl

/-- A list is read as its names in their order, each with the type of its group. -/
theorem WritesList.params_eq (h : WritesList groups text) :
    params text = groups.flatMap ParamGroup.params := by
  obtain ⟨pieces, ends, written, blank, rfl⟩ := h.written
  have noComma : ∀ piece ∈ pieces.flatten ++ ends, ',' ∉ piece := by
    intro piece hpiece
    rcases List.mem_append.1 hpiece with hpiece | hpiece
    · obtain ⟨group, hgroup, mem⟩ := List.mem_flatten.1 hpiece
      obtain ⟨g, _, wrote⟩ := exists_of_forall₂_of_mem_right written hgroup
      exact wrote.noComma g.typed g.noComma piece mem
    · exact noComma_of_blank (blank piece hpiece)
  have nothing : (ends.map trim).filter (· ≠ []) = [] := by
    rw [List.filter_eq_nil_iff]
    intro field hfield
    obtain ⟨end', mem, rfl⟩ := List.mem_map.1 hfield
    have empty : trim ([] ++ end') = [] := Text.trim_append_blank (blank end' mem)
    rw [List.nil_append] at empty
    simp [empty]
  rw [Catalog.params_eq, fields_joinWith noComma, List.map_append, List.filter_append, nothing,
    List.append_nil, foldr_consParam_groups written, List.append_nil]

/-- **Groups of parameters.** A list written in groups declares, name by name in their order, the
input that the name is with the type of its group. So another grouping of the same parameters
declares the same inputs. -/
theorem inputKinds_grouped (h : WritesList groups text) :
    inputKinds text = (groups.flatMap ParamGroup.params).filterMap Param.input? ∧
      ∀ groups' text', WritesList groups' text' →
        groups'.flatMap ParamGroup.params = groups.flatMap ParamGroup.params →
        inputKinds text' = inputKinds text := by
  refine ⟨by rw [inputKinds_eq, h.params_eq], fun groups' text' h' same => ?_⟩
  rw [inputKinds_eq, inputKinds_eq, h.params_eq, h'.params_eq, same]

/-- Two names of one type, together and apart, between parameters that are no inputs. -/
theorem inputKinds_grouped_pair :
    let first : ParamGroup := { names := ["utype".toList], type := "byte".toList }
    let pair : ParamGroup := { names := ["lhs".toList, "rhs".toList], type := "[] byte".toList }
    let left : ParamGroup := { names := ["lhs".toList], type := "[] byte".toList }
    let right : ParamGroup := { names := ["rhs".toList], type := "[] byte".toList }
    let zone : ParamGroup := { names := ["zone".toList], type := "int32".toList }
    let text := "utype byte,lhs ,\trhs  [] byte, zone int32,".toList
    let text' := "utype byte, lhs [] byte, rhs [] byte, zone int32".toList
    WritesList [first, pair, zone] text ∧ WritesList [first, left, right, zone] text' ∧
      inputKinds text = [.encrypted, .encrypted, .fixed (.fixed .zone)] ∧
      inputKinds text' = inputKinds text := by
  intro first pair left right zone text text'
  have blanks : ∀ c ∈ [' ', ' '], isBlank c = true :=
    List.forall_mem_cons.2 ⟨Unicode.isBlank_space, blank_space⟩
  have own (cs : List Char) : IsPadded cs cs := ⟨[], [], by simp, by simp, by simp⟩
  have spaced (cs : List Char) : IsPadded cs (' ' :: cs) :=
    ⟨[' '], [], by simp, blank_space, by simp⟩
  have utype : WritesGroup first.type first.names ["utype byte".toList] :=
    .last blank_space (by decide) (own _)
  have lhs : IsPadded "lhs".toList "lhs ".toList := ⟨[], [' '], by decide, by simp, blank_space⟩
  have tabbed : IsPadded "rhs  [] byte".toList "\trhs  [] byte".toList :=
    ⟨['\t'], [], by decide, blank_tab, by simp⟩
  have together : WritesGroup pair.type pair.names ["lhs ".toList, "\trhs  [] byte".toList] :=
    .more lhs (.last blanks (by decide) tabbed)
  have apart : WritesGroup left.type left.names [" lhs [] byte".toList] :=
    .last blank_space (by decide) (spaced _)
  have apart' : WritesGroup right.type right.names [" rhs [] byte".toList] :=
    .last blank_space (by decide) (spaced _)
  have last : WritesGroup zone.type zone.names [" zone int32".toList] :=
    .last blank_space (by decide) (spaced _)
  have written : WritesList [first, pair, zone] text :=
    ⟨_, [[]], .cons utype (.cons together (.cons last .nil)), by simp, by decide⟩
  have written' : WritesList [first, left, right, zone] text' :=
    ⟨_, [], .cons utype (.cons apart (.cons apart' (.cons last .nil))), by simp, by decide⟩
  obtain ⟨inputs, regrouped⟩ := inputKinds_grouped written
  exact ⟨written, written', inputs.trans (by decide), regrouped _ text' written' (by decide)⟩

end FheSolidity.Catalog
