import FheSolidity.Library.File
import FheSolidity.Proofs.Overloads

/-!
# Scopes of the library file

The library file declares functions in three kinds of scopes: `library FHE`, one library of methods
for each encrypted type, and the free functions behind the operators. Only the functions of the
surface are compared before the file is made. The names that the file gives on top of them, those
of the helpers, of the conversion methods and of the operator functions, keep apart from them and
from each other, so no scope declares an overload twice.
-/

namespace FheSolidity

open Solidity (FunctionDecl)

/-- What Solidity tells a declared function apart by. -/
def Solidity.FunctionDecl.overload (d : FunctionDecl) : OverloadKey :=
  ⟨d.header.symbol, d.header.paramTypes.map ValueType.name⟩

namespace RenderedFunction

variable {f : RenderedFunction}

/-- A function declares its signature: its parameters are as many as its inputs. -/
theorem paramTypes_of_render (h : f.signature.render = .ok f) :
    (Solidity.paramsOf f.signature.inputs f.paramNames).map Solidity.Param.type =
      f.signature.inputs := by
  obtain ⟨shape, hshape, heq⟩ := Signature.render_eq_ok_iff.1 h
  have names : f.paramNames = shape.paramNames := by rw [heq]; rfl
  rw [names]
  exact Solidity.map_type_paramsOf (Signature.length_paramNames_of_shape hshape).ge

/-- A function is declared as its shape says. -/
theorem decl_of_render (h : f.signature.render = .ok f) : f.decl = f.shape.declare f.signature := by
  obtain ⟨shape, _, heq⟩ := Signature.render_eq_ok_iff.1 h
  rw [heq]
  rfl

theorem paramTypes_decl (h : f.signature.render = .ok f) :
    f.decl.header.paramTypes = f.signature.inputs := by
  rw [decl_of_render h]
  exact paramTypes_of_render h

theorem overload_decl (h : f.signature.render = .ok f) :
    f.decl.overload = f.signature.overloadKey := by
  rw [FunctionDecl.overload, paramTypes_decl h, decl_of_render h]
  rfl

theorem overload_forwarder (h : f.signature.render = .ok f) (symbol target : String)
    (visibility : Option String) : (f.forwarder symbol target visibility).overload =
      ⟨symbol, f.signature.inputs.map ValueType.name⟩ := by
  rw [FunctionDecl.overload]
  exact congrArg (fun ts => OverloadKey.mk symbol (ts.map ValueType.name)) (paramTypes_of_render h)

end RenderedFunction

namespace Library

/-- The functions of `library FHE`. -/
def File.members (file : File) : List FunctionDecl :=
  file.helpers ++ (file.operations ++ file.casts).map RenderedFunction.decl

/-- The free functions behind the operators. -/
def File.operatorFunctions (file : File) : List FunctionDecl :=
  file.operators.flatMap fun block => block.bound.map BoundOperator.decl

/-- The scopes that the file declares functions in. -/
def File.scopes (file : File) : List (List FunctionDecl) :=
  file.members :: file.operatorFunctions :: file.bindings.map BindingLibrary.members

variable {r : Rules} {ops : List Operation} {choice : ErrorChoice} {surface : Surface}

theorem nodup_overloads_helpers : (helpers.map FunctionDecl.overload).Nodup := by
  decide

/-- The helpers and the functions of the surface share a scope. -/
theorem nodup_overloads_members (c : Config) (h : Surface.build r ops choice = .ok surface) :
    ((File.ofSurface c surface).members.map FunctionDecl.overload).Nodup := by
  obtain ⟨made, distinct⟩ := Surface.build_eq_ok_iff.1 h
  have overloads : (surface.functions.map RenderedFunction.decl).map FunctionDecl.overload =
      surface.signatures.map Signature.overloadKey := by
    rw [Surface.signatures, List.map_map, List.map_map]
    exact List.map_congr_left fun f hf =>
      RenderedFunction.overload_decl (Surface.render_of_mem_functions made hf)
  rw [File.members, List.map_append]
  change (helpers.map FunctionDecl.overload ++
    (surface.functions.map RenderedFunction.decl).map FunctionDecl.overload).Nodup
  rw [overloads]
  refine nodup_overloads_helpers.append distinct (List.disjoint_left.2 fun k hk hsurface => ?_)
  obtain ⟨helper, hhelper, rfl⟩ := List.mem_map.1 hk
  obtain ⟨s, _, rfl⟩ := List.mem_map.1 hhelper
  rw [Surface.signatures, List.map_map] at hsurface
  obtain ⟨f, hf, same⟩ := List.mem_map.1 hsurface
  have name : f.signature.symbol = "isInitialized" := congrArg OverloadKey.symbol same
  exact Surface.symbol_ne_of_mem_functions made hf isFunctionName_isInitialized name

theorem conversionFrom?_of_mem_casts {f : RenderedFunction} (hf : f.signature ∈ r.casts)
    {s target : Scalar} (h : f.conversionFrom? s = some target) :
    f.signature = Rules.castSignature target [.encrypted s] := by
  obtain ⟨t, inputs, _, hcast⟩ := Rules.mem_casts_iff.1 hf
  rw [RenderedFunction.conversionFrom?, hcast] at h
  simp only [Rules.castSignature] at h
  split at h
  · next hinputs hreturns =>
    cases hinputs
    cases hreturns
    split at h
    · next hsource =>
      cases h
      rw [hcast, hsource]
    · cases h
  · cases h

theorem shortTitle_inj {s t : Scalar} : s.shortTitle = t.shortTitle ↔ s = t := by
  cases s <;> cases t <;> decide

/-- The conversion methods of a type differ in the types they lead to. -/
theorem nodup_overloads_conversionMethods (h : Surface.build r ops choice = .ok surface)
    (s : Scalar) :
    ((surface.casts.filterMap fun f => (f.conversionFrom? s).map (conversionMethod f)).map
      FunctionDecl.overload).Nodup := by
  obtain ⟨made, distinct⟩ := Surface.build_eq_ok_iff.1 h
  obtain ⟨_, hcasts, rendered⟩ := Surface.ofOperations_eq_ok_iff.1 made
  have casts : (surface.casts.map RenderedFunction.signature).Nodup := by
    rw [hcasts]
    exact r.nodup_overloadKey_casts.of_map
  have mem {f : RenderedFunction} (hf : f ∈ surface.casts) : f.signature ∈ r.casts :=
    hcasts ▸ List.mem_map_of_mem hf
  rw [List.Nodup, List.pairwise_map, List.pairwise_filterMap]
  refine (List.pairwise_map.1 casts).imp_of_mem fun {f g} hf hg hne d hd d' hd' same => hne ?_
  obtain ⟨t, ht, rfl⟩ := Option.map_eq_some_iff.1 hd
  obtain ⟨u, hu, rfl⟩ := Option.map_eq_some_iff.1 hd'
  have name : "to" ++ t.shortTitle = "to" ++ u.shortTitle := congrArg OverloadKey.symbol same
  have target : t = u := shortTitle_inj.1 ((String.append_right_inj "to").1 name)
  rw [conversionFrom?_of_mem_casts (mem hf) ht, conversionFrom?_of_mem_casts (mem hg) hu, target]

/-- The methods of a type are the functions of operations under their own names and conversions
under names that no function has. -/
theorem nodup_overloads_bindingLibrary (h : Surface.build r ops choice = .ok surface)
    (s : Scalar) :
    ((bindingLibrary surface s).members.map FunctionDecl.overload).Nodup := by
  obtain ⟨made, distinct⟩ := Surface.build_eq_ok_iff.1 h
  rw [bindingLibrary, List.map_append]
  have mem {f : RenderedFunction} (hf : f ∈ surface.operationFunctions.filter (·.bindsTo s)) :
      f ∈ surface.functions :=
    List.mem_append_left _ (List.mem_of_mem_filter hf)
  have methods : ((surface.operationFunctions.filter (·.bindsTo s)).map method).map
      FunctionDecl.overload = (surface.operationFunctions.filter (·.bindsTo s)).map
        (Signature.overloadKey ∘ RenderedFunction.signature) := by
    rw [List.map_map]
    exact List.map_congr_left fun f hf => RenderedFunction.overload_forwarder
      (Surface.render_of_mem_functions made (mem hf)) _ _ _
  rw [methods]
  refine List.Nodup.append ?_ (nodup_overloads_conversionMethods h s)
    (List.disjoint_left.2 fun k hk hconversion => ?_)
  · rw [Surface.signatures, List.map_map, Surface.functions, List.map_append] at distinct
    exact distinct.of_append_left.sublist (List.filter_sublist.map _)
  · obtain ⟨f, hf, rfl⟩ := List.mem_map.1 hk
    obtain ⟨d, hd, same⟩ := List.mem_map.1 hconversion
    obtain ⟨g, hg, hd⟩ := List.mem_filterMap.1 hd
    obtain ⟨target, _, rfl⟩ := Option.map_eq_some_iff.1 hd
    have name : "to" ++ target.shortTitle = f.signature.symbol := congrArg OverloadKey.symbol same
    exact Surface.symbol_ne_of_mem_functions made (mem hf) (isFunctionName_to_shortTitle target)
      name.symm

/-- The part of an operator function's name that the operation gives. -/
theorem nodup_operatorNames :
    (Operator.all.map fun o => "operator" ++ Text.capitalize o.operation).Nodup := by
  decide +kernel

/-- An operator function is called after its operator and its type. -/
theorem symbol_of_bindOperator? {s : Scalar} {o : Operator} {bound : BoundOperator}
    (h : bindOperator? surface s o = some bound) : bound.decl.overload.symbol =
      "operator" ++ Text.capitalize o.operation ++ s.encryptedTitle := by
  obtain ⟨f, _, rfl⟩ := Option.map_eq_some_iff.1 h
  rfl

theorem nodup_overloads_operatorBlock (surface : Surface) (s : Scalar) :
    ((operatorBlock surface s).bound.map fun bound => bound.decl.overload).Nodup := by
  unfold operatorBlock
  split
  · exact List.nodup_nil
  · rw [List.Nodup, List.pairwise_map, List.pairwise_filterMap]
    refine (List.pairwise_map.1 nodup_operatorNames).imp fun {o p} hne b hb b' hb' same => hne ?_
    have name := congrArg OverloadKey.symbol same
    rw [symbol_of_bindOperator? hb, symbol_of_bindOperator? hb'] at name
    exact (Scalar.append_encryptedTitle_inj.1 name).1

/-- No two operator functions, of whatever types, have one name. -/
theorem nodup_overloads_operatorFunctions (c : Config) (surface : Surface) :
    ((File.ofSurface c surface).operatorFunctions.map FunctionDecl.overload).Nodup := by
  have blocks : (File.ofSurface c surface).operatorFunctions.map FunctionDecl.overload =
      Scalar.all.flatMap fun s =>
        (operatorBlock surface s).bound.map fun bound => bound.decl.overload := by
    rw [File.operatorFunctions, File.ofSurface, List.flatMap_map, List.map_flatMap]
    simp only [List.map_map]
    rfl
  have symbol {s : Scalar} {k : OverloadKey}
      (hk : k ∈ (operatorBlock surface s).bound.map fun bound => bound.decl.overload) :
      ∃ stem, k.symbol = stem ++ s.encryptedTitle := by
    obtain ⟨bound, hbound, rfl⟩ := List.mem_map.1 hk
    unfold operatorBlock at hbound
    split at hbound
    · cases hbound
    · obtain ⟨o, _, ho⟩ := List.mem_filterMap.1 hbound
      exact ⟨_, symbol_of_bindOperator? ho⟩
  rw [blocks]
  refine nodup_flatMap_of_tells Scalar.nodup_all
    (fun s _ => nodup_overloads_operatorBlock surface s) ?_
  intro s _ t _ k hs ht
  obtain ⟨_, hk⟩ := symbol hs
  obtain ⟨_, hk'⟩ := symbol ht
  exact (Scalar.append_encryptedTitle_inj.1 (hk.symm.trans hk')).2

/-- **Scopes.** Whatever operations a surface is made of, and however often their names occur among
them, no scope of its library file declares two functions of one name and the same types of
parameters. -/
theorem nodup_overloads_of_mem_scopes (c : Config) (h : Surface.build r ops choice = .ok surface) :
    ∀ scope ∈ (File.ofSurface c surface).scopes, (scope.map FunctionDecl.overload).Nodup := by
  intro scope hscope
  rw [File.scopes, List.mem_cons, List.mem_cons, List.mem_map] at hscope
  rcases hscope with rfl | rfl | ⟨bindings, hbindings, rfl⟩
  · exact nodup_overloads_members c h
  · exact nodup_overloads_operatorFunctions c surface
  · obtain ⟨s, _, rfl⟩ := List.mem_map.1 hbindings
    exact nodup_overloads_bindingLibrary h s

/-- Two declarations of one operation, for an operand under encryption and for one in the clear:
the methods of `euint8` are those of both, and its conversions. -/
theorem nodup_overloads_of_mem_scopes_repeated_name :
    ∃ surface, Surface.build .standard [{ name := "xor", inputs := [.encrypted, .encrypted] },
        { name := "xor", inputs := [.encrypted, .plain] }] = .ok surface ∧
      (bindingLibrary surface .uint8).members.length = 13 ∧
      ((bindingLibrary surface .uint8).members.map FunctionDecl.overload).Nodup := by
  have made : Surface.ofOperations .standard [{ name := "xor", inputs := [.encrypted, .encrypted] },
      { name := "xor", inputs := [.encrypted, .plain] }] = .ok _ := rfl
  have built := Surface.build_eq_ok_iff.2 ⟨made, by decide +kernel⟩
  refine ⟨_, built, by decide +kernel, nodup_overloads_of_mem_scopes {} built _ ?_⟩
  exact .tail _ (.tail _ (List.mem_map_of_mem (List.mem_map_of_mem (Scalar.mem_all .uint8))))

end Library

end FheSolidity
