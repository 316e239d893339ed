import FheSolidity.Dispatcher
import FheSolidity.Expansion.Basic
import FheSolidity.Naming
import FheSolidity.Proofs.Text

/-!
# Names of functions

A function of an operation is called by the operation's own name, by that name with the title of
an encrypted type behind it, or by the name of tagged sealing. A title starts with the last `E` of
the name it ends, so a name with a title can be taken apart again. Together with the table of the
dispatcher, none of whose names ends in a title, this makes every name tell its operation.
-/

namespace FheSolidity

namespace Scalar

theorem toList_encryptedTitle (s : Scalar) : s.encryptedTitle.toList = 'E' :: s.name.toList := by
  cases s <;> decide

theorem mark_not_mem_name (s : Scalar) : 'E' ∉ s.name.toList := by
  cases s <;> decide

/-- A name with a title is taken apart at its last `E`. -/
theorem append_encryptedTitle_inj {n m : String} {s t : Scalar} :
    n ++ s.encryptedTitle = m ++ t.encryptedTitle ↔ n = m ∧ s = t := by
  rw [← String.toList_inj, String.toList_append, String.toList_append, toList_encryptedTitle,
    toList_encryptedTitle,
    Text.append_cons_inj_of_not_mem s.mark_not_mem_name t.mark_not_mem_name, String.toList_inj,
    String.toList_inj, name_inj]

end Scalar

/-- Whether a name ends in the title of an encrypted type. -/
def endsInTitle (x : String) : Bool :=
  Scalar.all.any fun s => s.encryptedTitle.toList.isSuffixOf x.toList

theorem endsInTitle_append (n : String) (s : Scalar) :
    endsInTitle (n ++ s.encryptedTitle) = true := by
  rw [endsInTitle, List.any_eq_true]
  refine ⟨s, s.mem_all, ?_⟩
  rw [List.isSuffixOf_iff_suffix, String.toList_append]
  exact List.suffix_append _ _

/-- No function of the dispatcher ends in a title. -/
theorem endsInTitle_of_mem_functionIds {n : String} (h : n ∈ Dispatcher.functionIds) :
    endsInTitle n = false := by
  revert n
  decide +kernel

theorem endsInTitle_typedSealSymbol : endsInTitle Rules.typedSealSymbol = false := by
  decide +kernel

theorem typedSealSymbol_not_mem_functionIds :
    Rules.typedSealSymbol ∉ Dispatcher.functionIds := by
  decide

/-- Whether a function of a surface may have a name. -/
def isFunctionName (x : String) : Bool :=
  endsInTitle x || Dispatcher.functionIds.contains x || x == Rules.typedSealSymbol

theorem isFunctionName_castFunction (target : Scalar) :
    isFunctionName target.castFunction = true := by
  simp [isFunctionName, Scalar.castFunction, endsInTitle_append]

/-- The names that the library gives on its own are of other kinds. -/
theorem isFunctionName_isInitialized : isFunctionName "isInitialized" = false := by
  decide +kernel

theorem isFunctionName_to_shortTitle (target : Scalar) :
    isFunctionName ("to" ++ target.shortTitle) = false := by
  cases target <;> decide +kernel

namespace Operation

/-- The names that a function of an operation may have. -/
inductive HasSymbol (op : Operation) : String → Prop where
  | own : HasSymbol op op.name
  | tagged (seals : Rules.isSeal op.name = true) : HasSymbol op Rules.typedSealSymbol
  | generated (s : Scalar) : HasSymbol op (op.generatorSymbol s)

variable {op other : Operation} {x : String}

theorem endsInTitle_generatorSymbol (op : Operation) (s : Scalar) :
    endsInTitle (op.generatorSymbol s) = true :=
  endsInTitle_append _ _

/-- Without a title, a name is its operation's own or that of tagged sealing. -/
theorem HasSymbol.of_endsInTitle_eq_false (h : op.HasSymbol x) (plain : endsInTitle x = false) :
    x = op.name ∨ Rules.isSeal op.name = true ∧ x = Rules.typedSealSymbol := by
  cases h with
  | own => exact .inl rfl
  | tagged seals => exact .inr ⟨seals, rfl⟩
  | generated s => simp [endsInTitle_generatorSymbol] at plain

/-- With a title, a name is that of a generator's function. -/
theorem HasSymbol.of_endsInTitle (known : op.name ∈ Dispatcher.functionIds) (h : op.HasSymbol x)
    (title : endsInTitle x = true) : ∃ s, x = op.generatorSymbol s := by
  cases h with
  | own => simp [endsInTitle_of_mem_functionIds known] at title
  | tagged => simp [endsInTitle_typedSealSymbol] at title
  | generated s => exact ⟨s, rfl⟩

theorem HasSymbol.isFunctionName (known : op.name ∈ Dispatcher.functionIds)
    (h : op.HasSymbol x) : isFunctionName x = true := by
  cases h with
  | own => simp [FheSolidity.isFunctionName, known]
  | tagged => simp [FheSolidity.isFunctionName]
  | generated s => simp [FheSolidity.isFunctionName, endsInTitle_generatorSymbol]

/-- A name tells its operation, among those that the dispatcher knows. -/
theorem HasSymbol.name_eq (known : op.name ∈ Dispatcher.functionIds)
    (known' : other.name ∈ Dispatcher.functionIds) (h : op.HasSymbol x)
    (h' : other.HasSymbol x) : op.name = other.name := by
  cases title : endsInTitle x with
  | true =>
    obtain ⟨s, rfl⟩ := h.of_endsInTitle known title
    obtain ⟨t, heq⟩ := h'.of_endsInTitle known' title
    exact (Scalar.append_encryptedTitle_inj.1 heq).1
  | false =>
    rcases h.of_endsInTitle_eq_false title with rfl | ⟨seals, rfl⟩ <;>
      rcases h'.of_endsInTitle_eq_false title with heq | ⟨seals', heq⟩
    · exact heq
    · exact absurd (heq ▸ known) typedSealSymbol_not_mem_functionIds
    · exact absurd (heq ▸ known') typedSealSymbol_not_mem_functionIds
    · exact (beq_iff_eq.1 seals).trans (beq_iff_eq.1 seals').symm

/-- No function of an operation that the dispatcher knows is called like a conversion. -/
theorem HasSymbol.ne_castFunction (known : op.name ∈ Dispatcher.functionIds)
    (h : op.HasSymbol x) (target : Scalar) : x ≠ target.castFunction := by
  rintro rfl
  obtain ⟨s, heq⟩ := h.of_endsInTitle known (endsInTitle_append "as" target)
  have name : "as" = op.name := (Scalar.append_encryptedTitle_inj.1 heq).1
  rw [← name] at known
  revert known
  decide

end Operation

end FheSolidity
