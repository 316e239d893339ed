import FheSolidity.ValueType

/-!
# Signatures

A signature is one overload of a generated function. Two signatures are the same Solidity
overload when they agree on the symbol and on the names of the input types; `repeatedOverloads`
finds those that occur more than once.
-/

namespace FheSolidity

/-- Where a signature comes from. -/
inductive Family where
  /-- An operation of the catalog. -/
  | operation
  /-- A conversion between types. -/
  | cast
  deriving DecidableEq

/-- One overload of a generated function. -/
structure Signature where
  family : Family
  /-- The operation that the dispatcher runs. -/
  operation : String
  /-- The Solidity name of the function. -/
  symbol : String
  inputs : List ValueType
  /-- The type of the result, if there is one. -/
  returns : Option ValueType
  deriving DecidableEq

/-- What Solidity tells overloads apart by. -/
structure OverloadKey where
  symbol : String
  /-- The names of the input types. -/
  inputs : List String
  deriving DecidableEq

namespace Signature

/-- A signature of an operation under the operation's own name. -/
def ofOperation (name : String) (inputs : List ValueType) (returns : Option ValueType) :
    Signature :=
  { family := .operation, operation := name, symbol := name, inputs, returns }

/-- The number of inputs. -/
def arity (sig : Signature) : Nat :=
  sig.inputs.length

/-- What Solidity tells this overload from others by. -/
def overloadKey (sig : Signature) : OverloadKey :=
  ⟨sig.symbol, sig.inputs.map ValueType.name⟩

/-- The names of the input types, with commas between. -/
def inputList (sig : Signature) : String :=
  ",".intercalate (sig.inputs.map ValueType.name)

/-- The text that selects this overload in a test: `add(euint8,euint8)`. -/
def selector (sig : Signature) : String :=
  sig.symbol ++ "(" ++ sig.inputList ++ ")"

/-- The selector followed by the type of the result. -/
def display (sig : Signature) : String :=
  match sig.returns with
  | some t => sig.selector ++ " -> " ++ t.name
  | none => sig.selector

end Signature

/-- The elements of a list that occur again, each once and where it occurs for the second time;
`seen` is what stands before the list. -/
def repeatedAfter {κ : Type} [DecidableEq κ] (seen : List κ) : List κ → List κ
  | [] => []
  | k :: ks =>
    if seen.count k = 1 then k :: repeatedAfter (k :: seen) ks else repeatedAfter (k :: seen) ks

/-- The overloads that occur more than once, in the order of their second occurrences. -/
def repeatedOverloads (sigs : List Signature) : List OverloadKey :=
  repeatedAfter [] (sigs.map Signature.overloadKey)

theorem mem_repeatedAfter {κ : Type} [DecidableEq κ] {k : κ} {ks : List κ} :
    ∀ {seen : List κ}, k ∈ repeatedAfter seen ks ↔
      seen.count k ≤ 1 ∧ 2 ≤ seen.count k + ks.count k ∧ k ∈ ks := by
  induction ks with
  | nil => simp [repeatedAfter]
  | cons x xs ih =>
    intro seen
    by_cases hx : x = k
    · subst hx
      have h := @ih (x :: seen)
      simp only [repeatedAfter, List.count_cons_self] at h ⊢
      split
      · simp; omega
      · rw [h, ← List.count_pos_iff]
        simp only [List.mem_cons, true_or, and_true]
        omega
    · have h := @ih (x :: seen)
      have hc : (x :: seen).count k = seen.count k := by simp [hx]
      have hc' : (x :: xs).count k = xs.count k := by simp [hx]
      rw [hc] at h
      rw [hc']
      have hm : k ∈ x :: xs ↔ k ∈ xs := by simp [Ne.symm hx]
      rw [hm, ← h]
      simp only [repeatedAfter]
      split
      · simp [Ne.symm hx]
      · rfl

/-- Exactly the overloads that occur at least twice are reported. -/
theorem mem_repeatedOverloads {k : OverloadKey} {sigs : List Signature} :
    k ∈ repeatedOverloads sigs ↔ 2 ≤ (sigs.map Signature.overloadKey).count k := by
  rw [repeatedOverloads, mem_repeatedAfter, ← List.count_pos_iff]
  simp only [List.count_nil]
  omega

end FheSolidity
