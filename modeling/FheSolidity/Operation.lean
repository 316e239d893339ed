import FheSolidity.Error
import FheSolidity.ValueType

/-!
# Operations of the catalog

An operation has a name, the kinds of its inputs and the kind of its result. A kind is either a
whole family of types or one type. `Operation.ofInputs` builds an operation and refuses more than
`maxArity` inputs.
-/

namespace FheSolidity

/-- What is declared of one input. -/
inductive InputKind where
  /-- Any encrypted type. -/
  | encrypted
  /-- Any scalar in the clear. -/
  | plain
  /-- Exactly this type. -/
  | fixed (t : ValueType)
  deriving DecidableEq

/-- What is declared of the result. -/
inductive ReturnKind where
  /-- The encrypted type the operation is computed in. -/
  | encrypted
  /-- The value in the clear of the only input. -/
  | plain
  /-- No result. -/
  | nothing
  /-- Exactly this type. -/
  | explicit (t : ValueType)
  deriving DecidableEq

namespace InputKind

/-- The kind that an annotation names. The two family words may be in any case. -/
def ofWord? (w : String) : Option InputKind :=
  match Text.asciiLower w with
  | "encrypted" => some .encrypted
  | "plaintext" => some .plain
  | _ => (ValueType.ofName? w).map .fixed

/-- A kind as shown in messages. -/
def name : InputKind → String
  | .encrypted => "encrypted"
  | .plain => "plaintext"
  | .fixed t => t.name

/-- Whether the kind stands for a whole family of types. -/
def isOperand : InputKind → Bool
  | .encrypted | .plain => true
  | .fixed _ => false

end InputKind

/-- The return kind that an annotation names. The keywords may be in any case. -/
def ReturnKind.ofWord? (w : String) : Option ReturnKind :=
  match Text.asciiLower w with
  | "encrypted" => some .encrypted
  | "plaintext" => some .plain
  | "none" | "void" => some .nothing
  | _ => (ValueType.ofName? w).map .explicit

/-- One operation as the catalog describes it. -/
structure Operation where
  name : String
  inputs : List InputKind
  returns : ReturnKind := .encrypted
  /-- Whether all inputs of encrypted kind have to share one type. -/
  sameType : Bool := false
  /-- Whether booleans are meaningful operands. -/
  boolean : Bool := false
  deriving DecidableEq

namespace Operation

/-- The most inputs an operation may take. -/
def maxArity : Nat := 3

/-- An operation that returns the encrypted type it is computed in. -/
def ofInputs (name : String) (inputs : List InputKind) : Except CatalogError Operation :=
  if inputs.length ≤ maxArity then .ok { name, inputs }
  else .error (.invalidArity name inputs.length)

/-- The number of declared inputs. -/
def arity (op : Operation) : Nat :=
  op.inputs.length

/-- Whether the operation combines exactly two operands. -/
def isBinary (op : Operation) : Bool :=
  op.arity == 2 && op.inputs.all (·.isOperand)

/-- The operation with a declared return kind. -/
def returning (op : Operation) (returns : ReturnKind) : Operation :=
  { op with returns }

/-- The operation with booleans among its operands. -/
def onBooleans (op : Operation) : Operation :=
  { op with boolean := true }

/-- The operation with one type for all inputs of encrypted kind. -/
def onSameType (op : Operation) : Operation :=
  { op with sameType := true }

theorem ofInputs_eq_ok_iff {name : String} {inputs : List InputKind} {op : Operation} :
    ofInputs name inputs = .ok op ↔ inputs.length ≤ maxArity ∧ op = { name, inputs } := by
  simp only [ofInputs]
  split
  · next h => simp [h, eq_comm]
  · next h => simp [h]

end Operation

end FheSolidity
