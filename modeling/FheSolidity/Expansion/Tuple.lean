import FheSolidity.Operation
import FheSolidity.Rules

/-!
# Tuples of input types

A tuple is one choice of types for the inputs of an operation. This module says which types may
stand at a position (`candidates`), which tuples the rules drop and why (`skip?`), and what an
operation returns on a tuple (`resolveReturn`).
-/

namespace FheSolidity

/-- The higher of two scalars on the promotion scale. -/
instance : Max Scalar where
  max s t := if s.rank ≤ t.rank then t else s

/-- The scalar that the inputs of a tuple are promoted to: the highest among them. -/
def promoted? (tuple : List ValueType) : Option Scalar :=
  (tuple.filterMap ValueType.scalar?).max?

/-- Why the rules drop a tuple. -/
inductive SkipReason where
  /-- Two different encrypted operands. -/
  | crossType
  /-- Different encrypted operands where one type is required. -/
  | mixedOperands
  /-- The type that the operation would be computed in does not support it. -/
  | unsupportedByType (s : Scalar)
  /-- An operand does not convert to the type that the operation would be computed in. -/
  | disallowedCast (source : ValueType) (target : Scalar)
  deriving DecidableEq

/-- A reason in words. -/
def SkipReason.message : SkipReason → String
  | .crossType => "cross-type operands"
  | .mixedOperands => "operands must share a type"
  | .unsupportedByType s => s.encryptedName ++ " does not support the operation"
  | .disallowedCast source target =>
    "no cast from " ++ source.name ++ " to " ++ target.encryptedName

namespace Operation

/-- Whether booleans are left out of the operands: they are no operands of arithmetic. -/
def excludesBooleans (op : Operation) : Bool :=
  op.isBinary && !op.boolean

/-- The types that may stand at a position of a given kind. -/
def candidates (op : Operation) (r : Rules) : InputKind → List ValueType
  | .encrypted =>
    (Scalar.all.filter fun s =>
      r.allows s op.name && !(op.excludesBooleans && s == .bool)).map .encrypted
  | .plain =>
    (Scalar.all.filter fun s => !(op.excludesBooleans && s == .bool)).map .plain
  | .fixed t => [t]

/-- The types of a tuple at the positions of encrypted kind. -/
def encryptedOperands (op : Operation) (tuple : List ValueType) : List ValueType :=
  ((op.inputs.zip tuple).filter (·.1 == .encrypted)).map (·.2)

/-- Whether a list has at most one distinct element. -/
def allEqual : List ValueType → Bool
  | [] => true
  | t :: ts => ts.all (· == t)

/-- The reason to drop a tuple of a binary operation, which is computed in the promoted type. -/
def binarySkip? (op : Operation) (r : Rules) (tuple : List ValueType) : Option SkipReason :=
  match promoted? tuple with
  | none => none
  | some working =>
    if !r.allows working op.name then some (.unsupportedByType working)
    else (tuple.find? fun t => t != .encrypted working && !r.canCast t working).map
      (.disallowedCast · working)

/-- Whether a tuple consists of two different encrypted types. -/
def isCrossType : List ValueType → Bool
  | [.encrypted a, .encrypted b] => a != b
  | _ => false

/-- The first reason to drop a tuple, if there is one. -/
def skip? (op : Operation) (r : Rules) (tuple : List ValueType) : Option SkipReason :=
  if isCrossType tuple then some .crossType
  else if op.sameType && !allEqual (op.encryptedOperands tuple) then some .mixedOperands
  else if op.isBinary then op.binarySkip? r tuple
  else none

/-- What the operation returns on a tuple. An operation on byte strings returns one. -/
def resolveReturn (op : Operation) (tuple : List ValueType) :
    Except ExpansionError (Option ValueType) :=
  match op.returns with
  | .plain => match tuple with
    | [.encrypted s] => .ok (some (.plain s))
    | [t] => .error (.plainReturnInput op.name t.name)
    | _ => .error (.plainReturnArity op.name tuple.length)
  | .explicit t => .ok (some t)
  | .nothing => .ok none
  | .encrypted =>
    if tuple.any ValueType.isByteString then .ok (some (.fixed .bytes))
    else match promoted? tuple with
      | some s => .ok (some (.encrypted s))
      | none => .error (.unresolvableReturn op.name)

end Operation

end FheSolidity
