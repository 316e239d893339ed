import FheSolidity.Dispatcher
import FheSolidity.Error
import FheSolidity.Expansion.Tuple
import FheSolidity.Signature

/-!
# Shapes

A shape is the plan of one function's body: which dispatcher function it calls, on what operands,
and what becomes of the result. `Signature.shape` finds the shape of a signature; the shapes are
a closed set, and a signature that none of them covers is an error.
-/

namespace FheSolidity

/-- A function of the dispatcher. -/
structure FunctionRef where
  name : String
  /-- The number the dispatcher knows it by. -/
  ordinal : Nat
  deriving DecidableEq

/-- The function as written in generated code. -/
def FunctionRef.expr (f : FunctionRef) : String :=
  "FunctionId." ++ f.name

/-- What becomes of a raw result. -/
inductive Output where
  /-- It is a handle of this encrypted type. -/
  | encrypted (s : Scalar)
  /-- It is a value of this scalar. -/
  | plain (s : Scalar)
  /-- It is dropped. -/
  | nothing
  deriving DecidableEq

/-- The second operand of a binary operation. -/
inductive Operand where
  | encrypted (s : Scalar)
  | plain (s : Scalar)
  deriving DecidableEq

/-- The position of an operand on the promotion scale. -/
def Operand.scalar : Operand → Scalar
  | .encrypted s | .plain s => s

/-- An operand as a value type. -/
def Operand.type : Operand → ValueType
  | .encrypted s => .encrypted s
  | .plain s => .plain s

/-- How a public key is given. -/
inductive KeyType where
  | bytes32
  | bytes
  deriving DecidableEq

/-- The type of a public key. -/
def KeyType.type : KeyType → FixedType
  | .bytes32 => .bytes32
  | .bytes => .bytes

/-- What a conversion starts from. -/
inductive CastSource where
  /-- Another encrypted type. -/
  | encrypted (s : Scalar)
  /-- A value in the clear, with a security zone if `zoned`. -/
  | plain (s : Scalar) (zoned : Bool)
  /-- A ciphertext as bytes, with its security zone. -/
  | ciphertext
  /-- A ciphertext in its struct. -/
  | inputStruct
  deriving DecidableEq

/-- What the caller of a generator passes. -/
inductive RandomForm where
  | unseeded
  | seeded
  | seededInZone
  deriving DecidableEq

/-- Whether the caller passes a seed. -/
def RandomForm.isSeeded : RandomForm → Bool
  | .unseeded => false
  | .seeded | .seededInZone => true

/-- Whether the caller passes a security zone. -/
def RandomForm.isZoned : RandomForm → Bool
  | .unseeded | .seeded => false
  | .seededInZone => true

/-- The plan of a function's body. -/
inductive Shape where
  /-- One encrypted operand. -/
  | unary (f : FunctionRef) (operand : Scalar) (output : Output)
  /-- An encrypted operand and a second one, computed in the higher of their types. -/
  | binary (f : FunctionRef) (lhs : Scalar) (rhs : Operand) (output : Output)
  /-- A choice between two values under an encrypted condition. -/
  | ternary (f : FunctionRef) (value : Scalar)
  /-- An encryption for the holder of a public key, tagged with its type if `typed`. -/
  | sealing (f : FunctionRef) (operand : Scalar) (key : KeyType) (typed : Bool)
  /-- A conversion. -/
  | cast (f : FunctionRef) (target : Scalar) (source : CastSource)
  /-- A random value. -/
  | random (f : FunctionRef) (target : Scalar) (form : RandomForm)
  deriving DecidableEq

namespace Shape

/-- The dispatcher function that the body calls. -/
def function : Shape → FunctionRef
  | .unary f .. | .binary f .. | .ternary f .. | .sealing f .. | .cast f .. | .random f .. => f

/-- The name of the kind of shape. -/
def label : Shape → String
  | .unary .. => "unary"
  | .binary .. => "binary"
  | .ternary .. => "ternary"
  | .sealing .. => "seal"
  | .cast .. => "cast"
  | .random .. => "random"

/-- The names of the parameters, in the order of the inputs. -/
def paramNames : Shape → List String
  | .unary .. => ["value"]
  | .binary .. => ["lhs", "rhs"]
  | .ternary .. => ["control", "ifTrue", "ifFalse"]
  | .sealing .. => ["value", "publicKey"]
  | .cast _ _ (.plain _ true) | .cast _ _ .ciphertext => ["value", "securityZone"]
  | .cast .. => ["value"]
  | .random _ _ .unseeded => []
  | .random _ _ .seeded => ["seed"]
  | .random _ _ .seededInZone => ["seed", "securityZone"]

/-- The type that a binary operation is computed in: the higher of its operands. -/
def workingType (lhs : Scalar) (rhs : Operand) : Scalar :=
  max lhs rhs.scalar

/-- Whether the body reads no state of the chain. Only generators do. -/
def isPure : Shape → Bool
  | .random .. => false
  | _ => true

theorem nodup_paramNames (shape : Shape) : shape.paramNames.Nodup := by
  unfold paramNames
  split <;> decide

end Shape

namespace Signature

/-- The error for a signature that no shape covers. -/
def unsupported (sig : Signature) : TemplateError :=
  .unsupportedShape sig.symbol sig.arity sig.inputList
    (match sig.returns with
      | some t => t.name
      | none => "none")

/-- The dispatcher function of a name. -/
def dispatcherFunction (name : String) : Except TemplateError FunctionRef :=
  match Dispatcher.functionId? name with
  | some ordinal => .ok { name, ordinal }
  | none => .error (.unknownFunctionId name)

/-- What becomes of a raw result under a return type. A fixed type cannot be made of it. -/
def output? : Option ValueType → Option Output
  | some (.encrypted s) => some (.encrypted s)
  | some (.plain s) => some (.plain s)
  | none => some .nothing
  | some (.fixed _) => none

/-- Whether sealing an encrypted `operand` may return a fixed type, and whether that is tagged. -/
def sealTyped? (operand : Scalar) : FixedType → Option Bool
  | .bytes => some false
  | .sealed family => if family = operand.sealFamily then some true else none
  | _ => none

/-- What a conversion of given inputs to an encrypted `target` starts from. -/
def castSource? (target : Scalar) : List ValueType → Option CastSource
  | [.encrypted s] => if s = target then none else some (.encrypted s)
  | [.plain s] => some (.plain s false)
  | [.plain s, .fixed .zone] => some (.plain s true)
  | [.fixed .bytes, .fixed .zone] => some .ciphertext
  | [.fixed (.input s)] => if s = target then some .inputStruct else none
  | _ => none

/-- The dispatcher function behind a conversion. -/
def castFunctionName : CastSource → String
  | .encrypted _ => "cast"
  | .plain _ _ => "trivialEncrypt"
  | .ciphertext | .inputStruct => "verify"

/-- The shape of a function of an operation, given its dispatcher function. -/
def operationShape? (f : FunctionRef) : List ValueType → Option ValueType → Option Shape
  | [.encrypted operand], returns => (output? returns).map (.unary f operand)
  | [.encrypted operand, .fixed .bytes32], some (.fixed t) =>
    (sealTyped? operand t).map (.sealing f operand .bytes32)
  | [.encrypted operand, .fixed .bytes], some (.fixed t) =>
    (sealTyped? operand t).map (.sealing f operand .bytes)
  | [.encrypted lhs, .encrypted rhs], returns =>
    (output? returns).map (.binary f lhs (.encrypted rhs))
  | [.encrypted lhs, .plain rhs], returns =>
    (output? returns).map (.binary f lhs (.plain rhs))
  | [.encrypted .bool, .encrypted a, .encrypted b], some (.encrypted c) =>
    if a = b ∧ c = a then some (.ternary f a) else none
  | [], some (.encrypted target) => some (.random f target .unseeded)
  | [.fixed .seed], some (.encrypted target) => some (.random f target .seeded)
  | [.fixed .seed, .fixed .zone], some (.encrypted target) => some (.random f target .seededInZone)
  | _, _ => none

/-- The shape of a function that converts. -/
def castShape (sig : Signature) : Except TemplateError Shape :=
  match sig.returns with
  | some (.encrypted target) =>
    match castSource? target sig.inputs with
    | some source => return .cast (← dispatcherFunction (castFunctionName source)) target source
    | none => .error sig.unsupported
  | _ => .error sig.unsupported

/-- The shape of the function with a given signature. -/
def shape (sig : Signature) : Except TemplateError Shape :=
  match sig.family with
  | .cast => sig.castShape
  | .operation => do
    let f ← dispatcherFunction sig.operation
    match operationShape? f sig.inputs sig.returns with
    | some shape => return shape
    | none => .error sig.unsupported

end Signature

end FheSolidity
