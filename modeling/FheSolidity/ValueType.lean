import FheSolidity.Scalar

/-!
# Value types

A value type is what stands at one position of a signature: an encrypted handle, a scalar in the
clear, or a fixed type that takes no part in promotion. The seed of a generator and a `uint64` in
the clear are different value types with one Solidity name.
-/

namespace FheSolidity

/-- The families of structs that tag a sealed value with its type. -/
inductive SealFamily where
  | bool
  | uint
  | address
  deriving DecidableEq

/-- The families of tagged results, in the order of their declarations. -/
def SealFamily.all : List SealFamily :=
  [.bool, .uint, .address]

/-- The Solidity name of a struct for tagged results. -/
def SealFamily.name : SealFamily → String
  | .bool => "SealedBool"
  | .uint => "SealedUint"
  | .address => "SealedAddress"

/-- The family that results of sealing an encrypted `s` belong to. -/
def Scalar.sealFamily : Scalar → SealFamily
  | .bool => .bool
  | .address => .address
  | _ => .uint

/-- A type that is placed in signatures as it is. -/
inductive FixedType where
  /-- A public key of 32 bytes. -/
  | bytes32
  /-- A byte string. -/
  | bytes
  /-- The seed of a generator, a `uint64`. -/
  | seed
  /-- A security zone, an `int32`. -/
  | zone
  /-- The struct that carries a ciphertext of an encrypted scalar from outside. -/
  | input (s : Scalar)
  /-- The struct that tags a sealed value with its type. -/
  | sealed (f : SealFamily)
  deriving DecidableEq

namespace FixedType

/-- The Solidity name of a fixed type. -/
def name : FixedType → String
  | .bytes32 => "bytes32"
  | .bytes => "bytes"
  | .seed => "uint64"
  | .zone => "int32"
  | .input s => "in" ++ s.encryptedTitle
  | .sealed f => f.name

/-- Byte strings and structs live in memory or call data, so their declarations say where. -/
def needsLocation : FixedType → Bool
  | .bytes | .input _ | .sealed _ => true
  | .bytes32 | .seed | .zone => false

end FixedType

/-- What may stand at one position of a signature. -/
inductive ValueType where
  | encrypted (s : Scalar)
  | plain (s : Scalar)
  | fixed (t : FixedType)
  deriving DecidableEq

namespace ValueType

/-- The Solidity name of a value type, without a data location. -/
def name : ValueType → String
  | .encrypted s => s.encryptedName
  | .plain s => s.name
  | .fixed t => t.name

/-- The value type that an annotation names. A `uint64` is the scalar, never the seed. -/
def ofName? (n : String) : Option ValueType :=
  (Scalar.ofEncryptedName? n).map .encrypted
    <|> (Scalar.ofName? n).map .plain
    <|> (match n with
      | "bytes32" => some (.fixed .bytes32)
      | "bytes" | "string" => some (.fixed .bytes)
      | "int32" => some (.fixed .zone)
      | _ => (SealFamily.all.find? (·.name == n)).map (.fixed ∘ .sealed))

/-- The scalar that takes part in promotion. Fixed types have none. -/
def scalar? : ValueType → Option Scalar
  | .encrypted s | .plain s => some s
  | .fixed _ => none

/-- The scalar of an encrypted handle. -/
def encrypted? : ValueType → Option Scalar
  | .encrypted s => some s
  | _ => none

/-- The scalar of a value in the clear. -/
def plain? : ValueType → Option Scalar
  | .plain s => some s
  | _ => none

/-- Whether a declaration of this type has to say where the value lives. -/
def needsLocation : ValueType → Bool
  | .fixed t => t.needsLocation
  | _ => false

/-- The type as written in a parameter list whose reference values live at `location`. -/
def declaredAt (location : String) (t : ValueType) : String :=
  if t.needsLocation then t.name ++ " " ++ location else t.name

/-- The type as written in the parameter and return lists of library functions. -/
def declaration (t : ValueType) : String :=
  t.declaredAt "memory"

/-- Whether this is the type of byte strings. -/
def isByteString (t : ValueType) : Bool :=
  t == .fixed .bytes

theorem ofName?_encrypted (s : Scalar) :
    ofName? (ValueType.encrypted s).name = some (.encrypted s) := by
  cases s <;> decide

theorem ofName?_plain (s : Scalar) : ofName? (ValueType.plain s).name = some (.plain s) := by
  cases s <;> decide

/-- Only the seed and the scalar `uint64` share a Solidity name. -/
theorem name_seed : (ValueType.fixed .seed).name = (ValueType.plain .uint64).name := rfl

end ValueType

end FheSolidity
