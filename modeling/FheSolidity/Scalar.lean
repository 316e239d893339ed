import FheSolidity.Text.Case

/-!
# Scalars and the promotion scale

A scalar is a Solidity value type that exists in the clear (`uint8`) and under encryption
(`euint8`). The eight scalars stand on one scale, from `bool` to `address`; where two scalars
meet in an operation, the higher one is the type the operation is computed in.
-/

namespace FheSolidity

/-- A Solidity value type with an encrypted counterpart, lowest on the promotion scale first. -/
inductive Scalar where
  | bool
  | uint8
  | uint16
  | uint32
  | uint64
  | uint128
  | uint256
  | address
  deriving DecidableEq, Inhabited

namespace Scalar

/-- Every scalar, lowest first. -/
def all : List Scalar :=
  [.bool, .uint8, .uint16, .uint32, .uint64, .uint128, .uint256, .address]

/-- The position on the promotion scale. -/
def rank : Scalar → Nat
  | .bool => 0
  | .uint8 => 1
  | .uint16 => 2
  | .uint32 => 3
  | .uint64 => 4
  | .uint128 => 5
  | .uint256 => 6
  | .address => 7

/-- The scalar at a position of the promotion scale. -/
def ofRank? (r : Nat) : Option Scalar :=
  all[r]?

/-- The width of a value in the clear. -/
def bits : Scalar → Nat
  | .bool => 1
  | .uint8 => 8
  | .uint16 => 16
  | .uint32 => 32
  | .uint64 => 64
  | .uint128 => 128
  | .uint256 => 256
  | .address => 160

/-- The Solidity name of the type in the clear. -/
def name : Scalar → String
  | .bool => "bool"
  | .uint8 => "uint8"
  | .uint16 => "uint16"
  | .uint32 => "uint32"
  | .uint64 => "uint64"
  | .uint128 => "uint128"
  | .uint256 => "uint256"
  | .address => "address"

/-- The Solidity name of the encrypted type. -/
def encryptedName (s : Scalar) : String :=
  "e" ++ s.name

/-- The name of the type in the clear as a part of a longer name. -/
def title : Scalar → String
  | .bool => "Bool"
  | .uint8 => "Uint8"
  | .uint16 => "Uint16"
  | .uint32 => "Uint32"
  | .uint64 => "Uint64"
  | .uint128 => "Uint128"
  | .uint256 => "Uint256"
  | .address => "Address"

/-- The name of the encrypted type as a part of a longer name. -/
def encryptedTitle (s : Scalar) : String :=
  "E" ++ s.name

/-- The name of the encrypted type in capitals. -/
def encryptedConstant : Scalar → String
  | .bool => "EBOOL"
  | .uint8 => "EUINT8"
  | .uint16 => "EUINT16"
  | .uint32 => "EUINT32"
  | .uint64 => "EUINT64"
  | .uint128 => "EUINT128"
  | .uint256 => "EUINT256"
  | .address => "EADDRESS"

/-- The short name that conversion methods end in: `Bool`, `U8`, …, `Address`. -/
def shortTitle : Scalar → String
  | .bool => "Bool"
  | .address => "Address"
  | s => "U" ++ toString s.bits

/-- The scalar with a given name in the clear. -/
def ofName? (n : String) : Option Scalar :=
  all.find? (·.name == n)

/-- The scalar with a given encrypted name. -/
def ofEncryptedName? (n : String) : Option Scalar :=
  all.find? (·.encryptedName == n)

/-- The type through whose overload a value in the clear is encrypted: every integer is widened
to `uint256` first. -/
def castSource : Scalar → Scalar
  | .bool => .bool
  | .address => .address
  | _ => .uint256

theorem mem_all (s : Scalar) : s ∈ all := by
  cases s <;> decide

theorem ofRank?_rank (s : Scalar) : ofRank? s.rank = some s := by
  cases s <;> rfl

theorem rank_lt_eight (s : Scalar) : s.rank < 8 := by
  cases s <;> decide

theorem rank_inj {s t : Scalar} : s.rank = t.rank ↔ s = t := by
  refine ⟨fun h => ?_, congrArg rank⟩
  have := ofRank?_rank s
  rw [h, ofRank?_rank] at this
  exact (Option.some.inj this).symm

theorem name_inj {s t : Scalar} : s.name = t.name ↔ s = t := by
  cases s <;> cases t <;> decide

theorem encryptedName_inj {s t : Scalar} : s.encryptedName = t.encryptedName ↔ s = t := by
  cases s <;> cases t <;> decide

theorem ofName?_name (s : Scalar) : ofName? s.name = some s := by
  cases s <;> decide

theorem ofEncryptedName?_encryptedName (s : Scalar) :
    ofEncryptedName? s.encryptedName = some s := by
  cases s <;> decide

theorem capitalize_name (s : Scalar) : Text.capitalize s.name = s.title := by
  cases s <;> decide +kernel

theorem capitalize_encryptedName (s : Scalar) :
    Text.capitalize s.encryptedName = s.encryptedTitle := by
  cases s <;> decide +kernel

end Scalar

end FheSolidity
