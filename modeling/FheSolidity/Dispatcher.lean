import FheSolidity.Scalar

/-!
# The dispatcher's numbering

Generated code calls one dispatcher, which knows functions by their position in a table and
encrypted types by a tag. Both numberings are fixed; names with an underscore keep the positions
of functions that no longer exist.
-/

namespace FheSolidity.Dispatcher

/-- The functions of the dispatcher, in the order of their numbers. -/
def functionIds : List String :=
  ["_0", "_1", "_2", "getNetworkKey", "cast", "sealoutput", "select", "_7", "decrypt", "sub",
    "add", "xor", "and", "or", "not", "div", "rem", "mul", "shl", "shr", "gte", "lte", "lt", "gt",
    "min", "max", "eq", "ne", "trivialEncrypt", "random", "rol", "ror", "square", "verify", "req"]

/-- The number of a function. -/
def functionId? (operation : String) : Option Nat :=
  functionIds.findIdx? (· == operation)

/-- The tag of an encrypted type. -/
def typeTag : Scalar → Nat
  | .uint8 => 0
  | .uint16 => 1
  | .uint32 => 2
  | .uint64 => 3
  | .uint128 => 4
  | .uint256 => 5
  | .address => 12
  | .bool => 13

theorem typeTag_inj {s t : Scalar} : typeTag s = typeTag t ↔ s = t := by
  cases s <;> cases t <;> decide

theorem nodup_functionIds : functionIds.Nodup := by decide

theorem functionId?_isSome {operation : String} :
    (functionId? operation).isSome ↔ operation ∈ functionIds := by
  simp [functionId?, List.findIdx?_isSome]

end FheSolidity.Dispatcher
