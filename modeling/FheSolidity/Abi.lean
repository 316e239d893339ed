import FheSolidity.TestContract

/-!
# TypeScript declarations

The declaration file has one interface for each test contract, so that tests can call them with
types.
-/

namespace FheSolidity.Abi

/-- The TypeScript type of a Solidity type. Numbers of up to 32 bits are plain numbers, and there
is no name for handles and structs. -/
def tsType : ValueType → String
  | .plain .bool => "boolean"
  | .plain .uint8 | .plain .uint16 | .plain .uint32 | .fixed .zone => "number"
  | .plain .uint64 | .plain .uint128 | .plain .uint256 | .fixed .seed => "bigint"
  | .plain .address | .fixed .bytes | .fixed .bytes32 => "string"
  | .encrypted _ | .fixed (.input _) | .fixed (.sealed _) => "unknown"

/-- What the promise of a test function holds. -/
def promised (c : TestContract) : String :=
  if c.returnsBytes then "string" else "bigint"

/-- The interface of a test contract. -/
def interface (c : TestContract) : String :=
  Library.unlines ["",
    "export interface " ++ c.name ++ "Type extends BaseContract \x7b",
    "    " ++ c.operation ++ ": (" ++
      ", ".intercalate ("test: string" :: c.params.map fun p => p.name ++ ": " ++ tsType p.type) ++
      ") => Promise<" ++ promised c ++ ">;",
    "\x7d"]

/-- The declaration file of several test contracts. -/
def render (contracts : List TestContract) : String :=
  "import \x7b BaseContract \x7d from \"ethers\";\n" ++ String.join (contracts.map interface)

end FheSolidity.Abi
