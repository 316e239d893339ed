import FheSolidity.Config
import FheSolidity.Dispatcher
import FheSolidity.Naming
import FheSolidity.Solidity.Decl

/-!
# The fixed sections of the library file

What stands before `library FHE`: the header and the import, the declarations of the encrypted
types and of the structs around them, the numbering of the dispatcher, the library of type tags
and conversions, and the library that wraps the dispatcher. The helpers that ask whether a handle
was ever set are the first members of `library FHE`.
-/

namespace FheSolidity

open Solidity (Expr FunctionDecl Param)

/-- The value of a scalar that a 256-bit word stands for. -/
def Scalar.ofWord (s : Scalar) (word : Expr) : Expr :=
  match s with
  | .bool => .operator "!=" word (.number 0)
  | .address => .apply "address" [.apply "uint160" [word]]
  | .uint256 => word
  | _ => .apply s.name [word]

namespace Library

/-- Lines with their ends. -/
def unlines (lines : List String) : String :=
  String.join (lines.map (· ++ "\n"))

/-- The first lines of every generated contract file. -/
def fileHeader (c : Config) : String :=
  unlines ["// SPDX-License-Identifier: " ++ c.license, "// Generated by fhegen. Do not edit.",
    "pragma solidity " ++ c.pragma ++ ";"]

/-- The import of the dispatcher. -/
def imports (c : Config) : String :=
  unlines ["", "import \x7bPrecompiles, FheOps\x7d from \"" ++ c.precompileImport ++ "\";"]

/-- The declarations of the encrypted types, which are words to the machine. -/
def typeDeclarations : String :=
  unlines ("" :: Scalar.all.map fun s => "type " ++ s.encryptedName ++ " is uint256;")

/-- A struct of two fields. -/
def structDeclaration (name first second : String) : String :=
  unlines ["", "struct " ++ name ++ " \x7b", "    " ++ first ++ ";", "    " ++ second ++ ";",
    "\x7d"]

/-- The structs that carry ciphertexts from outside. -/
def inputStructs : String :=
  String.join (Scalar.all.map fun s =>
    structDeclaration (FixedType.input s).name "bytes data" "int32 securityZone")

/-- The structs that tag sealed values. -/
def sealedStructs : String :=
  String.join (SealFamily.all.map fun f => structDeclaration f.name "bytes data" "uint8 utype")

/-- The numbered members of an enumeration, with commas between. -/
def enumMembers (start : Nat) : List String → List String
  | [] => []
  | [m] => ["    " ++ m ++ " // " ++ toString start]
  | m :: ms => ("    " ++ m ++ ", // " ++ toString start) :: enumMembers (start + 1) ms

/-- The numbering of the dispatcher's functions. -/
def functionIdEnum : String :=
  unlines (["", "enum FunctionId \x7b"] ++ enumMembers 0 Dispatcher.functionIds ++ ["\x7d"])

/-- The conversion of a raw result to a scalar. -/
def fromWordDecl (s : Scalar) : FunctionDecl where
  header := {
    symbol := s.fromWordFunction
    params := [⟨.plain .uint256, "i"⟩]
    visibility := some "internal"
    mutability := some .pure
    returns := some (.plain s) }
  body := [.ret (s.ofWord (.name "i"))]

/-- The conversions between words and bytes. -/
def byteConversions : String :=
  unlines
    ["    function toBytes(uint256 x) internal pure returns (bytes memory b) \x7b",
      "        b = new bytes(32);",
      "        assembly \x7b",
      "            mstore(add(b, 32), x)",
      "        \x7d",
      "    \x7d",
      "",
      "    function toUint256(bytes memory b) internal pure returns (uint256) \x7b",
      "        return abi.decode(b, (uint256));",
      "    \x7d",
      "\x7d"]

/-- The library of type tags and conversions of raw results. -/
def commonLibrary : String :=
  unlines ["", "library Common \x7b", "    // Values used to communicate types to the runtime."]
    ++ unlines (Scalar.all.map fun s =>
        "    uint8 internal constant " ++ s.tagIdent ++ " = " ++ toString (Dispatcher.typeTag s)
          ++ ";")
    ++ String.join (Scalar.all.map fun s => "\n" ++ (fromWordDecl s).render Solidity.indentStep)
    ++ "\n" ++ byteConversions

/-- The library that wraps the dispatcher: one function for each kind of call. -/
def dispatchLibrary : String :=
  "\n" ++ unlines
    ["library Impl \x7b",
      "    function unaryOp(FunctionId op, uint8 utype, uint256 value) internal pure " ++
        "returns (uint256) \x7b",
      "        bytes memory output = FheOps(Precompiles.Fheos).unaryOp(uint8(op), utype, " ++
        "Common.toBytes(value));",
      "        return Common.toUint256(output);",
      "    \x7d",
      "",
      "    function mathOp(FunctionId op, uint8 utype, uint256 lhs, uint256 rhs) internal " ++
        "pure returns (uint256) \x7b",
      "        bytes memory output = FheOps(Precompiles.Fheos).mathOp(uint8(op), utype, " ++
        "Common.toBytes(lhs), Common.toBytes(rhs));",
      "        return Common.toUint256(output);",
      "    \x7d",
      "",
      "    function ternaryOp(FunctionId op, uint8 utype, uint256 control, uint256 ifTrue, " ++
        "uint256 ifFalse) internal pure returns (uint256) \x7b",
      "        bytes memory output = FheOps(Precompiles.Fheos).ternaryOp(",
      "            uint8(op),",
      "            utype,",
      "            Common.toBytes(control),",
      "            Common.toBytes(ifTrue),",
      "            Common.toBytes(ifFalse)",
      "        );",
      "        return Common.toUint256(output);",
      "    \x7d",
      "",
      "    function sealOp(FunctionId op, uint8 utype, uint256 value, bytes32 publicKey) " ++
        "internal pure returns (bytes memory) \x7b",
      "        return FheOps(Precompiles.Fheos).sealOp(uint8(op), utype, " ++
        "Common.toBytes(value), bytes.concat(publicKey));",
      "    \x7d",
      "",
      "    function sealOpBytes(FunctionId op, uint8 utype, uint256 value, bytes memory " ++
        "publicKey) internal pure returns (bytes memory) \x7b",
      "        return FheOps(Precompiles.Fheos).sealOp(uint8(op), utype, " ++
        "Common.toBytes(value), publicKey);",
      "    \x7d",
      "",
      "    function cast(FunctionId op, uint8 utype, uint256 value, uint8 toType) internal " ++
        "pure returns (uint256) \x7b",
      "        bytes memory output = FheOps(Precompiles.Fheos).cast(uint8(op), utype, " ++
        "Common.toBytes(value), toType);",
      "        return Common.toUint256(output);",
      "    \x7d",
      "",
      "    function trivialEncrypt(FunctionId op, uint256 value, uint8 toType, int32 " ++
        "securityZone) internal pure returns (uint256) \x7b",
      "        bytes memory output = FheOps(Precompiles.Fheos).trivialEncrypt(uint8(op), " ++
        "Common.toBytes(value), toType, securityZone);",
      "        return Common.toUint256(output);",
      "    \x7d",
      "",
      "    function verify(FunctionId op, bytes memory input, uint8 toType, int32 " ++
        "securityZone) internal pure returns (uint256) \x7b",
      "        bytes memory output = FheOps(Precompiles.Fheos).verify(uint8(op), toType, " ++
        "input, securityZone);",
      "        return Common.toUint256(output);",
      "    \x7d",
      "",
      "    function random(FunctionId op, uint8 utype, uint64 seed, int32 securityZone) " ++
        "internal view returns (uint256) \x7b",
      "        bytes memory output = FheOps(Precompiles.Fheos).random(uint8(op), utype, " ++
        "seed, securityZone);",
      "        return Common.toUint256(output);",
      "    \x7d",
      "\x7d"]

/-- Whether a handle was ever set. No ciphertext has the handle zero. -/
def isInitializedDecl (s : Scalar) : FunctionDecl where
  header := {
    symbol := "isInitialized"
    params := [⟨.encrypted s, "v"⟩]
    visibility := some "internal"
    mutability := some .pure
    returns := some (.plain .bool) }
  body := [.ret (.operator "!=" (.call (.member (.name s.encryptedName) "unwrap") [.name "v"])
    (.number 0))]

/-- The helpers of all encrypted types. -/
def helpers : List FunctionDecl :=
  Scalar.all.map isInitializedDecl

/-- The helpers as the first members of a library. -/
def helpersText : String :=
  String.join (helpers.map fun f => f.render Solidity.indentStep ++ "\n")

/-- Everything that stands before `library FHE`. -/
def preamble (c : Config) : String :=
  fileHeader c ++ imports c ++ typeDeclarations ++ inputStructs ++ sealedStructs ++
    functionIdEnum ++ commonLibrary ++ dispatchLibrary

end Library

end FheSolidity
