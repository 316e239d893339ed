import FheSolidity.ValueType

/-!
# Rules

The rules say which operations an encrypted type supports, which conversions exist, and whether
sealed results are also offered with a tag. `Rules.standard` are the rules of the deployed
dispatcher; the three adjustable parts are the fields of `Rules`.
-/

namespace FheSolidity

/-- Which operations a type supports. -/
inductive Filter where
  | all
  | except (operations : List String)
  | only (operations : List String)
  deriving DecidableEq

/-- Whether an operation passes a filter. -/
def Filter.allows : Filter → String → Bool
  | .all, _ => true
  | .except operations, operation => !operations.contains operation
  | .only operations, operation => operations.contains operation

/-- What the generator has to know of types and operations. -/
structure Rules where
  /-- The operations that each encrypted type supports. -/
  filter : Scalar → Filter
  /-- The types that convert to an encrypted address. -/
  addressSources : List ValueType
  /-- Whether sealing is also offered with a tagged result. -/
  typedSeal : Bool

namespace Rules

/-- The canonical name of the seal operation. -/
def sealOperation : String := "sealoutput"

/-- The symbol under which sealing gives a tagged result. -/
def typedSealSymbol : String := "sealoutputTyped"

/-- Whether an operation is the seal operation. -/
def isSeal (operation : String) : Bool :=
  operation == sealOperation

/-- The operations that are written by hand and never taken from a catalog. -/
def handWritten : List String :=
  ["trivialEncrypt", "cast", "verify", "getNetworkPublicKey"]

/-- Whether a catalog entry of this name, in any case, is left out. -/
def isHandWritten (operation : String) : Bool :=
  handWritten.any (Text.sameIgnoringCase · operation)

/-- The operations of each type in the deployed dispatcher. -/
def standardFilter : Scalar → Filter
  | .uint128 => .except ["div", "rem"]
  | .uint256 => .except ["div", "rem", "mul", "shl", "shr", "rol", "ror"]
  | .address => .only ["eq", "ne", "select", "decrypt", sealOperation, "req"]
  | _ => .all

/-- The rules of the deployed dispatcher. -/
def standard : Rules where
  filter := standardFilter
  addressSources := [.encrypted .uint256, .plain .uint256, .plain .address]
  typedSeal := true

/-- The rules with another filter for one type. -/
def withFilter (r : Rules) (s : Scalar) (f : Filter) : Rules :=
  { r with filter := fun t => if t = s then f else r.filter t }

/-- The rules with other sources of encrypted addresses. -/
def withAddressSources (r : Rules) (sources : List ValueType) : Rules :=
  { r with addressSources := sources }

/-- The rules with or without tagged sealing. -/
def withTypedSeal (r : Rules) (typedSeal : Bool) : Rules :=
  { r with typedSeal }

/-- Whether an encrypted type supports an operation. -/
def allows (r : Rules) (s : Scalar) (operation : String) : Bool :=
  (r.filter s).allows operation

/-- Whether a value that promotion has reduced to `source` converts to an encrypted `target`. -/
def convertsTo (r : Rules) (source : ValueType) (target : Scalar) : Bool :=
  if target = .address then r.addressSources.contains source else source != .plain .address

/-- Whether a value converts to an encrypted `target`. Ciphertexts carry their type with them and
always convert to it; no type converts to itself. -/
def canCast (r : Rules) : ValueType → Scalar → Bool
  | .encrypted s, target => s != target && r.convertsTo (.encrypted s) target
  | .plain s, target => r.convertsTo (.plain s.castSource) target
  | .fixed .bytes, _ => true
  | .fixed (.input s), target => s == target
  | .fixed _, _ => false

end Rules

/-- A Solidity operator that stands for an operation. -/
structure Operator where
  operation : String
  symbol : String
  deriving DecidableEq

/-- The operators that are defined for encrypted types. -/
def Operator.all : List Operator :=
  [⟨"add", "+"⟩, ⟨"sub", "-"⟩, ⟨"mul", "*"⟩, ⟨"div", "/"⟩, ⟨"rem", "%"⟩, ⟨"and", "&"⟩, ⟨"or", "|"⟩,
    ⟨"xor", "^"⟩]

/-- The operator that stands for an operation. -/
def Operator.ofOperation? (operation : String) : Option Operator :=
  all.find? (·.operation == operation)

theorem Rules.not_canCast_self (r : Rules) (s : Scalar) : r.canCast (.encrypted s) s = false := by
  simp [canCast]

end FheSolidity
