import FheSolidity.Library.File

/-!
# Test contracts

The test contract of an operation has one public function. Its first argument selects an overload
and a way to call it (directly, as a method, as an operator), and the others are the raw operands.
`TestContract.ofOperation` decides the branches; a selector that no branch has reverts.
-/

namespace FheSolidity

open Solidity (Expr Stmt)

/-- A parameter of a test function. -/
structure TestParam where
  type : ValueType
  name : String
  deriving DecidableEq

namespace TestParam

/-- The parameter's type as written in the parameter list of a public function. -/
def declaration (p : TestParam) : String :=
  p.type.declaredAt "calldata"

/-- The name of the operand at a position. -/
def operandName : Nat → String
  | 0 => "a"
  | 1 => "b"
  | _ => "c"

/-- The parameter for an input of a fixed type. -/
def ofFixed (position : Nat) (t : FixedType) : TestParam where
  type := .fixed t
  name := match t with
    | .bytes32 => "pubkey"
    | .bytes => "data"
    | .seed => "seed"
    | .zone => "securityZone"
    | .input _ | .sealed _ => "input" ++ toString (position + 1)

/-- The parameter for an input. Operands are passed as words in the clear. -/
def ofKind (position : Nat) : InputKind → TestParam
  | .fixed (.fixed t) => ofFixed position t
  | _ => ⟨.plain .uint256, operandName position⟩

/-- The parameters for a list of inputs. -/
def ofKinds (kinds : List InputKind) : List TestParam :=
  kinds.mapIdx ofKind

/-- The argument for an input of a given type, made from a parameter. -/
def argument (t : ValueType) (p : TestParam) : Expr :=
  match t with
  | .encrypted s => .apply (Library.qualified s.castFunction) [.name p.name]
  | .plain s => s.ofWord (.name p.name)
  | .fixed _ => .name p.name

end TestParam

/-- How a branch calls the overload under test. -/
inductive CallForm where
  | direct
  | method
  | operator (symbol : String)
  deriving DecidableEq

/-- One way to call one overload. -/
structure Branch where
  form : CallForm
  signature : Signature
  arguments : List Expr

namespace Branch

/-- The text that selects the branch. -/
def selector (b : Branch) : String :=
  match b.form, b.signature.inputs with
  | .method, t :: rest =>
    t.name ++ "." ++ b.signature.symbol ++ "(" ++ ",".intercalate (rest.map ValueType.name) ++ ")"
  | .operator symbol, t :: _ => t.name ++ " " ++ symbol ++ " " ++ t.name
  | _, _ => b.signature.selector

/-- The call of the overload. -/
def call (b : Branch) : Expr :=
  match b.form, b.arguments with
  | .method, receiver :: rest => .call (.member receiver b.signature.symbol) rest
  | .operator symbol, [lhs, rhs] => .operator symbol lhs rhs
  | _, arguments => .apply (Library.qualified b.signature.symbol) arguments

/-- Hands back a scalar as a number. -/
def scalarResult (s : Scalar) (e : Expr) : List Stmt :=
  match s with
  | .bool => [.ifThen e (.ret (.number 1)), .ret (.number 0)]
  | .address => [.ret (.apply "uint256" [.apply "uint160" [e]])]
  | .uint256 => [.ret e]
  | _ => [.ret (.apply "uint256" [e])]

/-- Hands back the result of a call as the test function's output. -/
def result (call : Expr) : Option ValueType → List Stmt
  | some (.encrypted s) => scalarResult s (.apply (Library.qualified "decrypt") [call])
  | some (.plain s) => scalarResult s call
  | some (.fixed .bytes) => [.ret call]
  | some (.fixed (.sealed _)) => [.ret (.member call "data")]
  | some (.fixed _) | none => [.eval call, .ret (.number 0)]

/-- The statements of the branch. -/
def body (b : Branch) : List Stmt :=
  result b.call b.signature.returns

end Branch

namespace RenderedFunction

/-- Whether a shape's functions are tested as methods. -/
def isTestedAsMethod (f : RenderedFunction) : Bool :=
  match f.shape with
  | .unary .. | .binary .. | .ternary .. => true
  | _ => false

/-- The branches for one overload: the direct call, then the call as a method, then the call as
the operator that stands for the operation. -/
def branches (f : RenderedFunction) (operator : Option Operator) (params : List TestParam) :
    List Branch :=
  let arguments := List.zipWith TestParam.argument f.signature.inputs params
  ⟨.direct, f.signature, arguments⟩ ::
    match f.signature.inputs with
    | .encrypted s :: _ =>
      (if f.isTestedAsMethod && f.bindsTo s then [⟨.method, f.signature, arguments⟩] else [])
        ++ (match operator with
          | some o =>
            if s != .bool && f.isClosedBinary s then
              [⟨.operator o.symbol, f.signature, arguments⟩]
            else []
          | none => [])
    | _ => []

/-- Whether the function returns bytes, tagged or not. -/
def returnsBytes (f : RenderedFunction) : Bool :=
  match f.signature.returns with
  | some (.fixed .bytes) | some (.fixed (.sealed _)) => true
  | _ => false

end RenderedFunction

/-- The test contract of an operation. -/
structure TestContract where
  /-- The name of the operation and of the test function. -/
  operation : String
  params : List TestParam
  isPure : Bool
  /-- Whether the test function returns bytes rather than a number. -/
  returnsBytes : Bool
  branches : List Branch

namespace TestContract

/-- The test contract of a rendered operation. -/
def ofOperation (op : RenderedOperation) : TestContract :=
  let params := TestParam.ofKinds op.operation.inputs
  { operation := op.operation.name
    params
    isPure := op.functions.all (·.shape.isPure)
    returnsBytes := op.functions.any RenderedFunction.returnsBytes
    branches := op.functions.flatMap
      (·.branches (Operator.ofOperation? op.operation.name) params) }

/-- The name of the contract. -/
def name (c : TestContract) : String :=
  Naming.testContract c.operation

/-- The output of the test function as declared. -/
def outputDeclaration (c : TestContract) : String :=
  if c.returnsBytes then "bytes memory output" else "uint256 output"

/-- The first line of the test function. -/
def signatureLine (c : TestContract) : String :=
  "    function " ++ c.operation ++ "(" ++
    ", ".intercalate
      ("string calldata test" :: c.params.map fun p => p.declaration ++ " " ++ p.name) ++
    ") public" ++ (if c.isPure then " pure" else "") ++ " returns (" ++ c.outputDeclaration ++
    ") \x7b\n"

/-- A branch as one link of a chain of conditions, without the line end. -/
def renderBranch (b : Branch) : String :=
  "if (Utils.cmp(test, \"" ++ b.selector ++ "\")) \x7b\n" ++
    Solidity.renderBlock "            " b.body ++ "        \x7d"

/-- The chain of all branches. -/
def renderBranches (bs : List Branch) : String :=
  if bs.isEmpty then ""
  else "        " ++ " else ".intercalate (bs.map renderBranch) ++ "\n"

/-- The text of the test contract's file. -/
def render (c : TestContract) (config : Config) : String :=
  Library.fileHeader config
    ++ Library.unlines ["",
      "import \"../" ++ config.libraryFile ++ "\";",
      "import \x7bUtils\x7d from \"./utils/Utils.sol\";", "",
      "error TestNotFound(string test);", "",
      "contract " ++ c.name ++ " \x7b"]
    ++ c.signatureLine
    ++ renderBranches c.branches
    ++ "        revert TestNotFound(test);\n    \x7d\n\x7d\n"

end TestContract

end FheSolidity
