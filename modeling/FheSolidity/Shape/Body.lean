import FheSolidity.Naming
import FheSolidity.Shape
import FheSolidity.Solidity.Stmt

/-!
# Function bodies

`Shape.body` is the body that a shape plans. A body first replaces each encrypted parameter that
was never set by an encryption of zero (`guard`), then unwraps the operands to 256-bit words, calls
the dispatcher and wraps the result. Only the tagged form of sealing has no guard: it passes its
operand on to the untagged form.
-/

namespace FheSolidity

open Solidity (Expr Stmt)

namespace Shape

/-- Replaces an encrypted parameter that was never set by an encryption of zero. -/
def guard (x : String) (s : Scalar) : Stmt :=
  .ifThen (.not (.apply "isInitialized" [.name x]))
    (.assign x (.apply s.castFunction [.number 0]))

/-- The word behind a handle of an encrypted type. -/
def unwrap (s : Scalar) (e : Expr) : Expr :=
  .call (.member (.name s.encryptedName) "unwrap") [e]

/-- A word as a handle of an encrypted type. -/
def wrap (s : Scalar) (e : Expr) : Expr :=
  .call (.member (.name s.encryptedName) "wrap") [e]

/-- The tag of an encrypted type. -/
def tag (s : Scalar) : Expr :=
  .name s.tagConstant

/-- A call of the dispatcher's wrapper library. -/
def dispatch (method : String) (args : List Expr) : Expr :=
  .apply ("Impl." ++ method) args

/-- The statements that hand back the raw result of a call. -/
def finish (call : Expr) : Output → List Stmt
  | .encrypted s => [.word "result" call, .ret (wrap s (.name "result"))]
  | .plain s => [.word "result" call, .ret (.apply s.fromWord [.name "result"])]
  | .nothing => [.eval call]

/-- An operand as a word of the type that the operation is computed in. -/
def operandWord (working : Scalar) (x : String) (operand : Operand) : Expr :=
  if operand = .encrypted working then unwrap working (.name x)
  else unwrap working (.apply working.castFunction [.name x])

/-- The guard of an operand, if it is encrypted. -/
def operandGuard (x : String) : Operand → List Stmt
  | .encrypted s => [guard x s]
  | .plain _ => []

/-- A value in the clear as the word that the dispatcher encrypts. -/
def plainWord : Scalar → Expr
  | .bool =>
    .choice (.name "value") (.apply "uint256" [.number 1]) (.apply "uint256" [.number 0])
  | .address => .apply "uint256" [.apply "uint160" [.name "value"]]
  | .uint256 => .name "value"
  | _ => .apply "uint256" [.name "value"]

def unaryBody (f : FunctionRef) (operand : Scalar) (output : Output) : List Stmt :=
  [guard "value" operand, .word "unwrappedInput1" (unwrap operand (.name "value"))] ++
    finish (dispatch "unaryOp" [.name f.expr, tag operand, .name "unwrappedInput1"]) output

def binaryBody (f : FunctionRef) (lhs : Scalar) (rhs : Operand) (output : Output) : List Stmt :=
  let working := workingType lhs rhs
  [guard "lhs" lhs] ++ operandGuard "rhs" rhs ++
    [.word "unwrappedInput1" (operandWord working "lhs" (.encrypted lhs)),
      .word "unwrappedInput2" (operandWord working "rhs" rhs)] ++
    finish
      (dispatch "mathOp"
        [.name f.expr, tag working, .name "unwrappedInput1", .name "unwrappedInput2"])
      output

def ternaryBody (f : FunctionRef) (value : Scalar) : List Stmt :=
  [guard "control" .bool, guard "ifTrue" value, guard "ifFalse" value,
    .word "unwrappedInput1" (unwrap .bool (.name "control")),
    .word "unwrappedInput2" (unwrap value (.name "ifTrue")),
    .word "unwrappedInput3" (unwrap value (.name "ifFalse"))] ++
    finish
      (dispatch "ternaryOp"
        [.name f.expr, tag value, .name "unwrappedInput1", .name "unwrappedInput2",
          .name "unwrappedInput3"])
      (.encrypted value)

/-- The method of the wrapper library that takes a key of a given type. -/
def KeyType.method : KeyType → String
  | .bytes32 => "sealOp"
  | .bytes => "sealOpBytes"

def sealingBody (f : FunctionRef) (operand : Scalar) (key : KeyType) : List Stmt :=
  [guard "value" operand, .word "unwrapped" (unwrap operand (.name "value")),
    .ret (dispatch (KeyType.method key)
      [.name f.expr, tag operand, .name "unwrapped", .name "publicKey"])]

/-- Tags what the untagged form of sealing, a function named after the operation, returns. -/
def typedSealingBody (operation : String) (operand : Scalar) : List Stmt :=
  [.ret (.struct operand.sealFamily.name
    [.field "data" (.apply operation [.name "value", .name "publicKey"]),
      .field "utype" (tag operand)])]

def castBody (f : FunctionRef) (target : Scalar) : CastSource → List Stmt
  | .encrypted s =>
    guard "value" s ::
      finish (dispatch "cast" [.name f.expr, tag s, unwrap s (.name "value"), tag target])
        (.encrypted target)
  | .plain s zoned =>
    let zone := if zoned then .name "securityZone" else .number 0
    [.ret (wrap target
      (dispatch "trivialEncrypt" [.name f.expr, plainWord s, tag target, zone]))]
  | .ciphertext =>
    [.ret (wrap target
      (dispatch "verify" [.name f.expr, .name "value", tag target, .name "securityZone"]))]
  | .inputStruct =>
    [.ret (.apply target.castFunction
      [.member (.name "value") "data", .member (.name "value") "securityZone"])]

def randomBody (f : FunctionRef) (target : Scalar) (form : RandomForm) : List Stmt :=
  let seed := if form.isSeeded then .name "seed" else .number 0
  let zone := if form.isZoned then .name "securityZone" else .number 0
  finish (dispatch "random" [.name f.expr, tag target, seed, zone]) (.encrypted target)

/-- The body that a shape plans for a function of an operation. -/
def body (operation : String) : Shape → List Stmt
  | .unary f operand output => unaryBody f operand output
  | .binary f lhs rhs output => binaryBody f lhs rhs output
  | .ternary f value => ternaryBody f value
  | .sealing f operand key false => sealingBody f operand key
  | .sealing _ operand _ true => typedSealingBody operation operand
  | .cast f target source => castBody f target source
  | .random f target form => randomBody f target form

end Shape

end FheSolidity
