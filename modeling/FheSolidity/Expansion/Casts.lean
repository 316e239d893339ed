import FheSolidity.Naming
import FheSolidity.Rules
import FheSolidity.Signature

/-!
# Conversions

Every encrypted type has a family of conversions `as<Type>`: from the other encrypted types and
from values in the clear where the rules allow it, and always from a ciphertext, given as bytes or
in its struct.
-/

namespace FheSolidity.Rules

/-- The operation of every conversion. -/
def castOperation : String := "cast"

/-- The input lists of the conversions to an encrypted `target`. -/
def castSources (r : Rules) (target : Scalar) : List (List ValueType) :=
  ((Scalar.all.map ValueType.encrypted).filter (r.canCast · target)).map (fun t => [t])
    ++ (if r.canCast (.plain .uint256) target then
        [[.plain .uint256], [.plain .uint256, .fixed .zone]] else [])
    ++ (([Scalar.bool, Scalar.address].map ValueType.plain).filter (r.canCast · target)).map
        (fun t => [t])
    ++ [[.fixed .bytes, .fixed .zone], [.fixed (.input target)]]

/-- The conversion of given inputs to an encrypted `target`. -/
def castSignature (target : Scalar) (inputs : List ValueType) : Signature where
  family := .cast
  operation := castOperation
  symbol := target.castFunction
  inputs := inputs
  returns := some (.encrypted target)

/-- Every conversion, grouped by the type it leads to. -/
def casts (r : Rules) : List Signature :=
  Scalar.all.flatMap fun target => (r.castSources target).map (castSignature target)

end FheSolidity.Rules
