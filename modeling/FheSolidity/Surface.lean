import FheSolidity.Expansion.Basic
import FheSolidity.Rendered

/-!
# The surface

The surface is everything the generator offers: the operations with their rendered overloads, and
the conversions.
-/

namespace FheSolidity

/-- An operation with the function of each of its overloads. -/
structure RenderedOperation where
  operation : Operation
  functions : List RenderedFunction

/-- All functions of the generated library. -/
structure Surface where
  operations : List RenderedOperation
  casts : List RenderedFunction

namespace Surface

/-- The functions of all operations. -/
def operationFunctions (s : Surface) : List RenderedFunction :=
  s.operations.flatMap RenderedOperation.functions

/-- All functions, the operations first. -/
def functions (s : Surface) : List RenderedFunction :=
  s.operationFunctions ++ s.casts

/-- The signatures of all functions, the operations first. -/
def signatures (s : Surface) : List Signature :=
  s.functions.map RenderedFunction.signature

end Surface

end FheSolidity
