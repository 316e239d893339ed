import FheSolidity.Expansion.Product
import FheSolidity.Expansion.Tuple
import FheSolidity.Signature

/-!
# Expansion of operations

`Operation.expand` turns one operation into every signature that the rules admit: the product of
the candidates of its inputs, less the tuples that the rules drop. An operation that makes an
encrypted value out of nothing to promote from (a generator) has one function for each type
instead, with its trailing inputs optional. The only error is a result in the clear that is
declared of anything but one encrypted input.
-/

namespace FheSolidity

namespace Operation

/-- Fails for a result in the clear unless the only input is encrypted. -/
def checkPlainReturn (op : Operation) : Except ExpansionError Unit :=
  if op.returns = .plain then
    match op.inputs with
    | [.encrypted] | [.fixed (.encrypted _)] => .ok ()
    | [kind] => .error (.plainReturnInput op.name kind.name)
    | inputs => .error (.plainReturnArity op.name inputs.length)
  else .ok ()

/-- Whether the type of an input determines nothing about an encrypted result. -/
def isNeutral : InputKind → Bool
  | .fixed t => t.scalar?.isNone && !t.isByteString
  | .encrypted | .plain => false

/-- Whether the operation returns an encrypted value of any type it is asked for. -/
def isGenerator (op : Operation) : Bool :=
  op.returns == .encrypted && op.inputs.all isNeutral

/-- The types of the inputs of fixed kind. -/
def fixedInputs (op : Operation) : List ValueType :=
  op.inputs.filterMap fun
    | .fixed t => some t
    | _ => none

/-- The input lists that leave off the optional types from the end, in the order given. -/
def optionalEndings : List FixedType → List ValueType → List (List ValueType)
  | [], inputs => [inputs]
  | t :: ts, inputs =>
    if inputs.getLast? = some (.fixed t) then inputs :: optionalEndings ts inputs.dropLast
    else optionalEndings ts inputs

/-- The input lists of a generator: the zone may be left off, and after it the seed. -/
def generatorInputs (op : Operation) : List (List ValueType) :=
  optionalEndings [.zone, .seed] op.fixedInputs

/-- The name of a generator's function for one type. -/
def generatorSymbol (op : Operation) (s : Scalar) : String :=
  op.name ++ s.encryptedTitle

/-- The signatures of a generator. -/
def expandGenerator (op : Operation) (r : Rules) : List Signature :=
  (Scalar.all.filter (r.allows · op.name)).flatMap fun s =>
    op.generatorInputs.map fun inputs =>
      { Signature.ofOperation op.name inputs (some (.encrypted s)) with
        symbol := op.generatorSymbol s }

/-- The variant with a tagged result that goes with sealing an encrypted value. -/
def typedSealVariant? (op : Operation) (r : Rules) (tuple : List ValueType) : Option Signature :=
  if Rules.isSeal op.name && r.typedSeal then
    match tuple with
    | .encrypted s :: _ =>
      some { Signature.ofOperation op.name tuple (some (.fixed (.sealed s.sealFamily))) with
        symbol := Rules.typedSealSymbol }
    | _ => none
  else none

/-- The signatures of one tuple; none if the rules drop it. -/
def expandTuple (op : Operation) (r : Rules) (tuple : List ValueType) :
    Except ExpansionError (List Signature) :=
  match op.skip? r tuple with
  | some _ => .ok []
  | none => do
    let returns ← op.resolveReturn tuple
    return Signature.ofOperation op.name tuple returns :: (op.typedSealVariant? r tuple).toList

/-- Every tuple of candidates. -/
def tuples (op : Operation) (r : Rules) : List (List ValueType) :=
  Expansion.product (op.inputs.map (op.candidates r))

/-- Every signature of an operation. -/
def expand (op : Operation) (r : Rules) : Except ExpansionError (List Signature) := do
  op.checkPlainReturn
  if op.isGenerator then return op.expandGenerator r
  else return (← (op.tuples r).mapM (op.expandTuple r)).flatten

/-- The signatures of several operations, in their order. -/
def expandAll (r : Rules) (ops : List Operation) : Except ExpansionError (List Signature) :=
  return (← ops.mapM (·.expand r)).flatten

end Operation

end FheSolidity
