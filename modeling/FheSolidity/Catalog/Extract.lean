import FheSolidity.Catalog.Annotation
import FheSolidity.Catalog.Declaration
import FheSolidity.Catalog.Params
import FheSolidity.Operation
import FheSolidity.Rules
import FheSolidity.Text.Lines

/-!
# Extraction of operations

`extract` reads the operations out of a catalog. An exported function is an operation unless it is
written by hand; its annotations are applied in their order to what its parameters declare. The
first function of a name counts, but an error in any function ends the reading.
-/

namespace FheSolidity.Catalog

/-- The names that all stand for the seal operation. -/
def sealAliases : List String :=
  ["sealoutput", "reencrypt"]

/-- Whether a name, in any case, stands for the seal operation. -/
def isSealAlias (name : String) : Bool :=
  sealAliases.any (Text.sameIgnoringCase · name)

/-- The seal operation, the same whatever its declaration says. -/
def sealing : Operation where
  name := Rules.sealOperation
  inputs := [.encrypted, .fixed (.fixed .bytes32)]
  returns := .explicit (.fixed .bytes)

/-- A list cut or filled up with encrypted inputs to a given length. -/
def resize (n : Nat) (inputs : List InputKind) : List InputKind :=
  inputs.take n ++ List.replicate (n - inputs.length) .encrypted

/-- The list with a kind at a position counted from one, filled up with encrypted inputs where it
is too short. -/
def setInput (position : Nat) (kind : InputKind) (inputs : List InputKind) : List InputKind :=
  (resize (max position inputs.length) inputs).set (position - 1) kind

/-- Fails for a count outside a range. -/
def checkCount (name : String) (least n : Nat) : Except CatalogError Unit :=
  if least ≤ n ∧ n ≤ Operation.maxArity then .ok () else .error (.invalidArity name n)

/-- What a word of an annotation stands for. -/
def resolve {κ : Type} (name word : String) : Option κ → Except CatalogError κ
  | some kind => .ok kind
  | none => .error (.unknownType name word)

/-- The operation after an annotation. -/
def applyAnnotation (op : Operation) : Annotation → Except CatalogError Operation
  | .returnType word => do
    return { op with returns := ← resolve op.name word (ReturnKind.ofWord? word) }
  | .inputType position word => do
    checkCount op.name 1 position
    let kind ← resolve op.name word (InputKind.ofWord? word)
    return { op with inputs := setInput position kind op.inputs }
  | .arity n => do
    checkCount op.name 0 n
    return { op with inputs := resize n op.inputs }
  | .plainInput => return { op with inputs := setInput 2 .plain op.inputs }
  | .plainOutput => return { op with returns := .plain }
  | .booleanMath => return { op with boolean := true }
  | .sameType => return { op with sameType := true }

/-- The inputs that a parameter list declares. A list without any known type stands for the most
encrypted inputs there may be. -/
def declaredInputs (params : List Char) : List InputKind :=
  match inputKinds params with
  | [] => List.replicate Operation.maxArity .encrypted
  | kinds => kinds

/-- The operation that the parameters and the annotations of a function describe. -/
def annotated (name : String) (d : Declaration) : Except CatalogError Operation := do
  let op ← (d.comments.filterMap Annotation.ofComment?).foldlM applyAnnotation
    { name, inputs := declaredInputs d.params }
  let checked ← Operation.ofInputs name op.inputs
  return { checked with returns := op.returns, sameType := op.sameType, boolean := op.boolean }

/-- Whether a function is exported. -/
def Declaration.isExported (d : Declaration) : Bool :=
  match d.name with
  | c :: _ => c.isUpper
  | [] => false

/-- The name of the operation that a function declares. -/
def Declaration.operationName (d : Declaration) : String :=
  Text.decapitalize (String.ofList d.name)

/-- The operation that a function declares, if it declares one. -/
def Declaration.operation? (d : Declaration) : Except CatalogError (Option Operation) :=
  if !d.isExported || Rules.isHandWritten d.operationName then .ok none
  else if isSealAlias d.operationName then .ok (some sealing)
  else some <$> annotated d.operationName d

/-- The operations without those whose name an earlier one has. -/
def firstOfEachName (ops : List Operation) : List Operation :=
  ops.foldl (fun kept op => if kept.any (·.name == op.name) then kept else kept ++ [op]) []

/-- The operations that lines of source declare. -/
def operationsOfLines (lines : List Line) : Except CatalogError (List Operation) := do
  return firstOfEachName ((← (declarations lines).mapM Declaration.operation?).filterMap id)

/-- The operations of a catalog. A catalog without any is an error. -/
def extract (text : String) : Except CatalogError (List Operation) := do
  match ← operationsOfLines (Text.lines text.toList) with
  | [] => throw .noOperations
  | ops => return ops

end FheSolidity.Catalog
