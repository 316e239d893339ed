import FheSolidity.Library.Preamble
import FheSolidity.Surface

/-!
# The library file

`Library.File.ofSurface` decides what the library file declares: the members of `library FHE`, the
free functions behind the operators of each encrypted type, and the library of methods of each
encrypted type. `Library.File.render` is its text.
-/

namespace FheSolidity

open Solidity (Expr FunctionDecl)

namespace RenderedFunction

/-- A function of another name that passes its parameters on to `target`. -/
def forwarder (f : RenderedFunction) (symbol target : String) (visibility : Option String) :
    FunctionDecl :=
  let call := Expr.apply target (f.paramNames.map .name)
  { header := {
      symbol
      params := Solidity.paramsOf f.signature.inputs f.paramNames
      visibility
      mutability := f.shape.mutability
      returns := f.signature.returns }
    body := match f.signature.returns with
      | some _ => [.ret call]
      | none => [.eval call] }

/-- Whether the function takes two values of an encrypted type to one, under the name of its
operation. Only such functions can stand behind an operator. -/
def isClosedBinary (f : RenderedFunction) (s : Scalar) : Bool :=
  f.signature.family == .operation
    && f.signature.symbol == f.signature.operation
    && f.signature.inputs == [.encrypted s, .encrypted s]
    && f.signature.returns == some (.encrypted s)

/-- Whether the function is a method of an encrypted type: the type of its first input. -/
def bindsTo (f : RenderedFunction) (s : Scalar) : Bool :=
  f.signature.family == .operation
    && f.signature.inputs.head? == some (.encrypted s)
    && (match f.shape with
      | .random .. => false
      | _ => true)

/-- The encrypted type that the function converts one of type `s` to. -/
def conversionFrom? (f : RenderedFunction) (s : Scalar) : Option Scalar :=
  match f.signature.inputs, f.signature.returns with
  | [.encrypted source], some (.encrypted target) => if source = s then some target else none
  | _, _ => none

end RenderedFunction

namespace Library

/-- The name of a function as seen from outside `library FHE`. -/
def qualified (symbol : String) : String :=
  "FHE." ++ symbol

/-- An operator that is defined for an encrypted type, with the function behind it. -/
structure BoundOperator where
  operator : Operator
  decl : FunctionDecl

/-- The operators of one encrypted type. -/
structure OperatorBlock where
  type : Scalar
  bound : List BoundOperator

/-- The methods of one encrypted type. -/
structure BindingLibrary where
  type : Scalar
  members : List FunctionDecl

/-- What the library file declares. -/
structure File where
  preamble : String
  helpers : List FunctionDecl
  operations : List RenderedFunction
  casts : List RenderedFunction
  operators : List OperatorBlock
  bindings : List BindingLibrary

/-- The function that an operator of an encrypted type can stand for. -/
def operatorTarget? (surface : Surface) (o : Operator) (s : Scalar) : Option RenderedFunction :=
  ((surface.operations.filter (·.operation.name == o.operation)).flatMap
    RenderedOperation.functions).find? (·.isClosedBinary s)

/-- An operator of an encrypted type, if there is a function to stand behind it. -/
def bindOperator? (surface : Surface) (s : Scalar) (o : Operator) : Option BoundOperator :=
  (operatorTarget? surface o s).map fun f =>
    ⟨o, f.forwarder (Naming.operatorFunction o.operation s) (qualified o.operation) none⟩

/-- The operators of an encrypted type. Booleans have none. -/
def operatorBlock (surface : Surface) (s : Scalar) : OperatorBlock where
  type := s
  bound := if s = .bool then [] else Operator.all.filterMap (bindOperator? surface s)

/-- A function as a method of its first input. -/
def method (f : RenderedFunction) : FunctionDecl :=
  f.forwarder f.signature.symbol (qualified f.signature.symbol) (some "internal")

/-- A conversion as a method of its input. -/
def conversionMethod (f : RenderedFunction) (target : Scalar) : FunctionDecl :=
  f.forwarder ("to" ++ target.shortTitle) (qualified f.signature.symbol) (some "internal")

/-- The methods of an encrypted type: operations first, then conversions. -/
def bindingLibrary (surface : Surface) (s : Scalar) : BindingLibrary where
  type := s
  members :=
    (surface.operationFunctions.filter (·.bindsTo s)).map method
      ++ surface.casts.filterMap fun f => (f.conversionFrom? s).map (conversionMethod f)

/-- The library file of a surface. -/
def File.ofSurface (c : Config) (surface : Surface) : File where
  preamble := Library.preamble c
  helpers := Library.helpers
  operations := surface.operationFunctions
  casts := surface.casts
  operators := Scalar.all.map (operatorBlock surface)
  bindings := Scalar.all.map (bindingLibrary surface)

/-- The text of the operators of one type; nothing, if there are none. -/
def OperatorBlock.render (b : OperatorBlock) : String :=
  if b.bound.isEmpty then ""
  else
    "\nusing \x7b" ++
      ", ".intercalate (b.bound.map fun o => o.decl.header.symbol ++ " as " ++ o.operator.symbol)
      ++ "\x7d for " ++ b.type.encryptedName ++ " global;\n"
      ++ String.join (b.bound.map fun o => "\n" ++ o.decl.render "")

/-- The text of the methods of one type; nothing, if there are none. -/
def BindingLibrary.render (b : BindingLibrary) : String :=
  if b.members.isEmpty then ""
  else
    unlines ["",
      "using " ++ b.type.bindingLibrary ++ " for " ++ b.type.encryptedName ++ " global;",
      "library " ++ b.type.bindingLibrary ++ " \x7b"]
      ++ "\n".intercalate (b.members.map (FunctionDecl.render Solidity.indentStep))
      ++ "\x7d\n"

/-- The text of the library file. -/
def File.render (f : File) : String :=
  f.preamble
    ++ "\nlibrary FHE \x7b\n"
    ++ String.join (f.helpers.map fun d => d.render Solidity.indentStep ++ "\n")
    ++ String.join (f.operations.map fun g => g.text ++ "\n")
    ++ "    // ********** TYPE CASTING ************* //\n\n"
    ++ "\n".intercalate (f.casts.map RenderedFunction.text)
    ++ "\x7d\n"
    ++ String.join (f.operators.map OperatorBlock.render)
    ++ String.join (f.bindings.map BindingLibrary.render)

end Library

end FheSolidity
