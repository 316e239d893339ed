import FheSolidity.Library.File

/-!
# Benchmark contracts

The benchmark contract of an operation keeps encrypted operands in storage. For each overload that
works on operands of one type it declares the storage variables, a function that loads them from
ciphertexts, and a function that runs the operation once. `Benchmark.ofOperation?` decides which
overloads are benchmarked; without any there is no contract.
-/

namespace FheSolidity

open Solidity (Expr FunctionDecl)

/-- A storage variable that holds an operand. -/
structure Slot where
  type : Scalar
  name : String
  deriving DecidableEq

/-- The storage variable of a role in the benchmark of a type. -/
def Slot.forRole (role : String) (value type : Scalar) : Slot where
  type := type
  name := role ++ value.encryptedTitle

/-- The parameter that a storage variable is loaded from. -/
def Slot.source (s : Slot) : String :=
  "_" ++ s.name

/-- The benchmark of one overload. -/
structure BenchCase where
  /-- The function under test. -/
  symbol : String
  isPure : Bool
  /-- The type that names the benchmark. -/
  value : Scalar
  /-- The operands, in the order of the inputs. -/
  slots : List Slot

namespace BenchCase

/-- The benchmark of a function, if its shape has one. -/
def ofFunction? (f : RenderedFunction) : Option BenchCase :=
  match f.shape with
  | .unary _ operand _ =>
    some ⟨f.signature.symbol, f.shape.isPure, operand, [.forRole "a" operand operand]⟩
  | .binary _ lhs rhs _ =>
    let working := Shape.workingType lhs rhs
    if f.signature.inputs = [.encrypted working, .encrypted working] then
      some ⟨f.signature.symbol, f.shape.isPure, working,
        [.forRole "a" working working, .forRole "b" working working]⟩
    else none
  | .ternary _ value =>
    some ⟨f.signature.symbol, f.shape.isPure, value,
      [.forRole "control" value .bool, .forRole "a" value value, .forRole "b" value value]⟩
  | _ => none

/-- The function that loads the operands from ciphertexts. -/
def load (c : BenchCase) : FunctionDecl where
  header := {
    symbol := "load" ++ c.value.encryptedTitle
    params := c.slots.map fun s => ⟨.fixed (.input s.type), s.source⟩
    location := .calldata
    visibility := some "public"
    mutability := none
    returns := none }
  body := c.slots.map fun s =>
    .assign s.name (.apply (Library.qualified s.type.castFunction) [.name s.source])

/-- The function that runs an operation on the operands. -/
def run (c : BenchCase) (operation : String) : FunctionDecl where
  header := {
    symbol := "bench" ++ Text.capitalize operation ++ c.value.encryptedTitle
    params := []
    visibility := some "public"
    mutability := if c.isPure then some .view else none
    returns := none }
  body := [.eval (.apply (Library.qualified c.symbol) (c.slots.map fun s => .name s.name))]

end BenchCase

/-- The benchmark contract of an operation. -/
structure Benchmark where
  operation : String
  cases : List BenchCase

namespace Benchmark

/-- The benchmark contract of a rendered operation. -/
def ofOperation? (op : RenderedOperation) : Option Benchmark :=
  match op.functions.filterMap BenchCase.ofFunction? with
  | [] => none
  | cases => some { operation := op.operation.name, cases }

/-- The name of the contract. -/
def name (b : Benchmark) : String :=
  Naming.benchContract b.operation

/-- Every storage variable, in the order of the declarations. -/
def slots (b : Benchmark) : List Slot :=
  b.cases.flatMap BenchCase.slots

/-- The text of the benchmark contract's file. -/
def render (b : Benchmark) (config : Config) : String :=
  Library.fileHeader config
    ++ Library.unlines ["",
      "import \"../" ++ config.libraryFile ++ "\";", "",
      "contract " ++ b.name ++ " \x7b"]
    ++ Library.unlines (b.slots.map fun s =>
        "    " ++ s.type.encryptedName ++ " internal " ++ s.name ++ ";")
    ++ String.join (b.cases.map fun c =>
        "\n" ++ c.load.render Solidity.indentStep
          ++ "\n" ++ (c.run b.operation).render Solidity.indentStep)
    ++ "\x7d\n"

end Benchmark

end FheSolidity
