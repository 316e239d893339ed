import FheSolidity.Abi
import FheSolidity.Artifact
import FheSolidity.Benchmark
import FheSolidity.Catalog.Annotation
import FheSolidity.Catalog.Declaration
import FheSolidity.Catalog.Extract
import FheSolidity.Catalog.Params
import FheSolidity.CommandLine.Failure
import FheSolidity.CommandLine.Options
import FheSolidity.CommandLine.Run
import FheSolidity.Config
import FheSolidity.ConfigFile
import FheSolidity.Disk
import FheSolidity.Dispatcher
import FheSolidity.Error
import FheSolidity.Expansion.Basic
import FheSolidity.Expansion.Casts
import FheSolidity.Expansion.Product
import FheSolidity.Expansion.Tuple
import FheSolidity.FileTree
import FheSolidity.Generator
import FheSolidity.Json.Quoted
import FheSolidity.Json.Token
import FheSolidity.Json.Value
import FheSolidity.Library.File
import FheSolidity.Library.Preamble
import FheSolidity.Main
import FheSolidity.MemorySink
import FheSolidity.Naming
import FheSolidity.Operation
import FheSolidity.Path
import FheSolidity.Proofs.Expansion.Order
import FheSolidity.Proofs.Scale
import FheSolidity.Proofs.Steps
import FheSolidity.Rendered
import FheSolidity.Report
import FheSolidity.Rules
import FheSolidity.Scalar
import FheSolidity.Shape
import FheSolidity.Shape.Body
import FheSolidity.Signature
import FheSolidity.Solidity.Decl
import FheSolidity.Solidity.Expr
import FheSolidity.Solidity.Stmt
import FheSolidity.Surface
import FheSolidity.TestContract
import FheSolidity.Text.Case
import FheSolidity.Text.Lines
import FheSolidity.Text.Pieces
import FheSolidity.Text.Scan
import FheSolidity.Text.Trim
import FheSolidity.Unicode.Blank
import FheSolidity.Unicode.Case
import FheSolidity.Unicode.Digit
import FheSolidity.Unicode.Ranges
import FheSolidity.Unicode.Word
import FheSolidity.ValueType
import FheSolidity.Proofs.Expansion.Admissible
import FheSolidity.Proofs.Expansion.Emitted
import FheSolidity.Proofs.Expansion.Exact
import FheSolidity.Proofs.Casts
import FheSolidity.Proofs.Expansion.Generators
import FheSolidity.Proofs.Expansion.Mixed
import FheSolidity.Proofs.Expansion.Overloads
import FheSolidity.Proofs.Overloads
import FheSolidity.Proofs.Generator
import FheSolidity.Proofs.Scopes
import FheSolidity.Proofs.Shapes
import FheSolidity.Proofs.Conversions
import FheSolidity.Proofs.Documented
import FheSolidity.Proofs.Catalog.Comments
import FheSolidity.Proofs.Catalog.Declarations
import FheSolidity.Proofs.Catalog.Annotated
import FheSolidity.Proofs.Catalog.RoundTrip
import FheSolidity.Proofs.Guards
import FheSolidity.Proofs.Catalog.Extraction
import FheSolidity.Proofs.TaggedSealing
import FheSolidity.Proofs.TestContracts.Branches
import FheSolidity.Proofs.TestContracts.Dispatch
import FheSolidity.Proofs.TestContracts.Agreement
import FheSolidity.Proofs.Selectors
import FheSolidity.Proofs.TestContracts.Selectors
import FheSolidity.Proofs.TestContracts.Outputs
import FheSolidity.Proofs.Writes
import FheSolidity.Proofs.MemorySink
import FheSolidity.Proofs.Paths
import FheSolidity.Proofs.Places
import FheSolidity.Proofs.Containment
import FheSolidity.Proofs.Expansion.Tightening
import FheSolidity.Proofs.Catalog.Locality
import FheSolidity.Proofs.Catalog.Outcomes
import FheSolidity.Proofs.Catalog.Literals
import FheSolidity.Proofs.Catalog.Parameters
import FheSolidity.Proofs.Catalog.Alike
import FheSolidity.Proofs.Catalog.Layouts
import FheSolidity.Proofs.Catalog.ListComments
import FheSolidity.Proofs.Catalog.LetterCase
import FheSolidity.Proofs.Expansion.Failure
import FheSolidity.Proofs.Expansion.Random
import FheSolidity.Proofs.Words
import FheSolidity.Proofs.CodeLines
import FheSolidity.Proofs.GuardPlacement
import FheSolidity.Proofs.Benchmarks
import FheSolidity.Proofs.Expansion.Product
import FheSolidity.Proofs.Repeats
import FheSolidity.Proofs.SinkContents
import FheSolidity.Proofs.Layers
import FheSolidity.Proofs.ParameterLists
