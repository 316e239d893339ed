import FheSolidity.Shape.Body
import FheSolidity.Solidity.Decl

/-!
# Rendered functions

A rendered function is a signature together with its shape and with the comment block and the
declaration that the two determine. It is a member of the generated library.
-/

namespace FheSolidity

open Solidity (DocLine FunctionDecl Header)

/-- What a parameter is for. -/
def paramText : String → String
  | "lhs" => "The first operand"
  | "rhs" => "The second operand"
  | "control" => "The encrypted condition"
  | "ifTrue" => "Value taken when control is true"
  | "ifFalse" => "Value taken when control is false"
  | "publicKey" => "Public key to seal under"
  | "securityZone" => "Security zone of the ciphertext"
  | "seed" => "Seed mixed into the generator"
  | _ => "The input value"

namespace Shape

/-- What the function of a signature does. -/
def notice (sig : Signature) : Shape → String
  | .unary _ operand _ =>
    "This function performs the " ++ sig.operation ++ " operation on an " ++ operand.encryptedName
  | .binary _ lhs rhs _ =>
    "This function performs the " ++ sig.operation ++ " operation, computed as " ++
      (workingType lhs rhs).encryptedName
  | .ternary .. => "Selects ifTrue where control is true and ifFalse elsewhere"
  | .sealing _ operand _ true =>
    "Seals an " ++ operand.encryptedName ++ " and tags the result with its type"
  | .sealing _ operand _ false =>
    "Seals an " ++ operand.encryptedName ++ " for the holder of publicKey"
  | .cast _ target _ =>
    match sig.inputs with
    | source :: _ => "Converts a " ++ source.name ++ " value to an " ++ target.encryptedName
    | [] => "Converts a value to an " ++ target.encryptedName
  | .random _ target _ => "Generates a random " ++ target.encryptedName

/-- Whether the comment block has to say what becomes of parameters that were never set. -/
def treatsUninitialized : Shape → Bool
  | .cast .. | .random .. => false
  | _ => true

/-- The comment block above the function of a signature. -/
def doc (shape : Shape) (sig : Signature) : List DocLine :=
  [⟨"notice", shape.notice sig⟩]
    ++ (if shape.treatsUninitialized then
        [⟨"dev", "Uninitialized inputs are treated as an encryption of 0"⟩] else [])
    ++ shape.paramNames.map (fun x => ⟨"param", x ++ " " ++ paramText x⟩)
    ++ (match sig.returns with
        | some t => [⟨"return", "The result as " ++ t.name⟩]
        | none => [])

/-- The mutability of library functions of a shape. -/
def mutability (shape : Shape) : Option Solidity.Mutability :=
  if shape.isPure then some .pure else none

/-- The function of a signature. -/
def declare (shape : Shape) (sig : Signature) : FunctionDecl where
  header := {
    symbol := sig.symbol
    params := Solidity.paramsOf sig.inputs shape.paramNames
    visibility := some "internal"
    mutability := shape.mutability
    returns := sig.returns }
  body := shape.body sig.operation

end Shape

/-- A function of the generated library. -/
structure RenderedFunction where
  signature : Signature
  shape : Shape
  doc : List DocLine
  decl : FunctionDecl

namespace RenderedFunction

/-- The comment block as a member of a library. -/
def docText (f : RenderedFunction) : String :=
  Solidity.renderDoc Solidity.indentStep f.doc

/-- The declaration as a member of a library. -/
def codeText (f : RenderedFunction) : String :=
  f.decl.render Solidity.indentStep

/-- The function as a member of a library. -/
def text (f : RenderedFunction) : String :=
  f.docText ++ f.codeText

/-- The names of the parameters. -/
def paramNames (f : RenderedFunction) : List String :=
  f.shape.paramNames

end RenderedFunction

/-- The function of a signature with a given shape. -/
def Signature.renderAs (sig : Signature) (shape : Shape) : RenderedFunction where
  signature := sig
  shape := shape
  doc := shape.doc sig
  decl := shape.declare sig

/-- The function of a signature. -/
def Signature.render (sig : Signature) : Except TemplateError RenderedFunction :=
  return sig.renderAs (← sig.shape)

/-- The functions of several signatures; the first error counts. -/
def Signature.renderAll (sigs : List Signature) : Except TemplateError (List RenderedFunction) :=
  sigs.mapM Signature.render

end FheSolidity
