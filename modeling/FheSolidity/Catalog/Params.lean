import FheSolidity.Operation
import FheSolidity.Text.Pieces
import FheSolidity.Text.Trim

/-!
# Parameter lists in Go source

Neighbouring parameters may share one type, which then stands after the last of them. `inputKinds`
gives the kinds of the inputs that a parameter list declares: parameters of other types, pointers
and the two parameters that every operation has are passed over.
-/

namespace FheSolidity.Catalog

open Unicode (isBlank)

/-- A parameter with the text of its type. -/
structure Param where
  name : List Char
  type : List Char
  deriving DecidableEq

/-- A parameter as written: a name, and a type if white space follows the name. -/
def splitParam (p : List Char) : List Char × Option (List Char) :=
  match p.span (fun c => !isBlank c) with
  | (name, []) => (name, none)
  | (name, rest) => (name, some (Text.trim rest))

/-- Puts a parameter before those that follow it, of which the first type is `next`. A parameter
without a type has the one that follows. -/
def consParam (p : List Char) (after : List Param × Option (List Char)) :
    List Param × Option (List Char) :=
  match splitParam p with
  | (name, some type) => (⟨name, type⟩ :: after.1, some type)
  | (name, none) => (⟨name, after.2.getD []⟩ :: after.1, after.2)

/-- The parameters of a list. -/
def params (text : List Char) : List Param :=
  ((((Text.pieces ',' text).map Text.trim).filter (· ≠ [])).foldr consParam ([], none)).1

/-- Whether a parameter is none of the operation's inputs, whatever its type. -/
def Param.isPlumbing (p : Param) : Bool :=
  p.name = "utype".toList || p.name = "tp".toList || p.type.head? = some '*'

/-- The kind of input that a type stands for. -/
def kindOfType? (type : List Char) : Option InputKind :=
  match String.ofList (type.filter (· ≠ ' ')) with
  | "[]byte" => some .encrypted
  | "uint64" => some (.fixed (.fixed .seed))
  | "int32" => some (.fixed (.fixed .zone))
  | "[32]byte" => some (.fixed (.fixed .bytes32))
  | _ => none

/-- The kinds of the inputs that a parameter list declares. -/
def inputKinds (text : List Char) : List InputKind :=
  ((params text).filter (!·.isPlumbing)).filterMap fun p => kindOfType? p.type

end FheSolidity.Catalog
