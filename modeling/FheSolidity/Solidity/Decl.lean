import FheSolidity.Solidity.Stmt
import FheSolidity.ValueType

/-!
# Function declarations of generated code

A header pairs types with names and says who may call the function, whether it touches state and
what it returns. A declaration is a header with a body; a comment block may stand above it.
-/

namespace FheSolidity.Solidity

/-- Where the reference values among the parameters live. -/
inductive Location where
  | memory
  | calldata
  deriving DecidableEq

/-- The keyword of a location. -/
def Location.keyword : Location → String
  | .memory => "memory"
  | .calldata => "calldata"

/-- How far a function touches state. -/
inductive Mutability where
  | pure
  | view
  deriving DecidableEq

/-- The keyword of a mutability. -/
def Mutability.keyword : Mutability → String
  | .pure => "pure"
  | .view => "view"

/-- A typed parameter. -/
structure Param where
  type : ValueType
  name : String
  deriving DecidableEq

/-- A parameter as written in a parameter list. -/
def Param.render (location : Location) (p : Param) : String :=
  p.type.declaredAt location.keyword ++ " " ++ p.name

/-- The first line of a function, without the brace. -/
structure Header where
  symbol : String
  params : List Param
  /-- Where the reference values among the parameters live. -/
  location : Location := .memory
  /-- Free functions have no visibility. -/
  visibility : Option String
  mutability : Option Mutability
  returns : Option ValueType
  deriving DecidableEq

/-- The types of the parameters. -/
def Header.paramTypes (h : Header) : List ValueType :=
  h.params.map Param.type

/-- The text of a header. -/
def Header.render (h : Header) : String :=
  "function " ++ h.symbol ++ "(" ++ ", ".intercalate (h.params.map (Param.render h.location)) ++ ")"
    ++ (match h.visibility with
      | some v => " " ++ v
      | none => "")
    ++ (match h.mutability with
      | some m => " " ++ m.keyword
      | none => "")
    ++ (match h.returns with
      | some t => " returns (" ++ t.declaration ++ ")"
      | none => "")

/-- The parameters of given types and names. The longer of the two lists is cut. -/
def paramsOf (types : List ValueType) (names : List String) : List Param :=
  (types.zip names).map fun (type, name) => { type, name }

/-- A function with its body. -/
structure FunctionDecl where
  header : Header
  body : List Stmt

/-- The text of a function at an indentation. -/
def FunctionDecl.render (indent : String) (f : FunctionDecl) : String :=
  indent ++ f.header.render ++ " \x7b\n" ++ renderBlock (indent ++ indentStep) f.body ++
    indent ++ "\x7d\n"

/-- A line of a comment block: a tag and what it is followed by. -/
structure DocLine where
  tag : String
  text : String
  deriving DecidableEq

/-- The text of a comment line at an indentation. -/
def DocLine.render (indent : String) (l : DocLine) : String :=
  indent ++ "/// @" ++ l.tag ++ " " ++ l.text ++ "\n"

/-- The text of a comment block at an indentation. -/
def renderDoc (indent : String) (doc : List DocLine) : String :=
  String.join (doc.map (DocLine.render indent))

theorem length_paramsOf {types : List ValueType} {names : List String}
    (h : types.length = names.length) : (paramsOf types names).length = types.length := by
  simp [paramsOf, h]

theorem map_type_paramsOf {types : List ValueType} {names : List String}
    (h : types.length ≤ names.length) : (paramsOf types names).map Param.type = types := by
  simp only [paramsOf, List.map_map]
  exact List.map_fst_zip h

theorem map_name_paramsOf {types : List ValueType} {names : List String}
    (h : names.length ≤ types.length) : (paramsOf types names).map Param.name = names := by
  simp only [paramsOf, List.map_map]
  exact List.map_snd_zip h

end FheSolidity.Solidity
