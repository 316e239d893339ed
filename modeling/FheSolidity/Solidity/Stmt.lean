import FheSolidity.Solidity.Expr

/-!
# Statements of generated code

Each statement stands on its own lines, indented by four blanks for every level.
-/

namespace FheSolidity.Solidity

/-- A statement of generated code. -/
inductive Stmt where
  | eval (e : Expr)
  /-- The declaration of a 256-bit word. -/
  | word (name : String) (value : Expr)
  | assign (name : String) (value : Expr)
  | ret (value : Expr)
  | ifThen (condition : Expr) (body : Stmt)

/-- The blanks of one more level of indentation. -/
def indentStep : String := "    "

namespace Stmt

/-- The text of a statement at an indentation. -/
def render (indent : String) : Stmt → String
  | .eval e => indent ++ e.render ++ ";\n"
  | .word name value => indent ++ "uint256 " ++ name ++ " = " ++ value.render ++ ";\n"
  | .assign name value => indent ++ name ++ " = " ++ value.render ++ ";\n"
  | .ret value => indent ++ "return " ++ value.render ++ ";\n"
  | .ifThen condition body =>
    indent ++ "if (" ++ condition.render ++ ") \x7b\n" ++ body.render (indent ++ indentStep) ++
      indent ++ "\x7d\n"

end Stmt

/-- The text of several statements at an indentation. -/
def renderBlock (indent : String) (body : List Stmt) : String :=
  String.join (body.map (Stmt.render indent))

end FheSolidity.Solidity
