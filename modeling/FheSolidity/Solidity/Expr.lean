/-!
# Expressions of generated code

The expressions that occur in generated Solidity and their text. Operators are printed without
parentheses: their operands are calls and names, and `choice` only stands as an argument.
-/

namespace FheSolidity.Solidity

/-- An expression of generated code. -/
inductive Expr where
  /-- A name, possibly with dots. -/
  | name (s : String)
  | number (n : Nat)
  | member (e : Expr) (name : String)
  | call (f : Expr) (args : List Expr)
  /-- A struct literal; its arguments are fields. -/
  | struct (name : String) (fields : List Expr)
  /-- A named field of a struct literal. -/
  | field (name : String) (value : Expr)
  | choice (condition whenTrue whenFalse : Expr)
  | operator (symbol : String) (lhs rhs : Expr)
  | not (e : Expr)

namespace Expr

mutual

/-- The text of an expression. -/
def render : Expr → String
  | .name s => s
  | .number n => toString n
  | .member e m => e.render ++ "." ++ m
  | .call f args => f.render ++ "(" ++ ", ".intercalate (renderAll args) ++ ")"
  | .struct s fields => s ++ "(\x7b" ++ ", ".intercalate (renderAll fields) ++ "\x7d)"
  | .field m value => m ++ ": " ++ value.render
  | .choice c t e => c.render ++ " ? " ++ t.render ++ " : " ++ e.render
  | .operator symbol lhs rhs => lhs.render ++ " " ++ symbol ++ " " ++ rhs.render
  | .not e => "!" ++ e.render

/-- The texts of several expressions. -/
def renderAll : List Expr → List String
  | [] => []
  | e :: es => e.render :: renderAll es

end

/-- A call of a named function. -/
def apply (f : String) (args : List Expr) : Expr :=
  .call (.name f) args

theorem renderAll_eq_map (es : List Expr) : renderAll es = es.map render := by
  induction es with
  | nil => rfl
  | cons e es ih => rw [renderAll, ih, List.map_cons]

end Expr

end FheSolidity.Solidity
