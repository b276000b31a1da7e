/-!
Contract: types as scripts write them.

Owns: a named type or an array of a type, its written form, its innermost name and its depth.
-/

set_option autoImplicit false

namespace AgentScript

/-- A type written after a colon. Nothing is checked against it while reading. -/
inductive TypeExpr where
  | named (name : String)
  | array (element : TypeExpr)
deriving DecidableEq, Repr

namespace TypeExpr

/-- The written form. -/
def text : TypeExpr → String
  | named name => name
  | array element => element.text ++ "[]"

/-- The name inside all arrays. -/
def baseName : TypeExpr → String
  | named name => name
  | array element => element.baseName

/-- How many arrays surround the name. -/
def dimensions : TypeExpr → Nat
  | named _ => 0
  | array element => element.dimensions + 1

end TypeExpr

end AgentScript
