import AgentScript.Grammar.Production

/-!
Contract: reading types.

Owns: a type as a name followed by any number of empty brackets, and the type that may follow a
colon.
-/

set_option autoImplicit false

namespace AgentScript.Production

/-- The name that a type starts with. -/
def typeName : Production TypeExpr := do
  if (← currentKind).namesType then return .named (← take).value
  else failUnexpected "type name"

/-- The empty brackets that make an array of a type. -/
def arraySuffix (element : TypeExpr) : Production TypeExpr := do
  let _ ← expect .openBracket
  let _ ← expect .closeBracket
  return .array element

/-- Whether the current token continues a type more tightly than the given power. -/
def continuesType (power : BindingPower) (state : State) : Bool :=
  power < state.kind.typePower?.getD .default

/-- A type whose suffixes bind tighter than the given power. -/
def typeExpr (power : BindingPower) : Production TypeExpr := do
  iterateWhile (continuesType power) arraySuffix (← typeName)

/-- The type after a colon, if there is a colon. -/
def declaredType? : Production (Option TypeExpr) := after? .colon (typeExpr .default)

end AgentScript.Production
