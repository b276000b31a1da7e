import AgentScript.Grammar.TypeExpr

/-!
Contract: reading expressions.

Owns: every form that starts an expression, every form that continues one, and the loop that
continues an expression while the operator ahead binds tighter than the caller asks for.

The loop folds each operator into what stands to its left, and the right operand of an operator is
read at the operator's own power. Hence operators of equal power group to the left.
-/

set_option autoImplicit false

namespace AgentScript.Production

/-- A word that stands for a value, or a name. -/
def wordOperand (token : Token) : Expr :=
  if token.value = "true" then .boolean token true
  else if token.value = "false" then .boolean token false
  else if token.value = "null" then .null token
  else .identifier token

/-- A number, string, template or word. -/
def primary : Production Expr := do
  let token ← take
  match token.kind with
  | .number =>
      match Decimal.ofText? token.value.toList with
      | some value => return .number token value
      | none => throw ⟨.malformedNumber token.value, token.position⟩
  | .string => return .string token
  | .template => return .template token
  | _ => return wordOperand token

/-- A unary operator and its operand. -/
def unary (inner : Level) : Production Expr := do
  let operator ← take
  return .unary operator (← inner.expression .unary)

/-- An expression in parentheses, which leave no trace in the tree. -/
def grouping (inner : Level) : Production Expr := do
  let _ ← expect .openParen
  let value ← inner.expression .default
  let _ ← expect .closeParen
  return value

/-- Expressions with commas between them, up to and including a closing bracket. -/
def expressionList (inner : Level) (closing : Kind) : Production (List Expr) :=
  listOf ⟨closing, false, closing.text⟩ (inner.expression .default)

/-- An array literal. -/
def arrayLiteral (inner : Level) : Production Expr := do
  let bracket ← take
  return .array bracket (← expressionList inner .closeBracket)

/-- A key of an object literal: a name that is no keyword, or a string. -/
def objectKey : Production String := do
  match ← currentKind with
  | .identifier | .string => return (← take).value
  | .endOfInput => failUnexpected Kind.closeCurly.text
  | _ => failHere (.invalidObjectKey (← get).current.describe)

/-- A key, a colon and a value. -/
def keyed (inner : Level) (key : Production String) : Production (String × Expr) := do
  let key ← key
  let _ ← expect .colon
  return (key, ← inner.expression .default)

/-- What may follow a value of an object literal. -/
def objectListing : Listing := ⟨.closeCurly, false, "',' or '\x7d' in object literal"⟩

/-- An object literal. -/
def objectLiteral (inner : Level) : Production Expr := do
  let brace ← take
  return .object brace (Entries.ofPairs (← listOf objectListing (keyed inner objectKey)))

/-- An operator and its right operand. -/
def binary (inner : Level) (left : Expr) (power : BindingPower) : Production Expr := do
  let operator ← take
  return .binary operator left (← inner.expression power)

/-- A pipe and the stage to its right. -/
def pipe (inner : Level) (left : Expr) (power : BindingPower) : Production Expr := do
  let operator ← take
  return .pipe operator left (← inner.expression power)

/-- The arguments of a call. -/
def call (inner : Level) (function : Expr) : Production Expr := do
  let paren ← take
  return .call paren function (← expressionList inner .closeParen)

/-- A dot and the name of a property. Keywords are names here. -/
def member (object : Expr) : Production Expr := do
  let dot ← take
  if (← currentKind).namesMember then return .member dot object (← take)
  else failUnexpected "property name after '.'"

/-- An index in brackets. -/
def index (inner : Level) (object : Expr) : Production Expr := do
  let bracket ← take
  let position ← inner.expression .default
  let _ ← expect .closeBracket
  return .index bracket object position

/-- The form that starts an expression. -/
def operand (inner : Level) : Production Expr := do
  match (← currentKind).operandForm? with
  | some .primary => primary
  | some .unary => unary inner
  | some .grouping => grouping inner
  | some .array => arrayLiteral inner
  | some .object => objectLiteral inner
  | none => failHere (.noPrefixForm (← get).current.describe)

/-- The form that continues an expression. -/
def continuation (inner : Level) (left : Expr) : Production Expr := do
  let state ← get
  match state.kind.infixForm? with
  | some .pipe => pipe inner left state.power
  | some .binary => binary inner left state.power
  | some .call => call inner left
  | some .member => member left
  | some .index => index inner left
  | none => return left

/-- An expression whose operators bind tighter than the given power. -/
def expressionAt (inner : Level) (power : BindingPower) : Production Expr := do
  let left ← operand inner
  iterateWhile (fun state => power < state.power) (continuation inner) left

end AgentScript.Production
