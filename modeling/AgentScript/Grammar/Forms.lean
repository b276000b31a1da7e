import AgentScript.Token.Kind

/-!
Contract: which kinds of token start or continue which form.

Owns:
- the binding powers, from the loosest to the tightest;
- the forms a token can start: of a statement, of an expression, of a type;
- the forms a token can continue an expression or a type with, and how tightly it binds there.

Everything here is a function of a kind alone. Where line breaks matter is up to the reader of the
tokens.
-/

set_option autoImplicit false

namespace AgentScript

/-- How tightly an operator holds its operands, loosest first. Operators of equal power group to
the left. -/
inductive BindingPower where
  | default
  | pipe
  | nullish
  | or
  | and
  | equality
  | relational
  | additive
  | multiplicative
  | unary
  | call
  | member
deriving DecidableEq, Repr

/-- The place of a power in the order. -/
def BindingPower.rank : BindingPower → Nat
  | default => 0
  | pipe => 1
  | nullish => 2
  | or => 3
  | and => 4
  | equality => 5
  | relational => 6
  | additive => 7
  | multiplicative => 8
  | unary => 9
  | call => 10
  | member => 11

instance : LT BindingPower := ⟨fun left right => left.rank < right.rank⟩

instance (left right : BindingPower) : Decidable (left < right) :=
  inferInstanceAs (Decidable (left.rank < right.rank))

/-- The forms that a keyword can start a statement of. -/
inductive StatementForm where
  | config
  | tool
  | importNames
  | exported
  | conditional
  | whileLoop
  | forOf
  | breakLoop
  | continueLoop
  | returnValue
  | throwValue
  | attempt
  | reserved
deriving DecidableEq, Repr

/-- The form of the statements that start with a keyword. Some keywords only occur further in. -/
def Keyword.statementForm? : Keyword → Option StatementForm
  | mcpKw | modelKw | agentKw => some .config
  | toolKw => some .tool
  | importKw => some .importNames
  | exportKw => some .exported
  | ifKw => some .conditional
  | whileKw => some .whileLoop
  | forKw => some .forOf
  | breakKw => some .breakLoop
  | continueKw => some .continueLoop
  | returnKw => some .returnValue
  | throwKw => some .throwValue
  | tryKw => some .attempt
  | acpKw | parallelKw => some .reserved
  | elseKw | ofKw | catchKw | finallyKw | fromKw => none

/-- The forms that start an expression. -/
inductive OperandForm where
  | primary
  | unary
  | grouping
  | array
  | object
deriving DecidableEq, Repr

/-- The forms that continue an expression. -/
inductive InfixForm where
  | pipe
  | binary
  | call
  | member
  | index
deriving DecidableEq, Repr

namespace Kind

/-- The form of the statements that start with a token of this kind, names and expressions apart. -/
def statementForm? : Kind → Option StatementForm
  | keyword word => word.statementForm?
  | _ => none

/-- Whether a token of this kind starts a statement of its own form. -/
def startsStatement (kind : Kind) : Bool := kind.statementForm?.isSome

/-- The form of the expressions that start with a token of this kind. -/
def operandForm? : Kind → Option OperandForm
  | number | identifier | string | template => some .primary
  | not | dash => some .unary
  | openParen => some .grouping
  | openBracket => some .array
  | openCurly => some .object
  | _ => none

/-- The form by which a token of this kind continues an expression. -/
def infixForm? : Kind → Option InfixForm
  | pipe => some .pipe
  | nullish | or | and | equals | notEquals | less | lessEquals | greater | greaterEquals
  | plus | dash | star | slash | percent => some .binary
  | openParen => some .call
  | dot => some .member
  | openBracket => some .index
  | _ => none

/-- How tightly a token of this kind binds to the expression before it. -/
def power : Kind → BindingPower
  | pipe => .pipe
  | nullish => .nullish
  | or => .or
  | and => .and
  | equals | notEquals => .equality
  | less | lessEquals | greater | greaterEquals => .relational
  | plus | dash => .additive
  | star | slash | percent => .multiplicative
  | openParen => .call
  | dot | openBracket => .member
  | _ => .default

/-- Whether a token of this kind continues an expression only on the line the expression ends on. -/
def needsSameLine (kind : Kind) : Bool := kind = openParen || kind = openBracket

/-- Whether a token of this kind names a type: names, and the keywords of declarations. -/
def namesType : Kind → Bool
  | identifier | keyword .mcpKw | keyword .modelKw | keyword .agentKw | keyword .toolKw => true
  | _ => false

/-- How tightly a token of this kind binds to the type before it, if it continues one. -/
def typePower? : Kind → Option BindingPower
  | openBracket => some .call
  | _ => none

theorem infixForm?_isSome_iff (kind : Kind) :
    kind.infixForm?.isSome = true ↔ BindingPower.default < kind.power := by
  cases kind <;> simp [infixForm?, power] <;> decide

end Kind

end AgentScript
