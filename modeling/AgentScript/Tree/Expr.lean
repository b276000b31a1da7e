import AgentScript.Number.Decimal
import AgentScript.Token.Basic
import AgentScript.Tree.Entries

/-!
Contract: expressions.

Owns: the forms of expressions. Each keeps the token it comes from, which for operators, calls,
accesses and bracketed forms is the operator or the opening bracket. Names, strings and templates
have the value of their token.
-/

set_option autoImplicit false

namespace AgentScript

inductive Expr where
  | identifier (token : Token)
  | number (token : Token) (value : Decimal)
  | string (token : Token)
  | template (token : Token)
  | boolean (token : Token) (value : Bool)
  | null (token : Token)
  | binary (operator : Token) (left right : Expr)
  | unary (operator : Token) (operand : Expr)
  | pipe (operator : Token) (left right : Expr)
  | call (paren : Token) (function : Expr) (arguments : List Expr)
  | member (dot : Token) (object : Expr) (property : Token)
  | index (bracket : Token) (object : Expr) (position : Expr)
  | array (bracket : Token) (elements : List Expr)
  | object (brace : Token) (entries : List (String × Expr))
deriving Repr

namespace Expr

/-- The token an expression comes from. -/
def token : Expr → Token
  | identifier token => token
  | number token _ => token
  | string token => token
  | template token => token
  | boolean token _ => token
  | null token => token
  | binary operator _ _ => operator
  | unary operator _ => operator
  | pipe operator _ _ => operator
  | call paren _ _ => paren
  | member dot _ _ => dot
  | index bracket _ _ => bracket
  | array bracket _ => bracket
  | object brace _ => brace

/-- The value of an object literal under a key. -/
def setting? (expr : Expr) (key : String) : Option Expr :=
  match expr with
  | object _ entries => Entries.get? entries key
  | _ => none

end Expr

end AgentScript
