import AgentScript.Source.Position
import AgentScript.Text.Escaped
import AgentScript.Token.Kind

/-!
Contract: tokens.

Owns: a token's kind, text and place; its description in messages and its line in listings.

The text of a string or template is its value; that of every other token is what the script holds.
-/

set_option autoImplicit false

namespace AgentScript

structure Token where
  kind : Kind
  value : String
  position : Position
deriving DecidableEq, Repr

namespace Token

/-- The token in a message: its kind, and its text where that says more. -/
def describe (token : Token) : String :=
  if token.kind.carriesText then token.kind.text ++ " '" ++ described token.value ++ "'"
  else token.kind.text

/-- The token in a listing: its kind, its text where that says more, and its place. -/
def listing (token : Token) : String :=
  let place := toString token.position.line ++ ":" ++ toString token.position.column
  if token.kind.carriesText then token.kind.text ++ " (" ++ quoted token.value ++ ") " ++ place
  else token.kind.text ++ " " ++ place

end Token

end AgentScript
