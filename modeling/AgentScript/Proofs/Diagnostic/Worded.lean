import AgentScript.Diagnostic.Fault
import AgentScript.Scan.Lexeme
import AgentScript.Token.Basic

/-!
Contract: the wording of faults, apart from the descriptions of tokens.

Owns:
- what may be said to be expected: a kind of token, a part of a form, or a name after a keyword;
- faults whose wording is fixed, but for keywords that were read.
-/

set_option autoImplicit false

namespace AgentScript

/-- The wordings for parts of forms that are not the wording of a kind. -/
def formWordings : List String :=
  ["assignment target", "loop variable", "catch parameter", "tool name", "parameter name",
    "imported name", "module path string", "type name", "property name after '.'",
    "',' or '\x7d' in object literal", "',' or newline between config entries",
    "',' or ')' in parameter list"]

/-- What may be said to be expected. The name of a declaration is called after the keyword that it
follows, which is one of the tokens that were read. -/
inductive IsWording (IsRead : Token → Prop) : String → Prop where
  | kind (kind : Kind) : IsWording IsRead kind.text
  | form {expected : String} : expected ∈ formWordings → IsWording IsRead expected
  | name {keyword : Token} :
      IsRead keyword → keyword.kind.isKeyword = true → IsWording IsRead (keyword.value ++ " name")

/-- What a fault says besides the description of its token is fixed, or is a keyword that was read.
-/
def Fault.Worded (IsRead : Token → Prop) : Fault → Prop
  | unterminatedLiteral form _ => ∃ literal : LiteralForm, form = literal.text
  | unexpectedToken expected _ => IsWording IsRead expected
  | reservedKeyword word =>
      ∃ keyword, IsRead keyword ∧ keyword.kind.isKeyword = true ∧ word = keyword.value
  | noPrefixForm _ | invalidObjectKey _ | invalidConfigKey _ | semicolonSeparator
  | sameLineStatement _ | missingThrowExpression | tryWithoutHandler | malformedNumber _
  | invalidExport _ | nestingTooDeep _ => True

section

variable {IsRead IsKnown : Token → Prop} (known : ∀ token, IsRead token → IsKnown token)
include known

theorem IsWording.mono {expected : String} (wording : IsWording IsRead expected) :
    IsWording IsKnown expected := by
  cases wording with
  | kind kind => exact .kind kind
  | form member => exact .form member
  | name isRead isKeyword => exact .name (known _ isRead) isKeyword

theorem Fault.Worded.mono {fault : Fault} (worded : fault.Worded IsRead) :
    fault.Worded IsKnown := by
  cases fault with
  | unterminatedLiteral form start => exact worded
  | unexpectedToken expected found => exact IsWording.mono known worded
  | reservedKeyword word =>
      obtain ⟨keyword, isRead, isKeyword, same⟩ := worded
      exact ⟨keyword, known _ isRead, isKeyword, same⟩
  | _ => trivial

end

end AgentScript
