import AgentScript.Grammar.State
import AgentScript.Proofs.Diagnostic.Moved
import AgentScript.Proofs.Tree.MapTokens

/-!
Contract: diagnostics that are about a token.

Owns:
- what a fault says of the token it is reported at;
- that two diagnostics about the same token are equal if their texts are.

A text does not determine the diagnostic by itself, as the wording of what was expected may hold any
characters. The token at its place tells where that wording ends.
-/

set_option autoImplicit false

namespace AgentScript

/-- What a fault says of the token it is reported at. -/
def Fault.Describes (fault : Fault) (token : Token) : Prop :=
  match fault with
  | .unterminatedLiteral _ start => start = token.position
  | .unexpectedToken _ found | .noPrefixForm found | .invalidObjectKey found
  | .invalidConfigKey found | .sameLineStatement found | .invalidExport found =>
      found = token.describe
  | .reservedKeyword keyword => keyword = token.value
  | .malformedNumber text =>
      token.kind = .number ∧ text = token.value ∧ Decimal.ofText? text.toList = none
  | .nestingTooDeep limit => limit = maxNesting
  | .semicolonSeparator | .missingThrowExpression | .tryWithoutHandler => True

/-- A diagnostic that is reported at a token and describes it. -/
def Diagnostic.About (diagnostic : Diagnostic) (token : Token) : Prop :=
  diagnostic.position = token.position ∧ diagnostic.fault.Describes token

namespace Diagnostic

variable {diagnostic left right : Diagnostic} {token : Token}

theorem About.place_eq (about : diagnostic.About token) : diagnostic.place = token.position := by
  obtain ⟨fault, position⟩ := diagnostic
  obtain ⟨rfl, describes⟩ := about
  cases fault with
  | unterminatedLiteral form start => exact describes
  | _ => rfl

/-- What is about a token is about its image. -/
theorem About.moved (move : Position → Position) (about : diagnostic.About token) :
    (diagnostic.moved move).About (token.moved move) := by
  obtain ⟨fault, position⟩ := diagnostic
  obtain ⟨rfl, describes⟩ := about
  refine ⟨rfl, ?_⟩
  cases fault with
  | unterminatedLiteral form start => exact congrArg move describes
  | _ => exact describes

theorem lead_prefix_wording (diagnostic : Diagnostic) :
    diagnostic.fault.lead <+: diagnostic.wording.toList := by
  obtain ⟨fault, position⟩ := diagnostic
  cases fault with
  | unterminatedLiteral form start =>
      have starts : ['u', 'n', 't'] <+: "unterminated ".toList := by decide +kernel
      exact prefix_toList_append _ (prefix_toList_append _ starts)
  | _ => exact prefix_toList_append _ (Fault.lead_prefix _)

/-- The wordings for the keys of objects and of declarations differ before the key. -/
theorem objectKey_ne_configKey (found other : String) (position : Position) :
    wording ⟨.invalidObjectKey found, position⟩ ≠ wording ⟨.invalidConfigKey other, position⟩ := by
  intro same
  have object : "invalid o".toList <+: "invalid object key: ".toList := by decide +kernel
  have config : "invalid c".toList <+: "invalid config key: ".toList := by decide +kernel
  have starts : "invalid o".toList <+: (wording ⟨.invalidObjectKey found, position⟩).toList :=
    prefix_toList_append _ (prefix_toList_append _ object)
  rw [same] at starts
  have startsAlso : "invalid c".toList <+: (wording ⟨.invalidConfigKey other, position⟩).toList :=
    prefix_toList_append _ (prefix_toList_append _ config)
  have isPrefix := List.prefix_of_prefix_length_le starts startsAlso (by decide +kernel)
  have sameStart := isPrefix.eq_of_length (by decide +kernel)
  exact absurd sameStart (by decide +kernel)

/-- The texts of diagnostics about one token tell them apart. -/
theorem About.eq_of_text_eq (aboutLeft : left.About token) (aboutRight : right.About token)
    (same : left.text = right.text) : left = right := by
  have wording := (text_eq_iff.1 same).1
  have comparable := List.prefix_or_prefix_of_prefix left.lead_prefix_wording
    (wording ▸ right.lead_prefix_wording)
  obtain ⟨leftFault, leftPosition⟩ := left
  obtain ⟨rightFault, rightPosition⟩ := right
  obtain ⟨rfl, describesLeft⟩ := aboutLeft
  obtain ⟨rfl, describesRight⟩ := aboutRight
  cases leftFault <;> cases rightFault
  case unterminatedLiteral.unterminatedLiteral form start otherForm otherStart =>
    obtain rfl : start = token.position := describesLeft
    obtain rfl : otherStart = token.position := describesRight
    obtain rfl : form = otherForm :=
      (String.append_right_inj _).1 ((String.append_left_inj _).1 wording)
    rfl
  case unexpectedToken.unexpectedToken expected found otherExpected otherFound =>
    obtain rfl : found = token.describe := describesLeft
    obtain rfl : otherFound = token.describe := describesRight
    have before := (String.append_left_inj _).1 ((String.append_left_inj _).1 wording)
    obtain rfl : expected = otherExpected :=
      (String.append_right_inj _).1 ((String.append_left_inj _).1 before)
    rfl
  case invalidObjectKey.invalidConfigKey => exact absurd wording (objectKey_ne_configKey _ _ _)
  case invalidConfigKey.invalidObjectKey => exact absurd wording.symm (objectKey_ne_configKey _ _ _)
  case malformedNumber.malformedNumber text otherText =>
    obtain rfl : text = token.value := describesLeft.2.1
    obtain rfl : otherText = token.value := describesRight.2.1
    rfl
  all_goals first
    | exact absurd comparable (by simp only [Fault.lead]; decide)
    | (cases describesLeft; cases describesRight; rfl)

end Diagnostic

end AgentScript
