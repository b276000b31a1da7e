import AgentScript.Diagnostic.Sink
import Mathlib.Data.List.TakeWhile
import Mathlib.Tactic.Common

/-!
Contract: what the text of a diagnostic says about it.

Owns:
- the place that every text ends with, and the equality of texts as the equality of what stands
  before the place and of the places;
- the start of every message, which sets too deep a nesting apart from all other faults.
-/

set_option autoImplicit false

namespace AgentScript

/-! ## The place that a text ends with -/

/-- A number at the end of a text, after a space, can be told from what stands before it. -/
theorem append_digits_inj {left right : List Char} {first second : Nat}
    (same : left ++ ' ' :: Nat.toDigits 10 first = right ++ ' ' :: Nat.toDigits 10 second) :
    left = right ∧ first = second := by
  have digits (number : Nat) (before : List Char) :
      ((before ++ ' ' :: Nat.toDigits 10 number).reverse).takeWhile Char.isDigit =
        (Nat.toDigits 10 number).reverse := by
    have all : ∀ char ∈ (Nat.toDigits 10 number).reverse, char.isDigit = true :=
      fun char member =>
        Nat.isDigit_of_mem_toDigits (by decide) (by decide) (List.mem_reverse.1 member)
    rw [List.reverse_append, List.reverse_cons, List.append_assoc,
      List.takeWhile_append_of_pos all]
    simp
  have sameDigits : Nat.toDigits 10 first = Nat.toDigits 10 second := by
    have reversed := congrArg (fun text => text.reverse.takeWhile Char.isDigit) same
    simp only [digits] at reversed
    exact List.reverse_inj.1 reversed
  have sameNumber : first = second := by
    have numbers := congrArg (fun digits => Nat.ofDigitChars 10 digits 0) sameDigits
    simpa only [Nat.ofDigitChars_ten_toDigits] using numbers
  subst sameNumber
  exact ⟨List.append_cancel_right same, rfl⟩

theorem Position.toList_text (position : Position) :
    position.text.toList =
      "line".toList ++ ' ' :: (Nat.toDigits 10 position.line ++ (", column".toList ++
        ' ' :: Nat.toDigits 10 position.column)) := by
  simp [Position.text]

/-- A place at the end of a text can be told from what stands before it. -/
theorem append_position_inj {left right : List Char} {first second : Position}
    (same : left ++ first.text.toList = right ++ second.text.toList) :
    left = right ∧ first = second := by
  have split (before : List Char) (position : Position) : before ++ position.text.toList =
      (before ++ "line".toList ++ ' ' :: Nat.toDigits 10 position.line ++ ", column".toList) ++
        ' ' :: Nat.toDigits 10 position.column := by
    rw [Position.toList_text]
    simp
  rw [split, split] at same
  obtain ⟨sameBefore, sameColumn⟩ := append_digits_inj same
  obtain ⟨sameLeft, sameLine⟩ := append_digits_inj (List.append_cancel_right sameBefore)
  obtain ⟨firstLine, firstColumn⟩ := first
  obtain ⟨secondLine, secondColumn⟩ := second
  simp only at sameLine sameColumn
  exact ⟨List.append_cancel_right sameLeft, by rw [sameLine, sameColumn]⟩

namespace Diagnostic

/-- The place that the text of a diagnostic ends with. -/
def place (diagnostic : Diagnostic) : Position :=
  match diagnostic.fault with
  | .unterminatedLiteral _ start => start
  | _ => diagnostic.position

/-- What stands before the place in the text of a diagnostic. -/
def wording (diagnostic : Diagnostic) : String :=
  match diagnostic.fault with
  | .unterminatedLiteral form _ => "unterminated " ++ form ++ " starting at "
  | fault => fault.message ++ " at "

theorem text_eq (diagnostic : Diagnostic) :
    diagnostic.text = diagnostic.wording ++ diagnostic.place.text := by
  obtain ⟨fault, position⟩ := diagnostic
  cases fault <;> rfl

theorem text_eq_iff {left right : Diagnostic} :
    left.text = right.text ↔ left.wording = right.wording ∧ left.place = right.place := by
  constructor
  · intro same
    rw [text_eq, text_eq] at same
    have lists := congrArg String.toList same
    rw [String.toList_append, String.toList_append] at lists
    obtain ⟨sameWording, samePlace⟩ := append_position_inj lists
    exact ⟨String.toList_injective sameWording, samePlace⟩
  · rintro ⟨sameWording, samePlace⟩
    rw [text_eq, text_eq, sameWording, samePlace]

end Diagnostic

/-! ## The start of a message -/

/-- The first characters of a message. -/
def Fault.lead : Fault → List Char
  | unterminatedLiteral .. => ['u', 'n', 't']
  | unexpectedToken .. => ['e', 'x']
  | noPrefixForm .. => ['n', 'o']
  | invalidObjectKey .. => ['i', 'n']
  | invalidConfigKey .. => ['i', 'n']
  | semicolonSeparator => ['s', 'e']
  | sameLineStatement .. => ['u', 'n', 'e']
  | missingThrowExpression => ['t', 'h']
  | tryWithoutHandler => ['t', 'r']
  | reservedKeyword .. => ['\x27']
  | malformedNumber .. => ['c', 'o']
  | invalidExport .. => ['c', 'a']
  | nestingTooDeep .. => ['n', 'e']

theorem prefix_toList_append {leading : List Char} {left : String} (right : String)
    (starts : leading <+: left.toList) : leading <+: (left ++ right).toList := by
  rw [String.toList_append]
  exact starts.trans (List.prefix_append _ _)

theorem Fault.lead_prefix (fault : Fault) : fault.lead <+: fault.message.toList := by
  have literal (leading : List Char) (text rest : String) (starts : leading <+: text.toList) :
      leading <+: (text ++ rest).toList := prefix_toList_append rest starts
  cases fault with
  | unterminatedLiteral =>
      exact prefix_toList_append _ (prefix_toList_append _
        (literal ['u', 'n', 't'] "unterminated " _ (by decide +kernel)))
  | unexpectedToken =>
      exact prefix_toList_append _ (prefix_toList_append _
        (literal ['e', 'x'] "expected " _ (by decide +kernel)))
  | noPrefixForm =>
      exact literal ['n', 'o'] "no prefix parse function for " _ (by decide +kernel)
  | invalidObjectKey => exact literal ['i', 'n'] "invalid object key: " _ (by decide +kernel)
  | invalidConfigKey => exact literal ['i', 'n'] "invalid config key: " _ (by decide +kernel)
  | semicolonSeparator => decide +kernel
  | sameLineStatement =>
      exact prefix_toList_append _ (literal ['u', 'n', 'e'] "unexpected token " _ (by decide +kernel))
  | missingThrowExpression => decide +kernel
  | tryWithoutHandler => decide +kernel
  | reservedKeyword => exact prefix_toList_append _ (literal ['\x27'] "'" _ (by decide +kernel))
  | malformedNumber =>
      exact prefix_toList_append _ (literal ['c', 'o'] "could not parse " _ (by decide +kernel))
  | invalidExport => exact literal ['c', 'a'] "cannot export " _ (by decide +kernel)
  | nestingTooDeep =>
      exact prefix_toList_append _
        (literal ['n', 'e'] "nesting exceeds the limit of " _ (by decide +kernel))

def Diagnostic.IsTooDeep (diagnostic : Diagnostic) : Prop :=
  ∃ limit, diagnostic.fault = .nestingTooDeep limit

/-- The texts of all other diagnostics start differently. -/
theorem Diagnostic.IsTooDeep.of_text_eq {left right : Diagnostic} (tooDeep : left.IsTooDeep)
    (same : right.text = left.text) : right.IsTooDeep := by
  have leads (diagnostic : Diagnostic) : diagnostic.fault.lead <+: diagnostic.text.toList := by
    unfold Diagnostic.text
    split
    · exact diagnostic.fault.lead_prefix
    · exact prefix_toList_append _ (prefix_toList_append _ diagnostic.fault.lead_prefix)
  obtain ⟨limit, fault⟩ := tooDeep
  have leadRight := leads right
  have leadLeft := leads left
  rw [same] at leadRight
  rw [fault] at leadLeft
  have comparable := List.prefix_or_prefix_of_prefix leadRight leadLeft
  clear leadRight leadLeft same leads
  obtain ⟨rightFault, position⟩ := right
  cases rightFault with
  | nestingTooDeep limit => exact ⟨limit, rfl⟩
  | _ => exact absurd comparable (by simp only [Fault.lead]; decide)

end AgentScript
