import AgentScript.Proofs.Diagnostic.Text
import AgentScript.Proofs.Token.FixedText
import Mathlib.Tactic.Common

/-!
Contract: texts without control characters.

Owns:
- the classes of characters that no control character is in;
- that what is written for a value is free of them, whatever the value is: between quotes and in a
  message;
- the same for the words, numbers and places of messages.
-/

set_option autoImplicit false

namespace AgentScript

section

variable {char : Char}

/-- A class has no control character if it has none among the codes below 160. -/
theorem isControl_eq_false_of {member : Char → Bool} (isMember : member char = true)
    (apart : ∀ code < 160, isControl (Char.ofNat code) = true →
      member (Char.ofNat code) = false) : isControl char = false := by
  rw [Bool.eq_false_iff]
  intro control
  have outside := apart char.toNat (toNat_lt_of_isControl control)
  rw [Char.ofNat_toNat] at outside
  rw [outside control] at isMember
  cases isMember

theorem isControl_of_continuesWord (continues : continuesWord char = true) :
    isControl char = false :=
  isControl_eq_false_of continues (by decide +kernel)

theorem isControl_of_isPrintable (printable : isPrintable char = true) : isControl char = false :=
  isControl_eq_false_of printable (by decide +kernel)

theorem isControl_of_isDigit (digit : isDigit char = true) : isControl char = false :=
  isControl_eq_false_of digit (by decide +kernel)

end

/-- No character of a text is a control character. -/
def ControlFree (text : List Char) : Prop := ∀ char ∈ text, isControl char = false

namespace ControlFree

variable {left right text : List Char} {char : Char}

-- decided along the text, not over all characters
instance (text : List Char) : Decidable (ControlFree text) :=
  List.decidableBAll (fun char => isControl char = false) text

@[simp] theorem nil : ControlFree [] := List.forall_mem_nil _

@[simp] theorem cons_iff :
    ControlFree (char :: text) ↔ isControl char = false ∧ ControlFree text :=
  List.forall_mem_cons

@[simp] theorem append_iff : ControlFree (left ++ right) ↔ ControlFree left ∧ ControlFree right :=
  List.forall_mem_append

theorem flatMap {written : Char → List Char} (each : ∀ char ∈ text, ControlFree (written char)) :
    ControlFree (text.flatMap written) := by
  intro char member
  obtain ⟨source, inText, inWritten⟩ := List.mem_flatMap.1 member
  exact each source inText char inWritten

theorem toDigits {base : Nat} (more : 1 < base) (few : base ≤ 16) (number : Nat) :
    ControlFree (Nat.toDigits base number) := by
  have digits : ∀ digit < 16, isControl (Nat.digitChar digit) = false := by decide
  induction number using Nat.strongRecOn with
  | ind number inductionHypothesis =>
      rw [Nat.toDigits_eq_if more]
      split_ifs with small
      · exact cons_iff.2 ⟨digits number (by omega), .nil⟩
      · have smaller : number / base < number := Nat.div_lt_self (by omega) more
        have last : number % base < 16 := (Nat.mod_lt number (by omega)).trans_le few
        exact append_iff.2 ⟨inductionHypothesis _ smaller, cons_iff.2 ⟨digits _ last, .nil⟩⟩

end ControlFree

theorem controlFree_append_iff {left right : String} :
    ControlFree (left ++ right).toList ↔ ControlFree left.toList ∧ ControlFree right.toList := by
  rw [String.toList_append, ControlFree.append_iff]

/-! ## Written values -/

theorem controlFree_hexDigits (char : Char) : ControlFree (hexDigits char) :=
  .toDigits (by decide) (by decide) _

theorem controlFree_fourHexDigits (char : Char) : ControlFree (fourHexDigits char) := by
  unfold fourHexDigits
  refine ControlFree.append_iff.2 ⟨fun zero member => ?_, controlFree_hexDigits char⟩
  obtain rfl := List.eq_of_mem_replicate member
  decide

section

variable {quote : Char} (visible : isControl quote = false)
include visible

theorem controlFree_escapeChar (char : Char) : ControlFree (escapeChar quote char) := by
  unfold escapeChar
  split_ifs with _ _ _ _ _ control
  · decide
  · decide
  · decide
  · decide
  · simp [visible, show isControl '\\' = false by decide]
  · have marks : ControlFree ['\\', 'u'] := by decide
    exact ControlFree.append_iff.2 ⟨marks, controlFree_fourHexDigits char⟩
  · simpa using control

theorem controlFree_escape (value : List Char) : ControlFree (escape quote value) :=
  .flatMap fun char _ => controlFree_escapeChar visible char

end

/-- The stand-ins of a text are written without control characters if the text has none. -/
theorem ControlFree.restoreDollarsFrom {text : List Char} (free : ControlFree text) (skip : Nat) :
    ControlFree (restoreDollarsFrom skip text) := by
  fun_induction AgentScript.restoreDollarsFrom skip text with
  | case1 => exact .nil
  | case2 skip char rest inductionHypothesis =>
      exact inductionHypothesis (ControlFree.cons_iff.1 free).2
  | case3 char rest isMark inductionHypothesis =>
      have marks : ControlFree ['\\', '$'] := by decide
      exact ControlFree.append_iff.2 ⟨marks, inductionHypothesis (ControlFree.cons_iff.1 free).2⟩
  | case4 char rest noMark inductionHypothesis =>
      obtain ⟨first, others⟩ := ControlFree.cons_iff.1 free
      exact ControlFree.cons_iff.2 ⟨first, inductionHypothesis others⟩

theorem controlFree_stringLiteral (value : String) : ControlFree (stringLiteral value).toList := by
  have quote : isControl '\x22' = false := by decide
  simp [stringLiteral, quote, controlFree_escape quote]

theorem controlFree_templateLiteral (value : String) :
    ControlFree (templateLiteral value).toList := by
  have quote : isControl '\x60' = false := by decide
  have inside := (controlFree_escape quote value.toList).restoreDollarsFrom 0
  simp only [templateLiteral, String.toList_ofList, restoreDollars, List.cons_append,
    ControlFree.cons_iff, ControlFree.append_iff]
  exact ⟨quote, inside, quote, .nil⟩

/-! ## Texts in messages -/

theorem controlFree_bracedCode (char : Char) : ControlFree (bracedCode char) := by
  have marks : ControlFree ['\\', 'u', '\x7b'] := by decide
  have closing : ControlFree ['\x7d'] := by decide
  exact ControlFree.append_iff.2
    ⟨ControlFree.append_iff.2 ⟨marks, controlFree_hexDigits char⟩, closing⟩

theorem EscapeStyle.controlFree_escape (style : EscapeStyle) (char : Char) :
    ControlFree (style.escape char) := by
  unfold EscapeStyle.escape
  split_ifs with _ _ _ _ _ _ _ _ printable
  all_goals first
    | decide
    | exact controlFree_bracedCode char
    | simpa using isControl_of_isPrintable printable

theorem controlFree_described (text : String) : ControlFree (described text).toList := by
  unfold described
  rw [String.toList_ofList]
  split
  · exact .nil
  · exact ControlFree.append_iff.2 ⟨EscapeStyle.controlFree_escape _ _,
      .flatMap fun char _ => EscapeStyle.controlFree_escape _ char⟩

theorem controlFree_keyword (keyword : Keyword) : ControlFree keyword.word.toList := by
  cases keyword <;> decide +kernel

theorem controlFree_kindText (kind : Kind) : ControlFree kind.text.toList := by
  cases kind with
  | keyword word => cases word <;> decide +kernel
  | _ => decide +kernel

theorem controlFree_describe (token : Token) : ControlFree token.describe.toList := by
  have marks : ControlFree " '".toList ∧ ControlFree "'".toList := by decide +kernel
  unfold Token.describe
  split_ifs
  · simp only [controlFree_append_iff]
    exact ⟨⟨⟨controlFree_kindText _, marks.1⟩, controlFree_described _⟩, marks.2⟩
  · exact controlFree_kindText _

theorem controlFree_natText (number : Nat) : ControlFree (toString number).toList := by
  rw [Nat.toString_eq_ofList_toDigits, String.toList_ofList]
  exact .toDigits (by decide) (by decide) number

theorem controlFree_positionText (position : Position) : ControlFree position.text.toList := by
  have marks : ControlFree "line ".toList ∧ ControlFree ", column ".toList := by decide +kernel
  unfold Position.text
  simp only [controlFree_append_iff]
  exact ⟨⟨⟨marks.1, controlFree_natText _⟩, marks.2⟩, controlFree_natText _⟩

/-! ## Values that are written as they are -/

theorem controlFree_of_isPlainName {text : String} (plain : isPlainName text = true) :
    ControlFree text.toList := by
  unfold isPlainName at plain
  split at plain
  · cases plain
  · next first rest isText =>
      simp only [Bool.and_eq_true, List.all_eq_true] at plain
      rw [isText, ControlFree.cons_iff]
      exact ⟨isControl_of_continuesWord (continuesWord_of_startsWord plain.1.1),
        fun char member => isControl_of_continuesWord (plain.1.2 char member)⟩

theorem controlFree_numberText (text : List Char) : ControlFree (numberText text) := by
  have digits (text : List Char) : ControlFree (text.takeWhile isDigit) :=
    fun char member => isControl_of_isDigit (List.mem_takeWhile_imp member)
  have point : isControl '.' = false := by decide
  refine ControlFree.append_iff.2 ⟨digits text, ?_⟩
  fun_cases fractionText (text.drop (text.takeWhile isDigit).length) with
  | case1 | case3 => exact .nil
  | case2 rest => exact ControlFree.cons_iff.2 ⟨point, digits rest⟩

theorem controlFree_of_fixedText? {kind : Kind} {text : String}
    (only : kind.fixedText? = some text) : ControlFree text.toList := by
  cases kind with
  | keyword word =>
      cases only
      exact controlFree_keyword word
  | _ => cases only <;> decide +kernel

end AgentScript
