import AgentScript.Proofs.Reading.Diagnosis
import AgentScript.Proofs.Reading.WellFormed
import AgentScript.Proofs.Scan.Spelling
import AgentScript.Proofs.Tree.Indent

/-!
Contract: what is written for a script holds no control character of the script.

Owns:
- that the messages and tips of faults are free of control characters;
- that the canonical text of the program and of each of its parts has the line breaks that its
  renderers write, and no other control character;
- that the blocks and declarations of the program are written with their lines moved as a whole.
-/

set_option autoImplicit false

namespace AgentScript

/-! ## Messages and tips -/

theorem controlFree_of_isKeyword {keyword : Token} (isKeyword : keyword.kind.isKeyword = true)
    (spelled : keyword.WellSpelled) : ControlFree keyword.value.toList := by
  obtain ⟨kind, value, position⟩ := keyword
  cases kind with
  | keyword word => exact controlFree_of_fixedText? spelled
  | _ => cases isKeyword

theorem controlFree_formWordings : ∀ expected ∈ formWordings, ControlFree expected.toList := by
  decide +kernel

section

variable {IsRead : Token → Prop} (spelled : ∀ token, IsRead token → token.WellSpelled)
include spelled

theorem IsWording.controlFree {expected : String} (wording : IsWording IsRead expected) :
    ControlFree expected.toList := by
  have mark : ControlFree " name".toList := by decide +kernel
  cases wording with
  | kind kind => exact controlFree_kindText kind
  | form member => exact controlFree_formWordings expected member
  | name isRead isKeyword =>
      exact controlFree_append_iff.2
        ⟨controlFree_of_isKeyword isKeyword (spelled _ isRead), mark⟩

/-- What a fault says of its token is escaped, and the rest of its wording is fixed or a keyword. -/
theorem Fault.controlFree {fault : Fault} {token : Token} (isRead : IsRead token)
    (describes : fault.Describes token) (worded : fault.Worded IsRead) :
    ControlFree fault.message.toList ∧ ∀ tip ∈ fault.tip?, ControlFree tip.toList := by
  have fixed {text : String} (free : ControlFree text.toList) :
      ∀ tip ∈ some text, ControlFree tip.toList := fun _ same => Option.some.inj same ▸ free
  have described := controlFree_describe token
  cases fault with
  | unterminatedLiteral form start =>
      obtain ⟨literal, rfl⟩ := worded
      have free : ControlFree literal.text.toList := by cases literal <;> decide +kernel
      refine ⟨?_, fixed ?_⟩
      · unfold message
        simp only [controlFree_append_iff]
        exact ⟨⟨⟨by decide +kernel, free⟩, by decide +kernel⟩, controlFree_positionText start⟩
      · simp only [controlFree_append_iff]
        exact ⟨⟨by decide +kernel, free⟩, by decide +kernel⟩
  | unexpectedToken expected found =>
      obtain rfl : found = token.describe := describes
      have wording := IsWording.controlFree spelled worded
      have free : ControlFree ("expected " ++ expected ++ ", got " ++ token.describe).toList := by
        simp only [controlFree_append_iff]
        exact ⟨⟨⟨by decide +kernel, wording⟩, by decide +kernel⟩, described⟩
      exact ⟨free, fixed free⟩
  | noPrefixForm found =>
      obtain rfl : found = token.describe := describes
      exact ⟨controlFree_append_iff.2 ⟨by decide +kernel, described⟩,
        fixed (controlFree_append_iff.2 ⟨described, by decide +kernel⟩)⟩
  | invalidObjectKey found | invalidConfigKey found | invalidExport found =>
      obtain rfl : found = token.describe := describes
      exact ⟨controlFree_append_iff.2 ⟨by decide +kernel, described⟩, fixed (by decide +kernel)⟩
  | sameLineStatement found =>
      obtain rfl : found = token.describe := describes
      refine ⟨?_, fixed (by decide +kernel)⟩
      unfold message
      simp only [controlFree_append_iff]
      exact ⟨⟨by decide +kernel, described⟩, by decide +kernel⟩
  | reservedKeyword word =>
      obtain ⟨keyword, isRead, isKeyword, rfl⟩ := worded
      have free := controlFree_of_isKeyword isKeyword (spelled keyword isRead)
      have around {before after : String}
          (marks : ControlFree before.toList ∧ ControlFree after.toList) :
          ControlFree (before ++ keyword.value ++ after).toList := by
        simp only [controlFree_append_iff]
        exact ⟨⟨marks.1, free⟩, marks.2⟩
      exact ⟨around (by decide +kernel), fixed (around (by decide +kernel))⟩
  | malformedNumber text =>
      exact absurd describes (not_describes_malformedNumber (spelled token isRead) text)
  | nestingTooDeep limit =>
      refine ⟨?_, fixed (by decide +kernel)⟩
      unfold message
      simp only [controlFree_append_iff]
      exact ⟨⟨by decide +kernel, controlFree_natText limit⟩, by decide +kernel⟩
  | semicolonSeparator | tryWithoutHandler =>
      exact ⟨by decide +kernel, fixed (by decide +kernel)⟩
  | missingThrowExpression => exact ⟨by decide +kernel, fun _ none => by cases none⟩

end

theorem Diagnostic.controlFree_text {diagnostic : Diagnostic}
    (message : ControlFree diagnostic.fault.message.toList) :
    ControlFree diagnostic.text.toList := by
  have mark : ControlFree " at ".toList := by decide +kernel
  unfold Diagnostic.text
  split
  · exact message
  · simp only [controlFree_append_iff]
    exact ⟨⟨message, mark⟩, controlFree_positionText _⟩

/-! ## Everything that is written for a script -/

/-- The canonical text of a script has no control character but line breaks, and exactly as many of
these as its program, its blocks and its declarations are written with. This holds of every part as
well, where an expression has none at all. The texts, messages and tips of the diagnostics have no
control character. -/
theorem output_unbroken (source : String) :
    BreaksOnly (parse source).1.lineBreaks (parse source).1.text.toList ∧
      (Node.program (parse source).1).Every Node.BreaksOnly ∧
      ∀ entry ∈ (parse source).2.entries,
        ControlFree entry.text.toList ∧ ControlFree entry.fault.message.toList ∧
          ∀ tip ∈ entry.fault.tip?, ControlFree tip.toList := by
  have wellFormed := parse_wellFormed source
  refine ⟨wellFormed.breaksOnly, Node.WellFormed.every_breaksOnly wellFormed,
    fun entry member => ?_⟩
  obtain ⟨token, inTokens, _, describes⟩ := parse_aboutOneOf source entry member
  have worded := parse_worded source entry member
  obtain ⟨message, tip⟩ :=
    Fault.controlFree (tokenize_wellSpelled source) inTokens describes worded
  exact ⟨Diagnostic.controlFree_text message, message, tip⟩

/-- Every block and every configured declaration of a script is written as moving the lines between
its brackets would write it. -/
theorem parse_indented (source : String) :
    (Node.program (parse source).1).Every Node.Indented :=
  Node.WellFormed.every_indented (parse_wellFormed source)

/-- A line feed in a string, an escape character in a template and a bell outside of any token. -/
theorem output_unbroken_with_controls :
    let source := "if (\x22a\nb\x22) \x7b\n  x = \x60\x1b[2J\x60\n\x7d\n\x07"
    (parse source).1.text = "if (\x22a\\nb\x22) \x7b\n  x = \x60\\u001b[2J\x60\n\x7d" ∧
      BreaksOnly 2 (parse source).1.text.toList ∧
      ∃ entry ∈ (parse source).2.entries,
        entry.text = "no prefix parse function for illegal '\\u\x7b7\x7d' at line 5, column 1" ∧
          ControlFree entry.text.toList := by
  intro source
  obtain ⟨text, _, entries⟩ := output_unbroken source
  have breaks : (parse source).1.lineBreaks = 2 := by decide +kernel
  have reported : ∃ entry ∈ (parse source).2.entries,
      entry.text = "no prefix parse function for illegal '\\u\x7b7\x7d' at line 5, column 1" := by
    decide +kernel
  obtain ⟨entry, member, message⟩ := reported
  rw [breaks] at text
  exact ⟨by decide +kernel, text, entry, member, message, (entries entry member).1⟩

end AgentScript
