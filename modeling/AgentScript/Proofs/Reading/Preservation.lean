import AgentScript.Proofs.Reading.Content
import AgentScript.Proofs.Scan.Printed

/-!
Contract: a script without diagnostics and its canonical text have the same values.

Owns: the values of a script that is read without diagnostics and without repeated keys, and those
of its canonical text, parentheses and commas left out of both.
-/

set_option autoImplicit false

namespace AgentScript

theorem contentOf_laid (position : Position) (tokens : List Printed) :
    contentOf ((laid position tokens).map Lexed.token) = printedContent tokens := by
  induction tokens generalizing position with
  | nil => rfl
  | cons printed following inductionHypothesis =>
      rw [laid, List.map_cons, contentOf_cons, inductionHypothesis, printedContent_cons]

/-- The values of the canonical text of a well-formed program are those of the program. -/
theorem Program.WellFormed.contentOf_tokenize {program : Program} (wellFormed : program.WellFormed) :
    contentOf (tokenize program.text).1 = contentOfStmts program.statements ++ [""] := by
  have scan : (Cursor.ofSource program.text).scan =
      Cursor.scan ⟨.start, printedText program.printed⟩ := by
    rw [wellFormed.printedText_eq]
    rfl
  rw [← wellFormed.printedContent_eq, ← contentOf_laid .start]
  unfold tokenize
  rw [scan, Cursor.scan_printedText wellFormed.legible]
  simp only [Scan.allTokens, List.map_append, contentOf_append]
  rfl

/-- Reading a script without diagnostics drops no value of it and adds none, as long as no key is
repeated. -/
theorem contentOf_tokenize_text (source : String) (clean : (parse source).2.entries = [])
    (distinct : ¬ RepeatsKey (tokenize source).1) :
    contentOf (tokenize source).1 = contentOf (tokenize (parse source).1.text).1 := by
  obtain ⟨final, succession, cleanFinal, ended⟩ := parse_succession clean
  have keeps := succession.keepsContent
    (Production.keepsContent_statement (Production.levelProceeds_withRoom maxNesting)
      (Production.levelKeeps_withRoom maxNesting))
    (Production.proceeds_statement (Production.levelProceeds_withRoom maxNesting))
    (State.scanned_ofSource source) cleanFinal
  obtain ⟨used, ahead, _, _, same⟩ := keeps
  rw [ended, List.map_nil, List.append_nil] at ahead
  have tokens : (tokenize source).1 =
      used ++ [(Cursor.ofSource source).scan.ending.token] := by
    rw [← ahead]
    simp only [tokenize, Scan.allTokens, List.map_append]
    rfl
  have ending : contentOf [(Cursor.ofSource source).scan.ending.token] = [""] := by
    obtain ⟨kind, value, _⟩ := Cursor.scan_ending (Cursor.ofSource source)
    rw [contentOf_cons, kind, value]
    rfl
  have noRepeat : ¬ RepeatsKey used := by
    intro repeats
    rw [tokens] at distinct
    exact distinct (repeats.within [] _)
  rw [tokens, contentOf_append, same noRepeat, ending, (parse_wellFormed source).contentOf_tokenize]

/-- A dictionary with two keys, in parentheses that its canonical text does without. -/
theorem contentOf_tokenize_text_dictionary :
    contentOf (tokenize "x = (\x7b a: 1, b: [2] \x7d)").1 =
      contentOf (tokenize (parse "x = (\x7b a: 1, b: [2] \x7d)").1.text).1 := by
  have clean : (parse "x = (\x7b a: 1, b: [2] \x7d)").2.entries = [] := by decide +kernel
  have distinct : (valuesBeforeColon (tokenize "x = (\x7b a: 1, b: [2] \x7d)").1).Nodup := by
    decide +kernel
  exact contentOf_tokenize_text "x = (\x7b a: 1, b: [2] \x7d)" clean (not_repeatsKey_of_nodup distinct)

end AgentScript
