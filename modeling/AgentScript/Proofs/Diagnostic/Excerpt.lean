import AgentScript.Diagnostic.Excerpt
import AgentScript.Proofs.Source.Line
import Mathlib.Data.List.Basic

/-!
Contract: the caret of an excerpt stands under the character that the diagnostic points at.

Owns:
- what trimming leaves of a line around a character that is no white space;
- the width of the field with the caret, which decides whether there is an excerpt;
- the last two lines of an excerpt, and the place of the caret in the last one;
- the character above the caret.
-/

set_option autoImplicit false

namespace AgentScript

/-- The caret in the last line of a text stands under the given character of the line before it. -/
def CaretUnder (char : Char) (text : String) : Prop :=
  ∃ above shown marks, splitLines text.toList = above ++ [shown, marks] ∧
    '^' ∈ marks ∧ shown[marks.idxOf '^']? = some char

/-! ## What is shown of a line -/

section

variable {char : Char} (visible : isWhiteSpace char = false)

include visible in
theorem isIndent_eq_false : isIndent char = false := by
  cases indent : isIndent char with
  | false => rfl
  | true =>
      rw [isWhiteSpace_of_isBlank (isBlank_of_isIndent indent)] at visible
      cases visible

include visible in
theorem ne_feed_of_visible : char ≠ '\n' := by
  rintro rfl
  revert visible
  decide

include visible in
/-- Only what follows a character that is no white space is trimmed at the end. -/
theorem trimEnd_append_cons (before rest : List Char) :
    ∃ more, trimEnd (before ++ char :: rest) = before ++ char :: more ∧ more <+: rest := by
  induction rest using List.reverseRecOn with
  | nil => exact ⟨[], List.rdropWhile_concat_neg _ _ _ (by simp [visible]), List.nil_prefix⟩
  | append_singleton rest last inductionHypothesis =>
      have assoc : before ++ char :: (rest ++ [last]) = (before ++ char :: rest) ++ [last] := by simp
      rw [assoc]
      cases white : isWhiteSpace last with
      | false =>
          refine ⟨rest ++ [last], ?_, List.prefix_rfl⟩
          rw [assoc]
          exact List.rdropWhile_concat_neg _ _ _ (by simp [white])
      | true =>
          obtain ⟨more, trimmed, leading⟩ := inductionHypothesis
          refine ⟨more, ?_, leading.trans (List.prefix_append _ _)⟩
          rw [← trimmed]
          exact List.rdropWhile_concat_pos _ _ _ white

include visible in
theorem withoutCarriageReturn_append_cons (before rest : List Char) :
    ∃ more, withoutCarriageReturn (before ++ char :: rest) = before ++ char :: more ∧
      more <+: rest := by
  induction rest using List.reverseRecOn with
  | nil =>
      have kept : char ≠ '\r' := by
        rintro rfl
        revert visible
        decide
      exact ⟨[], by simp [withoutCarriageReturn, kept], List.nil_prefix⟩
  | append_singleton rest last =>
      have assoc : before ++ char :: (rest ++ [last]) = (before ++ char :: rest) ++ [last] := by simp
      unfold withoutCarriageReturn
      split
      · exact ⟨rest, by rw [assoc, List.dropLast_concat], List.prefix_append _ _⟩
      · exact ⟨rest ++ [last], rfl, List.prefix_rfl⟩

include visible in
/-- The indentation of a line ends before its first character that is no white space. -/
theorem takeWhile_isIndent_append_cons (before rest : List Char) :
    (before ++ char :: rest).takeWhile isIndent = before.takeWhile isIndent := by
  have stops : ¬isIndent char = true := by simp [isIndent_eq_false visible]
  induction before with
  | nil => simp [List.takeWhile_cons_of_neg stops]
  | cons first before inductionHypothesis =>
      by_cases indent : isIndent first = true
      · simp [List.takeWhile_cons_of_pos indent, inductionHypothesis]
      · simp [List.takeWhile_cons_of_neg indent]

include visible in
theorem dropWhile_isIndent_append_cons (before rest : List Char) :
    (before ++ char :: rest).dropWhile isIndent = before.dropWhile isIndent ++ char :: rest := by
  have stops : ¬isIndent char = true := by simp [isIndent_eq_false visible]
  induction before with
  | nil => simp [List.dropWhile_cons_of_neg stops]
  | cons first before inductionHypothesis =>
      by_cases indent : isIndent first = true
      · simp [List.dropWhile_cons_of_pos indent, inductionHypothesis]
      · simp [List.dropWhile_cons_of_neg indent]

end

/-! ## The field with the caret -/

section

variable {diagnostic : Diagnostic} {source : String}

theorem Diagnostic.excerptLines?_eq_none_iff (file : String) :
    diagnostic.excerptLines? source file = none ↔
      maxFieldWidth < diagnostic.caretWidth source := by
  unfold excerptLines? padLeft?
  split <;> simp_all

/-- There is an excerpt unless the field with its caret is too wide. -/
theorem Diagnostic.excerpt?_eq_none_iff (file : String) :
    diagnostic.excerpt? source file = none ↔ maxFieldWidth < diagnostic.caretWidth source := by
  rw [excerpt?, Option.map_eq_none_iff, excerptLines?_eq_none_iff]

theorem Diagnostic.caretWidth_le (small : diagnostic.position.column ≤ maxFieldWidth) :
    diagnostic.caretWidth source ≤ maxFieldWidth :=
  max_le ((Nat.sub_le _ _).trans small) (by decide)

variable {before rest : List Char} {char : Char}

/-- The line that a visible character stands on. -/
theorem Diagnostic.exists_lineIn (split : source.toList = before ++ char :: rest)
    (place : diagnostic.position = placeAfter before) (visible : isWhiteSpace char = false) :
    ∃ more, diagnostic.lineIn source = lastLine before ++ char :: more ∧
      more <+: firstLine rest := by
  have goesOn : firstLine (char :: rest) = char :: firstLine rest :=
    List.takeWhile_cons_of_pos (by simpa using ne_feed_of_visible visible)
  obtain ⟨more, line, leading⟩ :=
    withoutCarriageReturn_append_cons visible (lastLine before) (firstLine rest)
  refine ⟨more, ?_, leading⟩
  rw [lineIn, place, lineText?_placeAfter split, goesOn, line]
  simp

/-- The field with the caret is as wide as what is shown up to the visible character above it. -/
theorem Diagnostic.caretWidth_of_visible (split : source.toList = before ++ char :: rest)
    (place : diagnostic.position = placeAfter before) (visible : isWhiteSpace char = false) :
    diagnostic.caretWidth source = ((lastLine before).dropWhile isIndent).length + 1 := by
  obtain ⟨more, line, _⟩ := exists_lineIn split place visible
  have cut := congrArg List.length (List.takeWhile_append_dropWhile (p := isIndent)
    (l := lastLine before))
  rw [List.length_append] at cut
  rw [caretWidth, line, indentOf, takeWhile_isIndent_append_cons visible, place,
    column_placeAfter]
  omega

end

/-! ## The last two lines -/

theorem toList_padLeft (fill : Char) (width : Nat) (text : String) :
    (padLeft fill width text).toList =
      List.replicate (width - text.length) fill ++ text.toList := by
  simp [padLeft]

/-- The place of the caret in its line. -/
theorem caret_of_margin (margin width : Nat) :
    let marks := (padLeft ' ' (margin + 2) "|" ++ " " ++ padLeft '-' width "^").toList
    '\n' ∉ marks ∧ '^' ∈ marks ∧ marks.idxOf '^' = margin + 3 + (width - 1) := by
  have marks : (padLeft ' ' (margin + 2) "|" ++ " " ++ padLeft '-' width "^").toList =
      (List.replicate (margin + 1) ' ' ++ ['|', ' '] ++ List.replicate (width - 1) '-') ++ ['^'] := by
    have bar : "|".length = 1 := rfl
    have caret : "^".length = 1 := rfl
    simp [toList_padLeft, bar, caret]
  simp only [marks]
  refine ⟨by simp [List.mem_replicate], by simp, ?_⟩
  rw [List.idxOf_append_of_notMem (by simp [List.mem_replicate])]
  simp only [List.length_append, List.length_replicate, List.length_cons, List.length_nil,
    List.idxOf_cons_self]
  omega

/-- The last two lines of an excerpt, where neither of them is cut by a line feed. -/
theorem splitLines_intercalate {heading place margin shown marks : String}
    (noFeed : '\n' ∉ shown.toList) (noFeedMarks : '\n' ∉ marks.toList) :
    ∃ above, splitLines ("\n".intercalate [heading, place, margin, shown, marks]).toList =
      above ++ [shown.toList, marks.toList] := by
  have text : ("\n".intercalate [heading, place, margin, shown, marks]).toList =
      (heading ++ "\n" ++ place ++ "\n" ++ margin).toList ++
        '\n' :: (shown.toList ++ '\n' :: marks.toList) := by
    have whole : "\n".intercalate [heading, place, margin, shown, marks] =
        heading ++ "\n" ++ place ++ "\n" ++ margin ++ "\n" ++ shown ++ "\n" ++ marks := rfl
    rw [whole]
    simp
  rw [text, splitLines_append_feed, splitLines_append_feed, splitLines_of_not_mem noFeed,
    splitLines_of_not_mem noFeedMarks]
  exact ⟨_, rfl⟩

theorem not_mem_toList_toString (number : Nat) : '\n' ∉ (toString number).toList := by
  intro member
  rw [Nat.toString_eq_repr, Nat.toList_repr] at member
  have digit := Nat.isDigit_of_mem_toDigits (by decide) (by decide) member
  revert digit
  decide

section

variable {diagnostic : Diagnostic} {source : String} {before rest : List Char} {char : Char}
  (split : source.toList = before ++ char :: rest)
  (place : diagnostic.position = placeAfter before) (visible : isWhiteSpace char = false)
include split place visible

/-- What an excerpt shows of the line of a visible character: the line from its first character that
is no indentation on, so that the caret moves to the left by as much as the text does. -/
theorem Diagnostic.excerptLines?_of_visible
    (fits : diagnostic.caretWidth source ≤ maxFieldWidth) (file : String) :
    ∃ more heading location margin, more <+: firstLine rest ∧
      diagnostic.excerptLines? source file =
        some [heading, location, margin,
          toString diagnostic.position.line ++ " | " ++
            String.ofList ((lastLine before).dropWhile isIndent ++ char :: more),
          padLeft ' ' ((toString diagnostic.position.line).length + 2) "|" ++ " " ++
            padLeft '-' (((lastLine before).dropWhile isIndent).length + 1) "^"] := by
  obtain ⟨kept, line, keptPrefix⟩ := exists_lineIn split place visible
  obtain ⟨more, trimmed, morePrefix⟩ :=
    trimEnd_append_cons visible ((lastLine before).dropWhile isIndent) kept
  refine ⟨more, diagnostic.heading,
    "-> " ++ file ++ ":" ++ toString diagnostic.position.line ++ ":" ++
      toString diagnostic.position.column,
    padLeft ' ' ((toString diagnostic.position.line).length + 2) "|",
    morePrefix.trans keptPrefix, ?_⟩
  have width := caretWidth_of_visible split place visible
  unfold excerptLines? padLeft?
  rw [if_pos fits]
  simp only [line, dropWhile_isIndent_append_cons visible, trimmed, width]
  rfl

/-- The caret of a diagnostic stands under the character at its place, if that is visible and not too
far away. -/
theorem Diagnostic.exists_excerpt? (fits : diagnostic.caretWidth source ≤ maxFieldWidth)
    (file : String) :
    ∃ text, diagnostic.excerpt? source file = some text ∧ CaretUnder char text := by
  obtain ⟨more, heading, location, margin, morePrefix, lines⟩ :=
    excerptLines?_of_visible split place visible fits file
  refine ⟨_, by rw [excerpt?, lines, Option.map_some], ?_⟩
  have noFeedLeft : '\n' ∉ (lastLine before).dropWhile isIndent := fun member =>
    not_mem_lastLine before ((List.dropWhile_suffix _).subset member)
  have noFeedMore : '\n' ∉ more := fun member => not_mem_firstLine rest (morePrefix.subset member)
  have shown : (toString diagnostic.position.line ++ " | " ++
      String.ofList ((lastLine before).dropWhile isIndent ++ char :: more)).toList =
        ((toString diagnostic.position.line).toList ++ [' ', '|', ' '] ++
          (lastLine before).dropWhile isIndent) ++ char :: more := by
    simp
  have noFeed : '\n' ∉ (toString diagnostic.position.line ++ " | " ++
      String.ofList ((lastLine before).dropWhile isIndent ++ char :: more)).toList := by
    rw [shown]
    simp only [List.mem_append, List.mem_cons, not_or]
    exact ⟨⟨⟨not_mem_toList_toString _, by decide⟩, noFeedLeft⟩,
      Ne.symm (ne_feed_of_visible visible), noFeedMore⟩
  obtain ⟨noFeedMarks, marked, caret⟩ :=
    caret_of_margin (toString diagnostic.position.line).length
      (((lastLine before).dropWhile isIndent).length + 1)
  obtain ⟨above, split⟩ := splitLines_intercalate noFeed noFeedMarks
  refine ⟨above, _, _, split, marked, ?_⟩
  have under : (toString diagnostic.position.line).length + 3 +
      ((lastLine before).dropWhile isIndent).length =
      ((toString diagnostic.position.line).toList ++ [' ', '|', ' '] ++
        (lastLine before).dropWhile isIndent).length := by
    simp only [List.length_append, String.length_toList, List.length_cons, List.length_nil]
  rw [caret, shown, Nat.add_sub_cancel, under, List.getElem?_append_right (Nat.le_refl _),
    Nat.sub_self, List.getElem?_cons_zero]

end

end AgentScript
