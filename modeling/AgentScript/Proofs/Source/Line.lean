import AgentScript.Proofs.Scan.Partition
import AgentScript.Source.Line
import Mathlib.Data.List.DropRight

/-!
Contract: the lines of a text and the places in it.

Owns:
- cutting a text at its line feeds, piece by piece;
- the line that a place stands on, as what stands before the place and what follows it.
-/

set_option autoImplicit false

namespace AgentScript

/-- The characters of a text up to its first line feed. -/
def firstLine (text : List Char) : List Char := text.takeWhile fun char => char ≠ '\n'

/-- The characters of a text after its last line feed. -/
def lastLine (text : List Char) : List Char := text.rtakeWhile fun char => char ≠ '\n'

theorem splitLines_of_not_mem {text : List Char} (noFeed : '\n' ∉ text) :
    splitLines text = [text] := by
  induction text with
  | nil => rfl
  | cons char rest inductionHypothesis =>
      have other : char ≠ '\n' := fun feed => noFeed (feed ▸ List.mem_cons_self)
      have noFeedRest : '\n' ∉ rest := fun member => noFeed (List.mem_cons_of_mem _ member)
      simp [splitLines, other, inductionHypothesis noFeedRest]

theorem splitLines_cons_of_ne {char : Char} (other : char ≠ '\n') (rest : List Char) :
    ∃ line lines, splitLines rest = line :: lines ∧
      splitLines (char :: rest) = (char :: line) :: lines := by
  cases split : splitLines rest with
  | nil => exact absurd split (splitLines_ne_nil rest)
  | cons line lines => exact ⟨line, lines, rfl, by simp [splitLines, other, split]⟩

/-- A line feed cuts a text in two. -/
theorem splitLines_append_feed (left right : List Char) :
    splitLines (left ++ '\n' :: right) = splitLines left ++ splitLines right := by
  induction left with
  | nil => simp [splitLines]
  | cons char left inductionHypothesis =>
      by_cases feed : char = '\n'
      · simp [splitLines, feed, inductionHypothesis]
      · obtain ⟨line, lines, split, splitCons⟩ := splitLines_cons_of_ne feed left
        obtain ⟨whole, more, splitWhole, splitConsWhole⟩ :=
          splitLines_cons_of_ne feed (left ++ '\n' :: right)
        rw [inductionHypothesis, split, List.cons_append, List.cons.injEq] at splitWhole
        obtain ⟨rfl, rfl⟩ := splitWhole
        rw [List.cons_append, splitConsWhole, splitCons, List.cons_append]

theorem length_splitLines (text : List Char) :
    (splitLines text).length = text.count '\n' + 1 := by
  induction text with
  | nil => rfl
  | cons char rest inductionHypothesis =>
      by_cases feed : char = '\n'
      · simp [splitLines, feed, inductionHypothesis]
      · obtain ⟨line, lines, split, splitCons⟩ := splitLines_cons_of_ne feed rest
        rw [splitCons, List.count_cons_of_ne feed, ← inductionHypothesis, split]
        rfl

theorem head?_splitLines (text : List Char) : (splitLines text).head? = some (firstLine text) := by
  induction text with
  | nil => rfl
  | cons char rest inductionHypothesis =>
      by_cases feed : char = '\n'
      · simp [splitLines, firstLine, feed]
      · obtain ⟨line, lines, split, splitCons⟩ := splitLines_cons_of_ne feed rest
        rw [split, List.head?_cons, Option.some.injEq] at inductionHypothesis
        have goesOn : firstLine (char :: rest) = char :: firstLine rest :=
          List.takeWhile_cons_of_pos (by simpa using feed)
        rw [splitCons, List.head?_cons, inductionHypothesis, goesOn]

/-- A text is its last line, or what it has before the line feed that its last line follows. -/
theorem lastLine_cases (text : List Char) :
    ('\n' ∉ text ∧ lastLine text = text) ∨
      ∃ above, text = above ++ '\n' :: lastLine text ∧ '\n' ∉ lastLine text := by
  induction text using List.reverseRecOn with
  | nil => exact .inl ⟨by simp, rfl⟩
  | append_singleton text char inductionHypothesis =>
      by_cases feed : char = '\n'
      · subst feed
        have last : lastLine (text ++ ['\n']) = [] := List.rtakeWhile_concat_neg _ _ _ (by simp)
        exact .inr ⟨text, by simp [last], by simp [last]⟩
      · have last : lastLine (text ++ [char]) = lastLine text ++ [char] :=
          List.rtakeWhile_concat_pos _ _ _ (by simpa using feed)
        rw [last]
        rcases inductionHypothesis with ⟨noFeed, whole⟩ | ⟨above, split, noFeed⟩
        · exact .inl ⟨by simp [noFeed, Ne.symm feed], by rw [whole]⟩
        · refine .inr ⟨above, ?_, by simp [noFeed, Ne.symm feed]⟩
          conv => lhs; rw [split]
          simp

theorem firstLine_append {left : List Char} (noFeed : '\n' ∉ left) (right : List Char) :
    firstLine (left ++ right) = left ++ firstLine right :=
  List.takeWhile_append_of_pos fun char member => by
    simpa using fun feed : char = '\n' => noFeed (feed ▸ member)

theorem not_mem_firstLine (text : List Char) : '\n' ∉ firstLine text := fun member => by
  simpa using List.mem_takeWhile_imp member

theorem not_mem_lastLine (text : List Char) : '\n' ∉ lastLine text := by
  rcases lastLine_cases text with ⟨noFeed, whole⟩ | ⟨_, _, noFeed⟩
  · rw [whole]
    exact noFeed
  · exact noFeed

/-- The line that a place stands on: the last line of the text before it, and the first line of the
text after it. -/
theorem getElem?_splitLines (before rest : List Char) :
    (splitLines (before ++ rest))[before.count '\n']? =
      some (lastLine before ++ firstLine rest) := by
  rcases lastLine_cases before with ⟨noFeed, whole⟩ | ⟨above, split, noFeed⟩
  · rw [List.count_eq_zero.2 noFeed, ← List.head?_eq_getElem?, head?_splitLines,
      firstLine_append noFeed, whole]
  · have count : before.count '\n' = (splitLines above).length := by
      rw [length_splitLines, split, List.count_append, List.count_cons_self,
        List.count_eq_zero.2 noFeed]
    have lines : splitLines (before ++ rest) =
        splitLines above ++ splitLines (lastLine before ++ rest) := by
      rw [← splitLines_append_feed]
      conv => lhs; rw [split]
      simp
    rw [count, lines, List.getElem?_append_right (Nat.le_refl _), Nat.sub_self,
      ← List.head?_eq_getElem?, head?_splitLines, firstLine_append noFeed]

theorem column_placeAfter (text : List Char) :
    (placeAfter text).column = (lastLine text).length + 1 := by
  rw [lastLine, List.rtakeWhile, List.length_reverse, Nat.add_comm]
  rfl

/-- The text of the line that a place stands on. -/
theorem lineText?_placeAfter {source : String} {before rest : List Char}
    (split : source.toList = before ++ rest) :
    lineText? source (placeAfter before).line =
      some (String.ofList (withoutCarriageReturn (lastLine before ++ firstLine rest))) := by
  have line : (placeAfter before).line = before.count '\n' + 1 := Nat.add_comm _ _
  rw [line, lineText?, split, getElem?_splitLines]
  rfl

end AgentScript
