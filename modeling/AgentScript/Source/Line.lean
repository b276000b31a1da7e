import AgentScript.Source.Position

/-!
Contract: the lines of a text.

Owns: cutting a text at its line feeds, joining lines again, and the text of a numbered line
without its line ending.
-/

set_option autoImplicit false

namespace AgentScript

/-- The lines of a text: the pieces between its line feeds. There is always at least one. -/
def splitLines : List Char → List (List Char)
  | [] => [[]]
  | char :: rest =>
      if char = '\n' then [] :: splitLines rest
      else match splitLines rest with
        | [] => [[char]]
        | line :: lines => (char :: line) :: lines

/-- The text made of the given lines, with a line feed between neighbours. -/
def joinLines : List (List Char) → List Char
  | [] => []
  | [line] => line
  | line :: next :: lines => line ++ '\n' :: joinLines (next :: lines)

/-- A line without the carriage return that may end it. -/
def withoutCarriageReturn (line : List Char) : List Char :=
  if line.getLast? = some '\r' then line.dropLast else line

/-- The text of a line counted from one; there is no line zero. -/
def lineText? (source : String) : Nat → Option String
  | 0 => none
  | index + 1 =>
      (splitLines source.toList)[index]?.map fun line => String.ofList (withoutCarriageReturn line)

theorem splitLines_ne_nil (text : List Char) : splitLines text ≠ [] := by
  cases text with
  | nil => simp [splitLines]
  | cons char rest =>
      unfold splitLines
      split
      · simp
      · split <;> simp

theorem joinLines_splitLines (text : List Char) : joinLines (splitLines text) = text := by
  induction text with
  | nil => rfl
  | cons char rest inductionHypothesis =>
      unfold splitLines
      have nonempty := splitLines_ne_nil rest
      cases lines : splitLines rest with
      | nil => exact absurd lines nonempty
      | cons line more =>
          rw [lines] at inductionHypothesis
          split
          · next isFeed => simp [joinLines, inductionHypothesis, isFeed]
          · cases more <;> simp_all [joinLines]

end AgentScript
