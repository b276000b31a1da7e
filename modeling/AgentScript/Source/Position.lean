/-!
Contract: places in a script.

Owns:
- one-based line and column numbers, and the place just after a piece of text;
- the source order of places and sorted lists of distinct places;
- the wording of a place in messages.

Does not own: the text of a line, which belongs to `AgentScript.Source.Line`.
-/

set_option autoImplicit false

namespace AgentScript

/-- A one-based line and column. Columns count characters. -/
structure Position where
  line : Nat
  column : Nat
deriving DecidableEq, Repr, Inhabited

namespace Position

/-- The place of a script's first character. -/
def start : Position := ⟨1, 1⟩

/-- The place that no character of any script has. -/
def null : Position := ⟨0, 0⟩

/-- The place after one more character: a line feed opens the next line. -/
def after (position : Position) (char : Char) : Position :=
  if char = '\n' then ⟨position.line + 1, 1⟩ else ⟨position.line, position.column + 1⟩

/-- The place after a whole piece of text. -/
def afterText (position : Position) (text : List Char) : Position :=
  text.foldl after position

/-- Source order: by line, then by column. -/
protected def le (left right : Position) : Prop :=
  left.line < right.line ∨ (left.line = right.line ∧ left.column ≤ right.column)

instance : LE Position := ⟨Position.le⟩

instance (left right : Position) : Decidable (left ≤ right) :=
  inferInstanceAs (Decidable (_ ∨ _))

/-- The wording used in messages. -/
def text (position : Position) : String :=
  "line " ++ toString position.line ++ ", column " ++ toString position.column

/-- Puts a place into a sorted list of distinct places, once. -/
def insertSorted (position : Position) : List Position → List Position
  | [] => [position]
  | head :: tail =>
      if position = head then head :: tail
      else if position ≤ head then position :: head :: tail
      else head :: insertSorted position tail

/-- The distinct places of a list, in source order. -/
def sortedDistinct (positions : List Position) : List Position :=
  positions.foldr insertSorted []

theorem afterText_nil (position : Position) : position.afterText [] = position := rfl

theorem afterText_cons (position : Position) (char : Char) (text : List Char) :
    position.afterText (char :: text) = (position.after char).afterText text := rfl

theorem afterText_append (position : Position) (left right : List Char) :
    position.afterText (left ++ right) = (position.afterText left).afterText right :=
  List.foldl_append

end Position

end AgentScript
