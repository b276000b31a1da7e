import AgentScript.Charset.Classes
import AgentScript.Source.Line

/-!
Contract: the text of a triple-quoted string without the indentation it shares.

Owns: trimming, the indentation that the lines of a text share, and its removal.

A blank line, one of white space only, has no say in the shared indentation and loses at most as
much of its own indentation as the others. What is left is trimmed on both sides.
-/

set_option autoImplicit false

namespace AgentScript

/-- A text without the white space at its end. -/
def trimEnd (text : List Char) : List Char := (text.reverse.dropWhile isWhiteSpace).reverse

/-- A text without the white space at either end. -/
def trim (text : List Char) : List Char := trimEnd (text.dropWhile isWhiteSpace)

/-- The number of spaces and tabs that a line starts with. -/
def indentOf (line : List Char) : Nat := (line.takeWhile isIndent).length

/-- Whether a line holds nothing but white space. -/
def isBlankLine (line : List Char) : Bool := line.all isWhiteSpace

/-- The least indentation of the lines that are not blank, and zero when all are. -/
def sharedIndent (lines : List (List Char)) : Nat :=
  ((lines.filter fun line => !isBlankLine line).map indentOf).min?.getD 0

/-- A line without the shared part of its indentation. -/
def dropIndent (shared : Nat) (line : List Char) : List Char := line.drop (min (indentOf line) shared)

/-- A text without the indentation that its lines share, trimmed. -/
def dedent (text : List Char) : List Char :=
  let lines := splitLines text
  trim (joinLines (lines.map (dropIndent (sharedIndent lines))))

end AgentScript
