import AgentScript.Diagnostic.Sink
import AgentScript.Source.Line
import AgentScript.Text.Dedent

/-!
Contract: a diagnostic shown as an excerpt of the script.

Owns: the heading with the fault's name and tip, the place, the line of the script without its
indentation, and the caret under the character that the diagnostic points at.

The width of a field has 16 bits. A caret further to the right cannot be drawn, and there is no
excerpt then: the program stops where it would format the field.
-/

set_option autoImplicit false

namespace AgentScript

/-- The greatest width of a field. -/
def maxFieldWidth : Nat := 65535

/-- A text moved to the right end of a field of the given width. -/
def padLeft (fill : Char) (width : Nat) (text : String) : String :=
  String.ofList (List.replicate (width - text.length) fill) ++ text

/-- A text moved to the right end of a field, if there is a field of the given width. -/
def padLeft? (fill : Char) (width : Nat) (text : String) : Option String :=
  if width ≤ maxFieldWidth then some (padLeft fill width text) else none

namespace Diagnostic

/-- The first line of an excerpt. -/
def heading (diagnostic : Diagnostic) : String :=
  match diagnostic.fault.tip? with
  | none => "Error: " ++ diagnostic.fault.name
  | some tip => "Error: " ++ diagnostic.fault.name ++ " (" ++ tip ++ ")"

/-- The line of the script that a diagnostic stands on. -/
def lineIn (diagnostic : Diagnostic) (source : String) : List Char :=
  ((lineText? source diagnostic.position.line).getD "").toList

/-- The width of the field with the caret. A place left of the text that is shown gets its caret at
the start. -/
def caretWidth (diagnostic : Diagnostic) (source : String) : Nat :=
  max (diagnostic.position.column - indentOf (diagnostic.lineIn source)) 1

/-- The lines of an excerpt. A line number has few digits, so only the caret can be too far away. -/
def excerptLines? (diagnostic : Diagnostic) (source file : String) : Option (List String) := do
  let position := diagnostic.position
  let lineNumber := toString position.line
  let margin := padLeft ' ' (lineNumber.length + 2) "|"
  let shown := trimEnd ((diagnostic.lineIn source).dropWhile isIndent)
  let caret ← padLeft? '-' (diagnostic.caretWidth source) "^"
  return [diagnostic.heading,
    "-> " ++ file ++ ":" ++ lineNumber ++ ":" ++ toString position.column,
    margin,
    lineNumber ++ " | " ++ String.ofList shown,
    margin ++ " " ++ caret]

/-- The excerpt as one text, if it can be drawn. -/
def excerpt? (diagnostic : Diagnostic) (source file : String) : Option String :=
  (diagnostic.excerptLines? source file).map "\n".intercalate

end Diagnostic

end AgentScript
