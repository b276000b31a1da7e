import AgentScript.Scan.Cursor

/-!
Contract: reading a script token by token, or character by character, on demand.

Owns: a cursor together with the sink that the faults of its tokens go to.
-/

set_option autoImplicit false

namespace AgentScript

/-- A cursor that gathers the faults of the tokens it passes. -/
structure Scanner where
  cursor : Cursor
  sink : Sink
deriving DecidableEq, Repr

namespace Scanner

def ofSource (source : String) : Scanner := ⟨Cursor.ofSource source, Sink.empty⟩

/-- The next token. Past the last one, every call gives the end of input. -/
def next (scanner : Scanner) : Token × Scanner :=
  let (lexed, cursor) := scanner.cursor.next
  (lexed.token, ⟨cursor, scanner.sink.pushOption lexed.fault?⟩)

/-- Passes one character, if there is one. -/
def advance (scanner : Scanner) : Option Char × Scanner :=
  match scanner.cursor.step? with
  | none => (none, scanner)
  | some (char, cursor) => (some char, { scanner with cursor })

/-- The character that many places ahead. -/
def peek? (scanner : Scanner) (distance : Nat) : Option Char := scanner.cursor.rest[distance]?

/-- The character ahead. -/
def current? (scanner : Scanner) : Option Char := scanner.peek? 0

def atEnd (scanner : Scanner) : Bool := scanner.cursor.rest.isEmpty

def position (scanner : Scanner) : Position := scanner.cursor.position

end Scanner

end AgentScript
