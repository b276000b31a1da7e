import AgentScript.Grammar.Forms
import AgentScript.Scan.Cursor

/-!
Contract: the state of reading a script token by token.

Owns:
- the tokens ahead, of which the first is the current one and the second the next;
- the line that the last passed token ends on;
- the brackets open among the passed tokens, and the number of nested forms being read;
- the sink, into which the fault of a token goes as soon as the token is one of the two ahead.

Does not own: what the tokens mean.
-/

set_option autoImplicit false

namespace AgentScript

/-- The greatest number of nested expressions, blocks, conditionals and exports. -/
def maxNesting : Nat := 100

structure State where
  /-- The tokens that are not passed yet, the end of input apart. -/
  upcoming : List Lexed
  /-- The end of input, which is ahead when no token is. -/
  ending : Lexed
  /-- The line that the last passed token ends on; zero before the first. -/
  lastLine : Nat
  /-- The open brackets, the innermost first. -/
  openBrackets : List Kind
  /-- How many nested forms are being read. -/
  nesting : Nat
  sink : Sink
deriving DecidableEq, Repr

/-- Closes the innermost bracket of a kind, and with it all brackets inside it. A closing bracket
that nothing opened changes nothing. -/
def closeInnermost (opener : Kind) (openBrackets : List Kind) : List Kind :=
  if opener ∈ openBrackets then (openBrackets.dropWhile fun bracket => bracket ≠ opener).tail
  else openBrackets

/-- The open brackets after a token. -/
def Kind.bracketsAfter (kind : Kind) (openBrackets : List Kind) : List Kind :=
  if kind.isOpener then kind :: openBrackets
  else match kind.opener? with
    | some opener => closeInnermost opener openBrackets
    | none => openBrackets

namespace State

/-- The state before the first token of a scan. -/
def ofScan (scan : Scan) : State where
  upcoming := scan.tokens
  ending := scan.ending
  lastLine := 0
  openBrackets := []
  nesting := 0
  sink := Sink.empty.pushAll ((scan.tokens.take 2).filterMap Lexed.fault?)

def ofSource (source : String) : State := ofScan (Cursor.ofSource source).scan

/-- The current token. -/
def current (state : State) : Token := (state.upcoming.headD state.ending).token

/-- The kind of the current token. -/
def kind (state : State) : Kind := state.current.kind

/-- The token after the current one. -/
def peek (state : State) : Token := (state.upcoming.tail.headD state.ending).token

/-- The number of open brackets. -/
def depth (state : State) : Nat := state.openBrackets.length

/-- Whether the current token starts on a later line than the last passed one ends on. -/
def onNewLine (state : State) : Bool := state.lastLine < state.current.position.line

def hasTokens (state : State) : Bool := state.kind ≠ .endOfInput

/-- Whether nothing more belongs to the statement being read. -/
def atStatementEnd (state : State) : Bool :=
  state.kind = .endOfInput || state.kind = .closeCurly || state.kind = .semicolon || state.onNewLine

/-- How tightly the current token binds to the expression before it. A call or an index on a new
line does not bind: it starts a statement. -/
def power (state : State) : BindingPower :=
  if state.kind.needsSameLine && state.onNewLine then .default else state.kind.power

/-- How many more nested forms may be entered. -/
def room (state : State) : Nat := maxNesting - state.nesting

/-- Records a diagnostic. -/
def report (state : State) (diagnostic : Diagnostic) : State :=
  { state with sink := state.sink.push diagnostic }

/-- A fault reported at the current token. -/
def faultHere (state : State) (fault : Fault) : Diagnostic := ⟨fault, state.current.position⟩

/-- The diagnostic for a current token that is none of those expected. -/
def unexpected (state : State) (expected : String) : Diagnostic :=
  state.faultHere (.unexpectedToken expected state.current.describe)

/-- Passes the current token. The end of input is never passed. -/
def advance (state : State) : State :=
  match state.upcoming with
  | [] => state
  | lexed :: rest =>
      { state with
        upcoming := rest
        lastLine := lexed.endLine
        openBrackets := lexed.token.kind.bracketsAfter state.openBrackets
        sink := state.sink.pushOption (rest[1]?.bind Lexed.fault?) }

/-- Forgets the brackets opened since there were `depth` of them. -/
def closeTo (depth : Nat) (state : State) : State :=
  { state with openBrackets := state.openBrackets.drop (state.depth - depth) }

end State

end AgentScript
