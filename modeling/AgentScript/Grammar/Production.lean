import AgentScript.Grammar.State
import AgentScript.Tree.Stmt

/-!
Contract: productions, which read a form from the tokens ahead.

Owns:
- the type of productions, and the steps all of them are made of;
- repetition, bounded by the tokens ahead;
- lists of items up to a closing bracket;
- entering a nested form.

A production fails with one diagnostic, which is not recorded yet, and leaves the state where it
failed. A repetition goes at most one round for each token ahead and one for the end of input. As
every round passes a token, or fails at the end of input, this bound is never what ends it.
-/

set_option autoImplicit false

universe u

namespace AgentScript

/-- Reads a value from the tokens ahead, or fails with a diagnostic. -/
abbrev Production := EStateM Diagnostic State

namespace Production

variable {α : Type}

/-- Fails with a fault at the current token. -/
def failHere (fault : Fault) : Production α := do throw ((← get).faultHere fault)

/-- Fails because the current token is none of those expected. -/
def failUnexpected (expected : String) : Production α := do throw ((← get).unexpected expected)

/-- The kind of the current token. -/
def currentKind : Production Kind := return (← get).kind

/-- Passes the current token and gives it. -/
def take : Production Token := modifyGet fun state => (state.current, state.advance)

/-- Passes a token of the given kind, or fails with the given wording for it. -/
def expectAs (kind : Kind) (expected : String) : Production Token := do
  if (← currentKind) = kind then take else failUnexpected expected

/-- Passes a token of the given kind. -/
def expect (kind : Kind) : Production Token := expectAs kind kind.text

/-- Passes the current token if it is of the given kind. -/
def passIf (kind : Kind) : Production Unit := do
  if (← currentKind) = kind then
    let _ ← take

/-- Passes the current token and reads on if it is of the given kind. -/
def after? (kind : Kind) (production : Production α) : Production (Option α) := do
  if (← currentKind) = kind then
    let _ ← take
    return some (← production)
  else return none

/-- Goes on from a value, round by round, while a condition on the state holds. -/
def iterateWithin (continues : State → Bool) (round : α → Production α) :
    List Lexed → α → Production α
  | [], value => return value
  | _ :: bound, value => do
      if continues (← get) then
        let next ← round value
        iterateWithin continues round bound next
      else return value

/-- Goes on from a value, round by round, while a condition on the state holds. -/
def iterateWhile (continues : State → Bool) (round : α → Production α) (value : α) :
    Production α := do
  let state ← get
  iterateWithin continues round (state.ending :: state.upcoming) value

/-- Reads items while a condition on the state holds. -/
def manyWithin (continues : State → Bool) (item : Production α) :
    List Lexed → Production (List α)
  | [] => return []
  | _ :: bound => do
      if continues (← get) then
        let first ← item
        let rest ← manyWithin continues item bound
        return first :: rest
      else return []

/-- Reads items while a condition on the state holds. -/
def manyWhile (continues : State → Bool) (item : Production α) : Production (List α) := do
  let state ← get
  manyWithin continues item (state.ending :: state.upcoming)

/-- How the items of a list are told apart, and where it ends. -/
structure Listing where
  /-- The bracket that ends the list. -/
  closing : Kind
  /-- Whether a line break separates items as a comma does. -/
  lineBreakSeparates : Bool
  /-- The wording for what may follow an item. -/
  expected : String

/-- Passes what follows an item: a comma, or nothing before the closing bracket or, in some lists,
before a new line. -/
def endItem (listing : Listing) : Production Unit := do
  let state ← get
  if state.kind = .comma then
    let _ ← take
  else if state.kind = listing.closing then return
  else if listing.lineBreakSeparates && state.onNewLine then return
  else failUnexpected listing.expected

/-- Reads items up to the closing bracket, and passes that too. A comma may follow the last item. -/
def listOf (listing : Listing) (item : Production α) : Production (List α) := do
  let items ← manyWhile (fun state => state.kind ≠ listing.closing) do
    let value ← item
    endItem listing
    return value
  let _ ← expect listing.closing
  return items

/-- Fails because another nested form would be one too many. -/
def tooDeep : Production α := failHere (.nestingTooDeep maxNesting)

/-- Reads a form as nested one level further in. -/
def deeper (production : Production α) : Production α := fun state =>
  match production { state with nesting := state.nesting + 1 } with
  | .ok value after => .ok value { after with nesting := after.nesting - 1 }
  | .error diagnostic after => .error diagnostic { after with nesting := after.nesting - 1 }

/-- Reads a form as nested one level further in, unless that is one level too many. -/
def nested (production : Production α) : Production α := fun state =>
  if state.nesting < maxNesting then deeper production state else tooDeep state

end Production

/-- What can be read one level further in than the form being read. Productions are functions of
the next level in, so that none of them refers to itself. -/
structure Level where
  /-- An expression whose operators bind tighter than a given power. -/
  expression : BindingPower → Production Expr
  /-- Statements in curly brackets. -/
  block : Production Block
  /-- A conditional with all its alternatives. -/
  conditional : Production Stmt
  /-- A statement after `export`. -/
  statement : Production Stmt

end AgentScript
