import AgentScript.Grammar.Declaration

/-!
Contract: reading statements, and reading on after a statement that cannot be read.

Owns: every form of statement, blocks, lists of statements, and the place where reading resumes after
a failed statement.

A list of statements cannot fail. A failed statement is reported and left out, and what remains of it
is skipped: up to the next line at the depth of brackets it started at, to the curly bracket that
closes its block, or to a line that starts with the keyword of a statement.
-/

set_option autoImplicit false

namespace AgentScript.Production

/-- An expression as a statement. -/
def expressionStatement (inner : Level) : Production Stmt := do
  let first := (← get).current
  return .expression first (← inner.expression .default)

/-- A name, a type that may be declared for it, and its value. -/
def assignment (inner : Level) : Production Stmt := do
  let name ← expectAs .identifier "assignment target"
  let declaredType? ← declaredType?
  let _ ← expect .assign
  return .assignment name declaredType? (← inner.expression .default)

/-- An expression in the parentheses after a keyword. -/
def condition (inner : Level) : Production Expr := do
  let _ ← expect .openParen
  let value ← inner.expression .default
  let _ ← expect .closeParen
  return value

/-- What follows `else`: another conditional, or a block. -/
def alternative (inner : Level) : Production Stmt := do
  if (← currentKind) = .keyword .ifKw then inner.conditional
  else return .block (← inner.block)

/-- A conditional with its alternatives. -/
def conditionalAt (inner : Level) : Production Stmt := do
  let keyword ← expect (.keyword .ifKw)
  let condition ← condition inner
  let consequence ← inner.block
  return .conditional keyword condition consequence
    (← after? (.keyword .elseKw) (alternative inner))

/-- A loop with a condition. -/
def whileLoop (inner : Level) : Production Stmt := do
  let keyword ← take
  let condition ← condition inner
  return .whileLoop keyword condition (← inner.block)

/-- A loop over the elements of a value. -/
def forOf (inner : Level) : Production Stmt := do
  let keyword ← take
  let _ ← expect .openParen
  let loopVariable ← expectAs .identifier "loop variable"
  let _ ← expect (.keyword .ofKw)
  let iterable ← inner.expression .default
  let _ ← expect .closeParen
  return .forOf keyword loopVariable iterable (← inner.block)

def breakLoop : Production Stmt := return .breakLoop (← take)

def continueLoop : Production Stmt := return .continueLoop (← take)

/-- A return, with a value if one starts on its line. -/
def returnValue (inner : Level) : Production Stmt := do
  let keyword ← take
  if (← get).atStatementEnd then return .returnValue keyword none
  else return .returnValue keyword (some (← inner.expression .default))

/-- A throw, with a value that has to start on its line. -/
def throwValue (inner : Level) : Production Stmt := do
  let keyword ← take
  if (← get).atStatementEnd then throw ⟨.missingThrowExpression, keyword.position⟩
  else return .throwValue keyword (← inner.expression .default)

/-- What follows `catch`: a name in parentheses and a block. -/
def handler (inner : Level) : Production (Token × Block) := do
  let _ ← expect .openParen
  let name ← expectAs .identifier "catch parameter"
  let _ ← expect .closeParen
  return (name, ← inner.block)

/-- A block with a handler, a finalizer or both. -/
def attempt (inner : Level) : Production Stmt := do
  let keyword ← take
  let body ← inner.block
  let handler? ← after? (.keyword .catchKw) (handler inner)
  let finalizer? ← after? (.keyword .finallyKw) inner.block
  if handler?.isNone && finalizer?.isNone then throw ⟨.tryWithoutHandler, keyword.position⟩
  else return .attempt keyword body handler? finalizer?

/-- A keyword that starts no statement yet. -/
def reserved : Production Stmt := do
  let keyword ← take
  throw ⟨.reservedKeyword keyword.value, keyword.position⟩

/-- A statement of the given form. -/
def statementOf (inner : Level) : StatementForm → Production Stmt
  | .config => configDeclaration inner
  | .tool => toolDeclaration inner
  | .importNames => importDeclaration
  | .exported => exportDeclaration inner
  | .conditional => inner.conditional
  | .whileLoop => whileLoop inner
  | .forOf => forOf inner
  | .breakLoop => breakLoop
  | .continueLoop => continueLoop
  | .returnValue => returnValue inner
  | .throwValue => throwValue inner
  | .attempt => attempt inner
  | .reserved => reserved

/-- Whether an assignment is ahead: a name, and then a sign that only follows one there. -/
def startsAssignment (state : State) : Bool :=
  state.kind = .identifier && (state.peek.kind = .assign || state.peek.kind = .colon)

/-- Any statement. -/
def statement (inner : Level) : Production Stmt := do
  let state ← get
  match state.kind.statementForm? with
  | some form => statementOf inner form
  | none =>
      if startsAssignment state then assignment inner
      else expressionStatement inner

/-- Whether a token of this kind ends a list of statements, in a block or in a whole script. -/
def endsStatements (inBlock : Bool) (kind : Kind) : Bool :=
  kind = .endOfInput || (inBlock && kind = .closeCurly)

/-- Reports a statement that starts on the line the one before it ends on. -/
def checkSeparated (inBlock : Bool) (state : State) : State :=
  if endsStatements inBlock state.kind || state.kind = .semicolon || state.onNewLine then state
  else state.report (state.faultHere (.sameLineStatement state.current.describe))

/-- Whether a line starts with a keyword that starts a statement and does not name a setting. -/
def startsFreshStatement (state : State) : Bool :=
  state.onNewLine && state.kind.startsStatement && state.peek.kind ≠ .colon

/-- Skips tokens up to the place where reading resumes after a statement that started at the given
depth of brackets. -/
def skipWithin (depth : Nat) : List Lexed → State → State
  | [], state => state
  | _ :: bound, state =>
      if state.kind = .endOfInput then state
      else if depth < state.depth then
        if startsFreshStatement state then state.closeTo depth
        else skipWithin depth bound state.advance
      else if state.depth < depth || state.onNewLine || (state.kind = .closeCurly && 0 < depth) then
        state
      else skipWithin depth bound state.advance

/-- Skips what remains of a failed statement, at least one token of it. -/
def recover (start failed : State) : State :=
  let begun :=
    if failed.upcoming.length = start.upcoming.length then failed.advance else failed
  skipWithin start.depth begun.upcoming begun

/-- Reads statements one after the other, with a bound on their number. -/
def statementsWithin (inBlock : Bool) (statement : Production Stmt) :
    List Lexed → State → List Stmt × State
  | [], state => ([], state)
  | _ :: bound, state =>
      if endsStatements inBlock state.kind then ([], state)
      else if state.kind = .semicolon then
        statementsWithin inBlock statement bound
          (state.report (state.faultHere .semicolonSeparator)).advance
      else match statement state with
        | .ok first after =>
            let (rest, final) :=
              statementsWithin inBlock statement bound (checkSeparated inBlock after)
            (first :: rest, final)
        | .error diagnostic failed =>
            statementsWithin inBlock statement bound (recover state (failed.report diagnostic))

/-- Reads statements up to the end of the script, or to the curly bracket that closes the block. -/
def statements (inBlock : Bool) (statement : Production Stmt) : Production (List Stmt) :=
  modifyGet fun state => statementsWithin inBlock statement state.upcoming state

/-- Statements in curly brackets. -/
def blockAt (inner : Level) : Production Block := do
  let brace ← expect .openCurly
  let statements ← statements true (statement inner)
  let _ ← expect .closeCurly
  return .mk brace statements

end AgentScript.Production
