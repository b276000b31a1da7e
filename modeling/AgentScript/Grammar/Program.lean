import AgentScript.Grammar.Statement

/-!
Contract: reading whole scripts.

Owns: the levels of nesting, which close the circle of productions; productions at the level that a
state stands at; and the reading of a script into a program and its diagnostics.

The levels are built for the room that the counter of a state leaves, so that no production recurses
on anything but this number. Levels that look at the counter wherever a form is nested read the same.
-/

set_option autoImplicit false

namespace AgentScript

/-- What can be read when so many more levels may be entered. With no level left nothing can. -/
def Level.withRoom : Nat → Level
  | 0 =>
      { expression := fun _ => Production.tooDeep
        block := Production.tooDeep
        conditional := Production.tooDeep
        statement := Production.tooDeep }
  | room + 1 =>
      let inner := withRoom room
      { expression := fun power => Production.deeper (Production.expressionAt inner power)
        block := Production.deeper (Production.blockAt inner)
        conditional := Production.deeper (Production.conditionalAt inner)
        statement := Production.deeper (Production.statement inner) }

namespace Production

variable {α : Type}

/-- Reads a form at the level of nesting that the state stands at. -/
def atLevel (form : Level → Production α) : Production α := fun state =>
  form (Level.withRoom state.room) state

end Production

/-- Reads the statements from a state to the end of the script. -/
def State.readProgram (state : State) : Program × State :=
  let (statements, final) :=
    Production.statementsWithin false (Production.statement (Level.withRoom state.room))
      state.upcoming state
  (⟨statements⟩, final)

/-- The statements from the current token to the end of the script. This cannot fail. -/
def Production.program : Production Program := modifyGet State.readProgram

/-- The program that a script holds and what is wrong with it. A program with diagnostics lacks the
statements that could not be read. -/
def parse (source : String) : Program × Sink :=
  let (program, final) := (State.ofSource source).readProgram
  (program, final.sink)

end AgentScript
