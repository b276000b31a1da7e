import AgentScript.Proofs.Reading.Inversion
import AgentScript.Proofs.Token.Forms

/-!
Contract: what a statement asks about its first token.

Owns:
- that a statement which is read is read the same wherever the token before its first one ends;
- that it starts with a token that starts a form of its own.
-/

set_option autoImplicit false

namespace AgentScript

/-- The state with another line for the last passed token to end on. -/
def State.onLine (line : Nat) (state : State) : State := { state with lastLine := line }

/-- Once a token is passed, it is its own line that counts. -/
theorem State.advance_onLine {state : State} (ahead : state.upcoming ≠ []) (line : Nat) :
    (state.onLine line).advance = state.advance := by
  obtain ⟨upcoming, ending, lastLine, openBrackets, nesting, sink⟩ := state
  cases upcoming with
  | nil => exact absurd rfl ahead
  | cons lexed rest => rfl

namespace Production

variable {α β : Type}

/-- A production that starts with a token, and does not ask whether the token starts a line. -/
def IgnoresLine (production : Production α) : Prop :=
  ∀ (state after : State) (value : α) (line : Nat), state.upcoming ≠ [] →
    production state = .ok value after → production (state.onLine line) = .ok value after

theorem ignoresLine_take_bind (next : Token → Production β) : (take >>= next).IgnoresLine := by
  intro state after value line ahead read
  rw [take_bind] at read ⊢
  rw [State.advance_onLine ahead]
  exact read

theorem ignoresLine_expectAs_bind (kind : Kind) (expected : String) (next : Token → Production β) :
    (expectAs kind expected >>= next).IgnoresLine := by
  intro state after value line ahead read
  obtain ⟨here, rest⟩ := expectAs_bind_ok_iff.1 read
  refine expectAs_bind_ok_iff.2 ⟨here, ?_⟩
  rw [State.advance_onLine ahead]
  exact rest

theorem IgnoresLine.bind {production : Production α} (ignores : production.IgnoresLine)
    (next : α → Production β) : (production >>= next).IgnoresLine := by
  intro state after value line ahead read
  obtain ⟨first, middle, readFirst, rest⟩ := bind_ok_iff.1 read
  exact bind_ok_iff.2 ⟨first, middle, ignores state middle first line ahead readFirst, rest⟩

theorem IgnoresLine.deeper {production : Production α} (ignores : production.IgnoresLine) :
    (deeper production).IgnoresLine := by
  intro state after value line ahead read
  obtain ⟨inside, readInside, rfl⟩ := deeper_ok_iff.1 read
  exact deeper_ok_iff.2
    ⟨inside, ignores { state with nesting := state.nesting + 1 } inside value line ahead readInside, rfl⟩

theorem ignoresLine_tooDeep : (tooDeep : Production α).IgnoresLine := fun _ _ _ _ _ read => nomatch read

section

variable {inner : Level}

theorem ignoresLine_operand : (operand inner).IgnoresLine := by
  intro state after value line ahead read
  have kind : (state.onLine line).kind = state.kind := rfl
  rw [operand_run] at read ⊢
  rw [kind]
  split at read
  · exact ignoresLine_take_bind _ _ _ _ line ahead read
  · exact ignoresLine_take_bind _ _ _ _ line ahead read
  · exact ignoresLine_expectAs_bind _ _ _ _ _ _ line ahead read
  · exact ignoresLine_take_bind _ _ _ _ line ahead read
  · exact ignoresLine_take_bind _ _ _ _ line ahead read
  · cases read

theorem ignoresLine_expressionAt (power : BindingPower) : (expressionAt inner power).IgnoresLine :=
  ignoresLine_operand.bind _

theorem ignoresLine_conditionalAt : (conditionalAt inner).IgnoresLine :=
  ignoresLine_expectAs_bind _ _ _

variable (conditional : inner.conditional.IgnoresLine)
  (expression : (inner.expression .default).IgnoresLine)

include conditional in
/-- Every form of statement starts with its keyword. -/
theorem ignoresLine_statementOf (form : StatementForm) : (statementOf inner form).IgnoresLine := by
  cases form with
  | conditional => exact conditional
  | _ => exact ignoresLine_take_bind _

include conditional expression in
theorem ignoresLine_statement : (Production.statement inner).IgnoresLine := by
  intro state after value line ahead read
  have kind : (state.onLine line).kind = state.kind := rfl
  have sign : startsAssignment (state.onLine line) = startsAssignment state := rfl
  rw [statement_run] at read ⊢
  rw [kind, sign]
  split at read
  · exact ignoresLine_statementOf conditional _ _ _ _ line ahead read
  · split_ifs at read ⊢
    · exact ignoresLine_expectAs_bind _ _ _ _ _ _ line ahead read
    · obtain ⟨result, readValue, rfl⟩ := expressionStatement_ok_iff.1 read
      exact expressionStatement_ok_iff.2 ⟨result, expression _ _ _ line ahead readValue, rfl⟩

end

theorem ignoresLine_statement_withRoom (room : Nat) :
    (Production.statement (Level.withRoom room)).IgnoresLine := by
  cases room with
  | zero => exact ignoresLine_statement ignoresLine_tooDeep ignoresLine_tooDeep
  | succ room =>
      exact ignoresLine_statement ignoresLine_conditionalAt.deeper
        (ignoresLine_expressionAt .default).deeper

/-- A list of statements of which the first is read is read the same wherever the token before it
ends. -/
theorem statementsWithin_onLine {inBlock : Bool} {statement : Production Stmt}
    (ignores : statement.IgnoresLine) {state after : State} {first : Stmt}
    (goesOn : endsStatements inBlock state.kind = false) (noSemicolon : state.kind ≠ .semicolon)
    (ahead : state.upcoming ≠ []) (read : statement state = .ok first after) (line : Nat)
    (last : Lexed) (bound : List Lexed) :
    statementsWithin inBlock statement (last :: bound) (state.onLine line) =
      statementsWithin inBlock statement (last :: bound) state := by
  have kind : (state.onLine line).kind = state.kind := rfl
  have stays : ¬ endsStatements inBlock state.kind = true := by simp [goesOn]
  rw [statementsWithin, statementsWithin, kind, if_neg stays, if_neg stays, if_neg noSemicolon,
    if_neg noSemicolon, ignores _ _ _ line ahead read, read]

/-! ## The kind of the first token -/

theorem starts_of_operand {inner : Level} {state after : State} {value : Expr}
    (read : operand inner state = .ok value after) : state.kind.operandForm?.isSome = true := by
  rw [operand_run] at read
  cases form : state.kind.operandForm? with
  | none =>
      rw [form] at read
      cases read
  | some _ => rfl

theorem starts_of_expression {room : Nat} {power : BindingPower} {state after : State} {value : Expr}
    (read : (Level.withRoom room).expression power state = .ok value after) :
    state.kind.operandForm?.isSome = true := by
  cases room with
  | zero => cases read
  | succ room =>
      obtain ⟨_, readInside, _⟩ := deeper_ok_iff.1 read
      obtain ⟨_, _, readOperand, _⟩ := expressionAt_ok_iff.1 readInside
      exact (starts_of_operand readOperand :)

/-- A statement starts with a token that starts a form of its own, so that it does not continue the
statement before it. -/
theorem starts_of_statement {room : Nat} {state after : State} {statement : Stmt}
    (read : Production.statement (Level.withRoom room) state = .ok statement after)
    (noDash : state.kind ≠ .dash) : state.kind.continuesStatement = false := by
  rw [statement_run] at read
  split at read
  · next form starts =>
      exact Kind.not_continuesStatement_of_statementForm? (Option.isSome_iff_exists.2 ⟨form, starts⟩)
  · split_ifs at read
    · obtain ⟨identifier, _⟩ := assignment_ok_iff.1 read
      rw [identifier]
      rfl
    · obtain ⟨_, readValue, _⟩ := expressionStatement_ok_iff.1 read
      exact Kind.not_continuesStatement_of_operandForm? (starts_of_expression readValue) noDash

end Production

end AgentScript
