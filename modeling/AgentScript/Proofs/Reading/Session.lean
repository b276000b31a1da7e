import AgentScript.Proofs.Reading.Progress

/-!
Contract: any sequence of calls to the parts of the reader, on one state after the other.

Owns:
- the calls: every production, given the level further in, and the steps productions are made of;
- the actions between calls, which go into a nested form and out of it again;
- what a call does: it stays on a course, but for the brackets that recovery forgets at its end;
- that actions one after the other lead from scanned states to scanned states.

A sequence need not be one that reading a script makes. Its calls may fail, stand at tokens they are
not meant for, or be given a recovery that fits no failure, and it may end inside a nested form.
-/

set_option autoImplicit false

namespace AgentScript

namespace Production

variable {α : Type}

/-- The production of a form that starts an expression. -/
def operandOf (inner : Level) : OperandForm → Production Expr
  | .primary => primary
  | .unary => unary inner
  | .grouping => grouping inner
  | .array => arrayLiteral inner
  | .object => objectLiteral inner

/-- The production of a form that continues an expression. -/
def continuationOf (inner : Level) (left : Expr) (power : BindingPower) :
    InfixForm → Production Expr
  | .pipe => pipe inner left power
  | .binary => binary inner left power
  | .call => call inner left
  | .member => member left
  | .index => index inner left

theorem proceeds_operandOf {inner : Level} (proceeds : LevelProceeds inner) (form : OperandForm) :
    (operandOf inner form).Proceeds := by
  cases form with
  | primary => exact proceeds_primary
  | unary => exact proceeds_unary proceeds
  | grouping => exact proceeds_grouping proceeds
  | array => exact proceeds_arrayLiteral proceeds
  | object => exact proceeds_objectLiteral proceeds

theorem proceeds_continuationOf {inner : Level} (proceeds : LevelProceeds inner) (left : Expr)
    (power : BindingPower) (form : InfixForm) : (continuationOf inner left power form).Proceeds := by
  cases form with
  | pipe => exact proceeds_pipe proceeds left power
  | binary => exact proceeds_binary proceeds left power
  | call => exact proceeds_call proceeds left
  | member => exact proceeds_member left
  | index => exact proceeds_index proceeds left

theorem proceeds_statements {inner : Level} (proceeds : LevelProceeds inner) (inBlock : Bool) :
    (statements inBlock (Production.statement inner)).Proceeds := fun state =>
  State.Reaches.statementsWithin (proceeds_statement proceeds) inBlock state.upcoming state

theorem Proceeds.discard {production : Production α} (proceeds : production.Proceeds) :
    (discard production : Production PUnit).Proceeds :=
  proceeds.bind fun _ => proceeds_pure _

end Production

/-- A call to one part of the reader. -/
inductive Call where
  | advance
  | expect (kind : Kind) (expected : String)
  | report (diagnostic : Diagnostic)
  /-- The recovery from a statement that started in the given state. -/
  | recover (start : State)
  | checkSeparated (inBlock : Bool)
  | statements (inBlock : Bool)
  | program
  | typeExpr (power : BindingPower)
  | arraySuffix (element : TypeExpr)
  | expression (power : BindingPower)
  /-- An expression that is not counted as another nested form. -/
  | expressionAt (power : BindingPower)
  | expressionList (closing : Kind)
  | operand (form : OperandForm)
  | continuation (form : InfixForm) (left : Expr) (power : BindingPower)
  | block
  | statement
  | expressionStatement
  | assignment
  | statementOf (form : StatementForm)
  /-- A conditional that is not counted as another nested form. -/
  | conditionalAt
  | condition
  | configBody

namespace Call

open Production

/-- What a call reads, given the level further in, without the value that it gives. -/
def read (inner : Level) : Call → Production PUnit
  | .advance => discard take
  | .expect kind expected => discard (expectAs kind expected)
  | .report diagnostic => modify fun state => state.report diagnostic
  | .recover start => modify (Production.recover start)
  | .checkSeparated inBlock => modify (Production.checkSeparated inBlock)
  | .statements inBlock =>
      discard (Production.statements inBlock (Production.statement inner))
  | .program => discard Production.program
  | .typeExpr power => discard (Production.typeExpr power)
  | .arraySuffix element => discard (Production.arraySuffix element)
  | .expression power => discard (inner.expression power)
  | .expressionAt power => discard (Production.expressionAt inner power)
  | .expressionList closing => discard (Production.expressionList inner closing)
  | .operand form => discard (operandOf inner form)
  | .continuation form left power => discard (continuationOf inner left power form)
  | .block => discard inner.block
  | .statement => discard (Production.statement inner)
  | .expressionStatement => discard (Production.expressionStatement inner)
  | .assignment => discard (Production.assignment inner)
  | .statementOf form => discard (Production.statementOf inner form)
  | .conditionalAt => discard (Production.conditionalAt inner)
  | .condition => discard (Production.condition inner)
  | .configBody => discard (Production.configBody inner)

/-- A call at the level of nesting that a state stands at. -/
def production (call : Call) : Production PUnit := atLevel fun inner => call.read inner

end Call

/-- Recovery passes tokens, and forgets brackets at most where it ends. -/
theorem Production.skipWithin_cases (depth : Nat) (bound : List Lexed) (state : State) :
    ∃ last : State, state.Reaches last ∧
      (skipWithin depth bound state = last ∨ skipWithin depth bound state = last.closeTo depth) := by
  induction bound generalizing state with
  | nil => exact ⟨state, .refl state, .inl rfl⟩
  | cons _ bound inductionHypothesis =>
      obtain ⟨last, course, ends⟩ := inductionHypothesis state.advance
      have onward := (State.Reaches.advance (.refl state)).trans course
      unfold skipWithin
      split_ifs
      · exact ⟨state, .refl state, .inl rfl⟩
      · exact ⟨state, .refl state, .inr rfl⟩
      · exact ⟨last, onward, ends⟩
      · exact ⟨state, .refl state, .inl rfl⟩
      · exact ⟨last, onward, ends⟩

theorem Production.recover_cases (start failed : State) :
    ∃ last : State, failed.Reaches last ∧
      (recover start failed = last ∨ recover start failed = last.closeTo start.depth) := by
  unfold recover
  split_ifs
  · obtain ⟨last, course, ends⟩ :=
      skipWithin_cases start.depth failed.advance.upcoming failed.advance
    exact ⟨last, (State.Reaches.advance (.refl failed)).trans course, ends⟩
  · exact skipWithin_cases start.depth failed.upcoming failed

namespace Call

open Production

/-- Every call but recovery stays on a course, and recovery does so up to the brackets it forgets. -/
theorem course_read {inner : Level} (proceeds : LevelProceeds inner) (call : Call) (state : State) :
    ∃ last : State, state.Reaches last ∧
      (final (call.read inner state) = last ∨
        ∃ depth, final (call.read inner state) = last.closeTo depth) := by
  have onCourse (stays : (call.read inner).Proceeds) : ∃ last : State, state.Reaches last ∧
      (final (call.read inner state) = last ∨
        ∃ depth, final (call.read inner state) = last.closeTo depth) :=
    ⟨_, stays state, .inl rfl⟩
  cases call with
  | recover start =>
      obtain ⟨last, course, ends⟩ := recover_cases start state
      exact ⟨last, course, ends.imp_right fun forgets => ⟨start.depth, forgets⟩⟩
  | advance => exact onCourse proceeds_take.discard
  | expect kind expected => exact onCourse (proceeds_expectAs kind expected).discard
  | report diagnostic => exact onCourse fun state => .report diagnostic (.refl state)
  | checkSeparated inBlock => exact onCourse (State.Reaches.checkSeparated inBlock)
  | statements inBlock => exact onCourse (proceeds_statements proceeds inBlock).discard
  | program =>
      have whole : Production.program.Proceeds := fun state =>
        proceeds_statements (levelProceeds_withRoom state.room) false state
      exact onCourse whole.discard
  | typeExpr power => exact onCourse (proceeds_typeExpr power).discard
  | arraySuffix element => exact onCourse (proceeds_arraySuffix element).discard
  | expression power => exact onCourse (proceeds.expression power).discard
  | expressionAt power => exact onCourse (proceeds_expressionAt proceeds power).discard
  | expressionList closing => exact onCourse (proceeds_expressionList proceeds closing).discard
  | operand form => exact onCourse (proceeds_operandOf proceeds form).discard
  | continuation form left power =>
      exact onCourse (proceeds_continuationOf proceeds left power form).discard
  | block => exact onCourse proceeds.block.discard
  | statement => exact onCourse (proceeds_statement proceeds).discard
  | expressionStatement => exact onCourse (proceeds_expressionStatement proceeds).discard
  | assignment => exact onCourse (proceeds_assignment proceeds).discard
  | statementOf form => exact onCourse (proceeds_statementOf proceeds form).discard
  | conditionalAt => exact onCourse (proceeds_conditionalAt proceeds).discard
  | condition => exact onCourse (proceeds_condition proceeds).discard
  | configBody => exact onCourse (proceeds_configBody proceeds).discard

theorem course (call : Call) (state : State) :
    ∃ last : State, state.Reaches last ∧
      (final (call.production state) = last ∨
        ∃ depth, final (call.production state) = last.closeTo depth) :=
  call.course_read (levelProceeds_withRoom state.room) state

/-- Whether it succeeds or fails, a call ends at the level of nesting it starts at. -/
theorem final_nesting (call : Call) (state : State) :
    (final (call.production state)).nesting = state.nesting := by
  obtain ⟨last, course, ends | ⟨depth, ends⟩⟩ := call.course state
  · rw [ends, course.nesting_eq]
  · rw [ends]
    exact course.nesting_eq

end Call

/-- A call, or a step into a nested form or out of it. -/
inductive Action where
  | call (call : Call)
  | enter
  | leave

namespace State

/-- The state after an action. One nested form too many is not entered. -/
def act (state : State) : Action → State
  | .call call => Production.final (call.production state)
  | .enter =>
      if state.nesting < maxNesting then { state with nesting := state.nesting + 1 } else state
  | .leave => { state with nesting := state.nesting - 1 }

/-- The state after actions one after the other. -/
def follow (state : State) (actions : List Action) : State := actions.foldl act state

theorem Scanned.act {state : State} (scanned : state.Scanned) (action : Action) :
    (state.act action).Scanned := by
  cases action with
  | call call =>
      obtain ⟨last, course, ends⟩ := call.course state
      have scannedLast := scanned.of_reaches course
      rcases ends with ends | ⟨depth, ends⟩
      · rw [State.act, ends]
        exact scannedLast
      · rw [State.act, ends]
        exact ⟨scannedLast.ending_kind, scannedLast.kind_ne, scannedLast.wellSpelled⟩
  | enter =>
      simp only [State.act]
      split
      · exact scanned.deeper _
      · exact scanned
  | leave => exact scanned.deeper _

theorem Scanned.follow {state : State} (scanned : state.Scanned) (actions : List Action) :
    (state.follow actions).Scanned := by
  induction actions generalizing state with
  | nil => exact scanned
  | cons action actions inductionHypothesis => exact inductionHypothesis (scanned.act action)

end State

end AgentScript
