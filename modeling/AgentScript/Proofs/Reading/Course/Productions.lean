import AgentScript.Proofs.Reading.Course

/-!
Contract: every production of the grammar stays on a course from where it starts.

Owns: one statement for each production, given the level further in, and from them the statement for
every level.
-/

set_option autoImplicit false

namespace AgentScript

namespace State.Reaches

theorem skipWithin (depth : Nat) (bound : List Lexed) {state : State}
    (reported : state.sink ≠ Sink.empty) :
    state.Reaches (Production.skipWithin depth bound state) := by
  induction bound generalizing state with
  | nil => exact .refl state
  | cons _ bound inductionHypothesis =>
      unfold Production.skipWithin
      have passed := (State.Reaches.refl state).advance
      have onward := passed.trans
        (inductionHypothesis fun clean => reported (passed.sink_eq_empty clean))
      split_ifs
      · exact .refl state
      · exact .closeTo depth reported (.refl state)
      · exact onward
      · exact .refl state
      · exact onward

theorem recover (start : State) {failed : State} (reported : failed.sink ≠ Sink.empty) :
    failed.Reaches (Production.recover start failed) := by
  have passed := (State.Reaches.refl failed).advance
  unfold Production.recover
  split_ifs
  · exact passed.trans (skipWithin _ _ fun clean => reported (passed.sink_eq_empty clean))
  · exact skipWithin _ _ reported

theorem checkSeparated (inBlock : Bool) (state : State) :
    state.Reaches (Production.checkSeparated inBlock state) := by
  unfold Production.checkSeparated
  split_ifs
  · exact .refl state
  · exact .report _ (.refl state)

theorem statementsWithin {statement : Production Stmt} (proceeds : statement.Proceeds)
    (inBlock : Bool) (bound : List Lexed) (state : State) :
    state.Reaches (Production.statementsWithin inBlock statement bound state).2 := by
  induction bound generalizing state with
  | nil => exact .refl state
  | cons _ bound inductionHypothesis =>
      unfold Production.statementsWithin
      split_ifs
      · exact .refl state
      · exact ((State.Reaches.refl state).report _).advance.trans (inductionHypothesis _)
      · have course := proceeds state
        cases result : statement state with
        | ok first after =>
            rw [result] at course
            exact (course.trans (checkSeparated inBlock after)).trans (inductionHypothesis _)
        | error diagnostic failed =>
            rw [result] at course
            exact ((course.report diagnostic).trans
              (recover state (failed.report_sink_ne_empty diagnostic))).trans (inductionHypothesis _)

end State.Reaches

namespace Production

/-- What is read one level further in stays on a course. -/
structure LevelProceeds (inner : Level) : Prop where
  expression : ∀ power, (inner.expression power).Proceeds
  block : inner.block.Proceeds
  conditional : inner.conditional.Proceeds
  statement : inner.statement.Proceeds

/-! ## Types -/

theorem proceeds_typeName : typeName.Proceeds :=
  proceeds_currentKind.bind fun _ =>
    .ite (proceeds_take.bind fun _ => proceeds_pure _) (proceeds_failUnexpected _)

theorem proceeds_arraySuffix (element : TypeExpr) : (arraySuffix element).Proceeds :=
  (proceeds_expect _).bind fun _ => (proceeds_expect _).bind fun _ => proceeds_pure _

theorem proceeds_typeExpr (power : BindingPower) : (typeExpr power).Proceeds :=
  proceeds_typeName.bind fun _ => .iterateWhile proceeds_arraySuffix _ _

theorem proceeds_declaredType? : declaredType?.Proceeds := (proceeds_typeExpr _).after? _

/-! ## Expressions -/

theorem proceeds_primary : primary.Proceeds := by
  refine proceeds_take.bind fun token => ?_
  split
  · split
    · exact proceeds_pure _
    · exact proceeds_throw _
  · exact proceeds_pure _
  · exact proceeds_pure _
  · exact proceeds_pure _

theorem proceeds_objectKey : objectKey.Proceeds := by
  refine proceeds_currentKind.bind fun kind => ?_
  split
  · exact proceeds_take.bind fun _ => proceeds_pure _
  · exact proceeds_take.bind fun _ => proceeds_pure _
  · exact proceeds_failUnexpected _
  · exact proceeds_get.bind fun _ => proceeds_failHere _

section

variable {inner : Level} (proceeds : LevelProceeds inner)
include proceeds

theorem proceeds_unary : (unary inner).Proceeds :=
  proceeds_take.bind fun _ => (proceeds.expression _).bind fun _ => proceeds_pure _

theorem proceeds_grouping : (grouping inner).Proceeds :=
  (proceeds_expect _).bind fun _ => (proceeds.expression _).bind fun _ =>
    (proceeds_expect _).bind fun _ => proceeds_pure _

theorem proceeds_expressionList (closing : Kind) : (expressionList inner closing).Proceeds :=
  (proceeds.expression _).listOf _

theorem proceeds_arrayLiteral : (arrayLiteral inner).Proceeds :=
  proceeds_take.bind fun _ => (proceeds_expressionList proceeds _).bind fun _ => proceeds_pure _

theorem proceeds_keyed {key : Production String} (proceedsKey : key.Proceeds) :
    (keyed inner key).Proceeds :=
  proceedsKey.bind fun _ => (proceeds_expect _).bind fun _ =>
    (proceeds.expression _).bind fun _ => proceeds_pure _

theorem proceeds_objectLiteral : (objectLiteral inner).Proceeds :=
  proceeds_take.bind fun _ =>
    ((proceeds_keyed proceeds proceeds_objectKey).listOf _).bind fun _ => proceeds_pure _

theorem proceeds_binary (left : Expr) (power : BindingPower) :
    (binary inner left power).Proceeds :=
  proceeds_take.bind fun _ => (proceeds.expression _).bind fun _ => proceeds_pure _

theorem proceeds_pipe (left : Expr) (power : BindingPower) : (pipe inner left power).Proceeds :=
  proceeds_take.bind fun _ => (proceeds.expression _).bind fun _ => proceeds_pure _

theorem proceeds_call (function : Expr) : (call inner function).Proceeds :=
  proceeds_take.bind fun _ => (proceeds_expressionList proceeds _).bind fun _ => proceeds_pure _

omit proceeds in
theorem proceeds_member (object : Expr) : (member object).Proceeds :=
  proceeds_take.bind fun _ => proceeds_currentKind.bind fun _ =>
    .ite (proceeds_take.bind fun _ => proceeds_pure _) (proceeds_failUnexpected _)

theorem proceeds_index (object : Expr) : (index inner object).Proceeds :=
  proceeds_take.bind fun _ => (proceeds.expression _).bind fun _ =>
    (proceeds_expect _).bind fun _ => proceeds_pure _

theorem proceeds_operand : (operand inner).Proceeds := by
  refine proceeds_currentKind.bind fun kind => ?_
  split
  · exact proceeds_primary
  · exact proceeds_unary proceeds
  · exact proceeds_grouping proceeds
  · exact proceeds_arrayLiteral proceeds
  · exact proceeds_objectLiteral proceeds
  · exact proceeds_get.bind fun _ => proceeds_failHere _

theorem proceeds_continuation (left : Expr) : (continuation inner left).Proceeds := by
  refine proceeds_get.bind fun state => ?_
  split
  · exact proceeds_pipe proceeds _ _
  · exact proceeds_binary proceeds _ _
  · exact proceeds_call proceeds _
  · exact proceeds_member _
  · exact proceeds_index proceeds _
  · exact proceeds_pure _

theorem proceeds_expressionAt (power : BindingPower) : (expressionAt inner power).Proceeds :=
  (proceeds_operand proceeds).bind fun _ => .iterateWhile (proceeds_continuation proceeds) _ _

/-! ## Declarations -/

omit proceeds in
theorem proceeds_configKey : configKey.Proceeds :=
  proceeds_get.bind fun _ => .ite (proceeds_failUnexpected _)
    (.ite (proceeds_take.bind fun _ => proceeds_pure _) (proceeds_failHere _))

theorem proceeds_configBody : (configBody inner).Proceeds :=
  (proceeds_expect _).bind fun _ =>
    ((proceeds_keyed proceeds proceeds_configKey).listOf _).bind fun _ => proceeds_pure _

theorem proceeds_configDeclaration : (configDeclaration inner).Proceeds :=
  proceeds_take.bind fun _ => (proceeds_expectAs _ _).bind fun _ =>
    (proceeds_configBody proceeds).bind fun _ => proceeds_pure _

omit proceeds in
theorem proceeds_parameter : parameter.Proceeds :=
  (proceeds_expectAs _ _).bind fun _ => proceeds_declaredType?.bind fun _ => proceeds_pure _

theorem proceeds_toolDeclaration : (toolDeclaration inner).Proceeds :=
  proceeds_take.bind fun _ => (proceeds_expectAs _ _).bind fun _ => (proceeds_expect _).bind fun _ =>
    (proceeds_parameter.listOf _).bind fun _ => proceeds_declaredType?.bind fun _ =>
      proceeds.block.bind fun _ => proceeds_pure _

omit proceeds in
theorem proceeds_importedName : importedName.Proceeds := proceeds_expectAs _ _

omit proceeds in
theorem proceeds_bracedNames : bracedNames.Proceeds :=
  (proceeds_expect _).bind fun _ => proceeds_importedName.bind fun _ =>
    (Proceeds.manyWhile (proceeds_take.bind fun _ => proceeds_importedName) _).bind fun _ =>
      (proceeds_passIf _).bind fun _ => (proceeds_expect _).bind fun _ => proceeds_pure _

omit proceeds in
theorem proceeds_importedNames : importedNames.Proceeds :=
  proceeds_currentKind.bind fun _ =>
    .ite (proceeds_bracedNames.bind fun _ => proceeds_pure _)
      (proceeds_importedName.bind fun _ => proceeds_pure _)

omit proceeds in
theorem proceeds_importDeclaration : importDeclaration.Proceeds :=
  proceeds_take.bind fun _ => proceeds_importedNames.bind fun _ => (proceeds_expect _).bind fun _ =>
    (proceeds_expectAs _ _).bind fun _ => proceeds_pure _

theorem proceeds_exportDeclaration : (exportDeclaration inner).Proceeds :=
  proceeds_take.bind fun _ => proceeds_get.bind fun _ => proceeds.statement.bind fun _ =>
    .ite (proceeds_pure _) (proceeds_throw _)

/-! ## Statements -/

theorem proceeds_expressionStatement : (expressionStatement inner).Proceeds :=
  proceeds_get.bind fun _ => (proceeds.expression _).bind fun _ => proceeds_pure _

theorem proceeds_assignment : (assignment inner).Proceeds :=
  (proceeds_expectAs _ _).bind fun _ => proceeds_declaredType?.bind fun _ =>
    (proceeds_expect _).bind fun _ => (proceeds.expression _).bind fun _ => proceeds_pure _

theorem proceeds_condition : (condition inner).Proceeds :=
  (proceeds_expect _).bind fun _ => (proceeds.expression _).bind fun _ =>
    (proceeds_expect _).bind fun _ => proceeds_pure _

theorem proceeds_alternative : (alternative inner).Proceeds :=
  proceeds_currentKind.bind fun _ =>
    .ite proceeds.conditional (proceeds.block.bind fun _ => proceeds_pure _)

theorem proceeds_conditionalAt : (conditionalAt inner).Proceeds :=
  (proceeds_expect _).bind fun _ => (proceeds_condition proceeds).bind fun _ =>
    proceeds.block.bind fun _ =>
      ((proceeds_alternative proceeds).after? _).bind fun _ => proceeds_pure _

theorem proceeds_whileLoop : (whileLoop inner).Proceeds :=
  proceeds_take.bind fun _ => (proceeds_condition proceeds).bind fun _ =>
    proceeds.block.bind fun _ => proceeds_pure _

theorem proceeds_forOf : (forOf inner).Proceeds :=
  proceeds_take.bind fun _ => (proceeds_expect _).bind fun _ => (proceeds_expectAs _ _).bind fun _ =>
    (proceeds_expect _).bind fun _ => (proceeds.expression _).bind fun _ =>
      (proceeds_expect _).bind fun _ => proceeds.block.bind fun _ => proceeds_pure _

theorem proceeds_returnValue : (returnValue inner).Proceeds :=
  proceeds_take.bind fun _ => proceeds_get.bind fun _ =>
    .ite (proceeds_pure _) ((proceeds.expression _).bind fun _ => proceeds_pure _)

theorem proceeds_throwValue : (throwValue inner).Proceeds :=
  proceeds_take.bind fun _ => proceeds_get.bind fun _ =>
    .ite (proceeds_throw _) ((proceeds.expression _).bind fun _ => proceeds_pure _)

theorem proceeds_handler : (handler inner).Proceeds :=
  (proceeds_expect _).bind fun _ => (proceeds_expectAs _ _).bind fun _ =>
    (proceeds_expect _).bind fun _ => proceeds.block.bind fun _ => proceeds_pure _

theorem proceeds_attempt : (attempt inner).Proceeds :=
  proceeds_take.bind fun _ => proceeds.block.bind fun _ =>
    ((proceeds_handler proceeds).after? _).bind fun _ => (proceeds.block.after? _).bind fun _ =>
      .ite (proceeds_throw _) (proceeds_pure _)

theorem proceeds_statementOf (form : StatementForm) : (statementOf inner form).Proceeds := by
  cases form with
  | config => exact proceeds_configDeclaration proceeds
  | tool => exact proceeds_toolDeclaration proceeds
  | importNames => exact proceeds_importDeclaration
  | exported => exact proceeds_exportDeclaration proceeds
  | conditional => exact proceeds.conditional
  | whileLoop => exact proceeds_whileLoop proceeds
  | forOf => exact proceeds_forOf proceeds
  | breakLoop => exact proceeds_take.bind fun _ => proceeds_pure _
  | continueLoop => exact proceeds_take.bind fun _ => proceeds_pure _
  | returnValue => exact proceeds_returnValue proceeds
  | throwValue => exact proceeds_throwValue proceeds
  | attempt => exact proceeds_attempt proceeds
  | reserved => exact proceeds_take.bind fun _ => proceeds_throw _

theorem proceeds_statement : (statement inner).Proceeds := by
  refine proceeds_get.bind fun state => ?_
  split
  · exact proceeds_statementOf proceeds _
  · exact .ite (proceeds_assignment proceeds) (proceeds_expressionStatement proceeds)

theorem proceeds_blockAt : (blockAt inner).Proceeds :=
  (proceeds_expect _).bind fun _ =>
    Proceeds.bind
      (fun state => State.Reaches.statementsWithin (proceeds_statement proceeds) true
        state.upcoming state)
      fun _ => (proceeds_expect _).bind fun _ => proceeds_pure _

end

/-- Every level of nesting stays on a course. -/
theorem levelProceeds_withRoom (room : Nat) : LevelProceeds (Level.withRoom room) := by
  induction room with
  | zero =>
      exact ⟨fun _ => proceeds_tooDeep, proceeds_tooDeep, proceeds_tooDeep, proceeds_tooDeep⟩
  | succ room inductionHypothesis =>
      exact ⟨fun power => (proceeds_expressionAt inductionHypothesis power).deeper,
        (proceeds_blockAt inductionHypothesis).deeper,
        (proceeds_conditionalAt inductionHypothesis).deeper,
        (proceeds_statement inductionHypothesis).deeper⟩

end Production

end AgentScript
