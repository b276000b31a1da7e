import AgentScript.Proofs.Reading.Course.Productions
import AgentScript.Proofs.Reading.Inversion
import AgentScript.Proofs.Reading.Invariant

/-!
Contract: every production of the grammar preserves every invariant.

Owns: one statement for each production, given the level further in; from them the statement for every
level and for the whole reading of a script.
-/

set_option autoImplicit false

namespace AgentScript.Production

variable {invariant : Invariant}

/-- What is read one level further in preserves the invariant and stays on a course. -/
structure LevelPreserves (invariant : Invariant) (inner : Level) : Prop where
  proceeds : LevelProceeds inner
  expression : ∀ power, Preserves invariant (inner.expression power)
  block : Preserves invariant inner.block
  conditional : Preserves invariant inner.conditional
  statement : Preserves invariant inner.statement

/-! ## Types -/

theorem preserves_typeName : Preserves invariant typeName :=
  preserves_currentKind_bind fun _ =>
    .ite (preserves_take.bind_pure _) (preserves_failUnexpected (.form (by simp [formWordings])))

theorem preserves_arraySuffix (element : TypeExpr) : Preserves invariant (arraySuffix element) :=
  (preserves_expect _).bind fun _ => (preserves_expect _).bind_pure _

theorem preserves_typeExpr (power : BindingPower) : Preserves invariant (typeExpr power) :=
  preserves_typeName.bind fun _ => preserves_iterateWhile preserves_arraySuffix _ _

theorem preserves_declaredType? : Preserves invariant declaredType? :=
  (preserves_typeExpr _).after? _

/-! ## Expressions -/

theorem preserves_primary : Preserves invariant primary := by
  intro state holds
  have passed := invariant.advance holds
  unfold primary
  rw [take_bind]
  cases kind : state.current.kind with
  | number =>
      cases decimal : Decimal.ofText? state.current.value.toList with
      | none => exact keeps_error_passed holds ⟨kind, rfl, decimal⟩ rfl trivial
      | some value => exact passed
  | _ => exact passed

theorem preserves_objectKey : Preserves invariant objectKey := by
  refine preserves_currentKind_bind fun kind => ?_
  have other : Preserves invariant
      (do failHere (.invalidObjectKey (← get).current.describe) : Production String) :=
    preserves_failHere (fun _ => rfl) (fun _ => rfl) fun _ => trivial
  cases kind with
  | identifier => exact preserves_take.bind_pure _
  | string => exact preserves_take.bind_pure _
  | endOfInput => exact preserves_failUnexpected (.kind .closeCurly)
  | _ => exact other

theorem preserves_configKey : Preserves invariant configKey := by
  intro state holds
  unfold configKey
  rw [get_bind, ite_run, ite_run]
  split_ifs
  · exact keeps_error holds rfl rfl (.kind .closeCurly)
  · exact preserves_take.bind_pure _ state holds
  · exact keeps_error holds rfl rfl trivial

theorem preserves_member (object : Expr) : Preserves invariant (member object) :=
  preserves_take.bind fun _ => preserves_currentKind_bind fun _ =>
    .ite (preserves_take.bind_pure _) (preserves_failUnexpected (.form (by simp [formWordings])))

section

variable {inner : Level} (preserves : LevelPreserves invariant inner)
include preserves

theorem preserves_unary : Preserves invariant (unary inner) :=
  preserves_take.bind fun _ => (preserves.expression _).bind_pure _

theorem preserves_grouping : Preserves invariant (grouping inner) :=
  (preserves_expect _).bind fun _ => (preserves.expression _).bind fun _ =>
    (preserves_expect _).bind_pure _

theorem preserves_expressionList (closing : Kind) :
    Preserves invariant (expressionList inner closing) :=
  preserves_listOf (preserves.expression _) (.kind closing)

theorem preserves_arrayLiteral : Preserves invariant (arrayLiteral inner) :=
  preserves_take.bind fun _ => (preserves_expressionList preserves _).bind_pure _

theorem preserves_keyed {key : Production String} (keys : Preserves invariant key) :
    Preserves invariant (keyed inner key) :=
  keys.bind fun _ => (preserves_expect _).bind fun _ => (preserves.expression _).bind_pure _

theorem preserves_objectLiteral : Preserves invariant (objectLiteral inner) :=
  preserves_take.bind fun _ =>
    (preserves_listOf (preserves_keyed preserves preserves_objectKey)
      (.form (by simp [formWordings, objectListing]))).bind_pure _

theorem preserves_call (function : Expr) : Preserves invariant (call inner function) :=
  preserves_take.bind fun _ => (preserves_expressionList preserves _).bind_pure _

theorem preserves_index (object : Expr) : Preserves invariant (index inner object) :=
  preserves_take.bind fun _ => (preserves.expression _).bind fun _ => (preserves_expect _).bind_pure _

theorem preserves_operand : Preserves invariant (operand inner) := by
  refine preserves_currentKind_bind fun kind => ?_
  split
  · exact preserves_primary
  · exact preserves_unary preserves
  · exact preserves_grouping preserves
  · exact preserves_arrayLiteral preserves
  · exact preserves_objectLiteral preserves
  · exact preserves_failHere (fun _ => rfl) (fun _ => rfl) fun _ => trivial

theorem preserves_continuation (left : Expr) : Preserves invariant (continuation inner left) := by
  refine preserves_get_bind fun state => ?_
  split
  · exact preserves_take.bind fun _ => (preserves.expression _).bind_pure _
  · exact preserves_take.bind fun _ => (preserves.expression _).bind_pure _
  · exact preserves_call preserves _
  · exact preserves_member _
  · exact preserves_index preserves _
  · exact preserves_pure _

theorem preserves_expressionAt (power : BindingPower) :
    Preserves invariant (expressionAt inner power) :=
  (preserves_operand preserves).bind fun _ =>
    preserves_iterateWhile (preserves_continuation preserves) _ _

/-! ## Declarations -/

theorem preserves_configBody : Preserves invariant (configBody inner) :=
  (preserves_expect _).bind fun _ =>
    (preserves_listOf (preserves_keyed preserves preserves_configKey)
      (.form (by simp [formWordings, configListing]))).bind_pure _

/-- What is expected after the keyword of a declaration is worded with that keyword. -/
theorem keeps_configDeclaration {state : State} (isKeyword : state.current.kind.isKeyword = true)
    (holds : invariant.Holds state) : Keeps invariant (configDeclaration inner state) := by
  have wording : IsWording invariant.Reads (state.current.value ++ " name") :=
    .name ⟨state, holds, rfl⟩ isKeyword
  have named := (preserves_expectAs .identifier wording).bind fun name =>
    (preserves_configBody preserves).bind_pure fun entries =>
      Stmt.config (configKind state.current.kind) state.current name entries
  unfold configDeclaration
  rw [take_bind]
  exact named state.advance (invariant.advance holds)

omit preserves in
theorem preserves_parameter : Preserves invariant parameter :=
  (preserves_expectAs _ (.form (by simp [formWordings]))).bind fun _ =>
    preserves_declaredType?.bind_pure _

theorem preserves_toolDeclaration : Preserves invariant (toolDeclaration inner) :=
  preserves_take.bind fun _ => (preserves_expectAs _ (.form (by simp [formWordings]))).bind fun _ =>
    (preserves_expect _).bind fun _ =>
      (preserves_listOf preserves_parameter
        (.form (by simp [formWordings, parameterListing]))).bind fun _ =>
          preserves_declaredType?.bind fun _ => preserves.block.bind_pure _

omit preserves in
theorem preserves_importedName : Preserves invariant importedName :=
  preserves_expectAs _ (.form (by simp [formWordings]))

omit preserves in
theorem preserves_bracedNames : Preserves invariant bracedNames :=
  (preserves_expect _).bind fun _ => preserves_importedName.bind fun _ =>
    (preserves_manyWhile (preserves_take.bind fun _ => preserves_importedName) _).bind fun _ =>
      (preserves_passIf _).bind fun _ => (preserves_expect _).bind_pure _

omit preserves in
theorem preserves_importDeclaration : Preserves invariant importDeclaration :=
  preserves_take.bind fun _ =>
    (preserves_currentKind_bind fun _ => .ite (preserves_bracedNames.bind_pure _)
      (preserves_importedName.bind_pure _)).bind fun _ =>
        (preserves_expect _).bind fun _ =>
          (preserves_expectAs _ (.form (by simp [formWordings]))).bind_pure _

theorem preserves_exportDeclaration : Preserves invariant (exportDeclaration inner) := by
  intro state holds
  have first := invariant.advance holds
  unfold exportDeclaration
  rw [take_bind, get_bind]
  refine (preserves.statement state.advance first).bind fun statement after read held => ?_
  rw [ite_run]
  split
  · exact held
  · exact keeps_error_belated first rfl (preserves.proceeds.statement.of_ok read) rfl held

/-! ## Statements -/

theorem preserves_assignment : Preserves invariant (assignment inner) :=
  (preserves_expectAs _ (.form (by simp [formWordings]))).bind fun _ =>
    preserves_declaredType?.bind fun _ =>
      (preserves_expect _).bind fun _ => (preserves.expression _).bind_pure _

theorem preserves_expressionStatement : Preserves invariant (expressionStatement inner) :=
  preserves_get_bind fun _ => (preserves.expression _).bind_pure _

theorem preserves_alternative : Preserves invariant (alternative inner) :=
  preserves_currentKind_bind fun _ => .ite preserves.conditional (preserves.block.bind_pure _)

theorem preserves_conditionalAt : Preserves invariant (conditionalAt inner) :=
  (preserves_expect _).bind fun _ => (preserves_grouping preserves).bind fun _ =>
    preserves.block.bind fun _ => ((preserves_alternative preserves).after? _).bind_pure _

theorem preserves_forOf : Preserves invariant (forOf inner) :=
  preserves_take.bind fun _ => (preserves_expect _).bind fun _ =>
    (preserves_expectAs _ (.form (by simp [formWordings]))).bind fun _ =>
      (preserves_expect _).bind fun _ => (preserves.expression _).bind fun _ =>
        (preserves_expect _).bind fun _ => preserves.block.bind_pure _

theorem preserves_handler : Preserves invariant (handler inner) :=
  (preserves_expect _).bind fun _ =>
    (preserves_expectAs _ (.form (by simp [formWordings]))).bind fun _ =>
      (preserves_expect _).bind fun _ => preserves.block.bind_pure _

theorem preserves_attempt : Preserves invariant (attempt inner) := by
  intro state holds
  unfold attempt
  rw [take_bind]
  refine (preserves.block state.advance (invariant.advance holds)).bind
    fun body closed readBody held => ?_
  refine ((preserves_handler preserves).after? _ closed held).bind
    fun handler? handled readHandler held => ?_
  refine (preserves.block.after? _ handled held).bind fun finalizer? after readFinalizer held => ?_
  have course : state.Reaches after :=
    (((State.Reaches.refl state).advance.trans (preserves.proceeds.block.of_ok readBody)).trans
      (((proceeds_handler preserves.proceeds).after? _).of_ok readHandler)).trans
        ((preserves.proceeds.block.after? _).of_ok readFinalizer)
  rw [ite_run]
  split
  · exact keeps_error_belated holds rfl course trivial held
  · exact held

theorem preserves_throwValue : Preserves invariant (throwValue inner) := by
  intro state holds
  have passed := invariant.advance holds
  unfold throwValue
  rw [take_bind, get_bind, ite_run]
  split
  · exact keeps_error_passed holds trivial rfl trivial
  · exact (preserves.expression _).bind_pure _ state.advance passed

omit preserves in
theorem keeps_reserved {state : State} (isKeyword : state.current.kind.isKeyword = true)
    (holds : invariant.Holds state) : Keeps invariant (reserved state) :=
  keeps_error_passed holds rfl rfl ⟨state.current, ⟨state, holds, rfl⟩, isKeyword, rfl⟩

/-- A statement of any form. The faults of two forms are worded with the current token, which then
has to be a keyword. -/
theorem keeps_statementOf {form : StatementForm} {state : State}
    (isKeyword : form = .config ∨ form = .reserved → state.current.kind.isKeyword = true)
    (holds : invariant.Holds state) : Keeps invariant (statementOf inner form state) := by
  cases form with
  | config => exact keeps_configDeclaration preserves (isKeyword (.inl rfl)) holds
  | tool => exact preserves_toolDeclaration preserves state holds
  | importNames => exact preserves_importDeclaration state holds
  | exported => exact preserves_exportDeclaration preserves state holds
  | conditional => exact preserves.conditional state holds
  | whileLoop =>
      have loop : Preserves invariant (Production.whileLoop inner) :=
        preserves_take.bind fun _ => (preserves_grouping preserves).bind fun _ =>
          preserves.block.bind_pure _
      exact loop state holds
  | forOf => exact preserves_forOf preserves state holds
  | breakLoop => exact preserves_take.bind_pure Stmt.breakLoop state holds
  | continueLoop => exact preserves_take.bind_pure Stmt.continueLoop state holds
  | returnValue =>
      have returns : Preserves invariant (Production.returnValue inner) :=
        preserves_take.bind fun _ => preserves_get_bind fun _ =>
          .ite (preserves_pure _) ((preserves.expression _).bind_pure _)
      exact returns state holds
  | throwValue => exact preserves_throwValue preserves state holds
  | attempt => exact preserves_attempt preserves state holds
  | reserved => exact keeps_reserved (isKeyword (.inr rfl)) holds

theorem preserves_statement : Preserves invariant (Production.statement inner) := by
  intro state holds
  have other : Preserves invariant
      (if startsAssignment state then assignment inner else expressionStatement inner) :=
    .ite (preserves_assignment preserves) (preserves_expressionStatement preserves)
  unfold Production.statement
  rw [get_bind]
  cases starts : state.kind.statementForm? with
  | some form =>
      have isKeyword : state.current.kind.isKeyword = true := by
        obtain ⟨word, kind, _⟩ := Kind.statementForm?_eq_some_iff.1 starts
        rw [← State.kind, kind]
        rfl
      exact keeps_statementOf preserves (fun _ => isKeyword) holds
  | none => exact other state holds

end

/-! ## Lists of statements -/

section

variable {state : State}

theorem holds_skipWithin (depth : Nat) (bound : List Lexed) (holds : invariant.Holds state) :
    invariant.Holds (skipWithin depth bound state) := by
  induction bound generalizing state with
  | nil => exact holds
  | cons _ bound inductionHypothesis =>
      have onward := inductionHypothesis (invariant.advance holds)
      unfold skipWithin
      split_ifs
      · exact holds
      · exact invariant.closeTo depth holds
      · exact onward
      · exact holds
      · exact onward

theorem holds_recover (start : State) (holds : invariant.Holds state) :
    invariant.Holds (recover start state) := by
  unfold recover
  split_ifs
  · exact holds_skipWithin _ _ (invariant.advance holds)
  · exact holds_skipWithin _ _ holds

theorem holds_checkSeparated (inBlock : Bool) (holds : invariant.Holds state) :
    invariant.Holds (checkSeparated inBlock state) := by
  unfold checkSeparated
  split_ifs
  · exact holds
  · exact invariant.report (allowed_here holds rfl rfl trivial) holds

theorem holds_statementsWithin {statement : Production Stmt}
    (preserves : Preserves invariant statement) (inBlock : Bool) (bound : List Lexed)
    (holds : invariant.Holds state) :
    invariant.Holds (statementsWithin inBlock statement bound state).2 := by
  induction bound generalizing state with
  | nil => exact holds
  | cons _ bound inductionHypothesis =>
      unfold statementsWithin
      split_ifs
      · exact holds
      · exact inductionHypothesis
          (invariant.advance (invariant.report (allowed_here holds trivial rfl trivial) holds))
      · have kept := preserves state holds
        cases result : statement state with
        | ok first after =>
            rw [result] at kept
            exact inductionHypothesis (holds_checkSeparated inBlock kept)
        | error diagnostic failed =>
            rw [result] at kept
            exact inductionHypothesis (holds_recover state (invariant.report kept.1 kept.2))

end

theorem preserves_blockAt {inner : Level} (preserves : LevelPreserves invariant inner) :
    Preserves invariant (blockAt inner) :=
  (preserves_expect _).bind fun _ =>
    Preserves.bind
      (fun state holds => holds_statementsWithin (preserves_statement preserves) true
        state.upcoming holds)
      fun _ => (preserves_expect _).bind_pure _

/-- Every level of nesting preserves the invariant. -/
theorem levelPreserves_withRoom (room : Nat) : LevelPreserves invariant (Level.withRoom room) := by
  induction room with
  | zero =>
      exact ⟨levelProceeds_withRoom 0, fun _ => preserves_tooDeep, preserves_tooDeep,
        preserves_tooDeep, preserves_tooDeep⟩
  | succ room inductionHypothesis =>
      exact ⟨levelProceeds_withRoom (room + 1),
        fun power => (preserves_expressionAt inductionHypothesis power).deeper,
        (preserves_blockAt inductionHypothesis).deeper,
        (preserves_conditionalAt inductionHypothesis).deeper,
        (preserves_statement inductionHypothesis).deeper⟩

/-- What holds where the reading of a script starts holds where it ends. -/
theorem holds_readProgram (state : State) (holds : invariant.Holds state) :
    invariant.Holds state.readProgram.2 :=
  holds_statementsWithin (preserves_statement (levelPreserves_withRoom _)) false _ holds

end AgentScript.Production
