import AgentScript.Proofs.Reading.Mirror

/-!
Contract: every form of the grammar reads the same tokens at other positions as its image.

Owns: one statement for each form, whether it succeeds or fails, and from them the statement for
every level of nesting and for lists of statements with all their recovery.
-/

set_option autoImplicit false

namespace AgentScript.Production

variable {move : Position → Position} {recording : Recording move}

/-! ## Types -/

section

theorem mirrors_typeName : typeName.Mirrors recording typeName id :=
  mirrors_currentKind_bind fun _ =>
    .ite (mirrors_take.bind fun _ => mirrors_pure rfl) (mirrors_failUnexpected _ _)

theorem mirrors_arraySuffix (element : TypeExpr) :
    (arraySuffix element).Mirrors recording (arraySuffix element) id :=
  (mirrors_expect _).bind fun _ => (mirrors_expect _).bind fun _ =>
    mirrors_pure rfl

theorem mirrors_typeExpr (power : BindingPower) :
    (typeExpr power).Mirrors recording (typeExpr power) id :=
  mirrors_typeName.bind fun element =>
    .iterateWhile (mirrors_arraySuffix)
      (fun state image mirrored => by unfold continuesType; rw [mirrored.kind]) element

theorem mirrors_declaredType? : declaredType?.Mirrors recording declaredType? id := by
  have mirrors : Mirrors recording declaredType? declaredType? (Option.map id) :=
    (mirrors_typeExpr .default).after? .colon
  rwa [Option.map_id] at mirrors

theorem mirrors_parameter :
    parameter.Mirrors recording parameter (Parameter.moved move) :=
  (mirrors_expectAs _ _).bind fun _ => mirrors_declaredType?.bind fun _ =>
    mirrors_pure rfl

end

/-! ## Expressions -/

/-- What is read one level further in, and its image. -/
structure LevelMirrors (recording : Recording move) (inner : Level) : Prop where
  expression : ∀ power, (inner.expression power).Mirrors recording (inner.expression power)
    (Expr.moved move)
  block : inner.block.Mirrors recording inner.block (Block.moved move)
  conditional : inner.conditional.Mirrors recording inner.conditional (Stmt.moved move)
  statement : inner.statement.Mirrors recording inner.statement (Stmt.moved move)

theorem wordOperand_moved (token : Token) :
    wordOperand (token.moved move) = (wordOperand token).moved move := by
  unfold wordOperand Token.moved
  split_ifs <;> rfl

section

theorem mirrors_primary : primary.Mirrors recording primary (Expr.moved move) := by
  refine mirrors_take.bind fun token => ?_
  obtain ⟨kind, value, position⟩ := token
  unfold Token.moved
  cases kind with
  | number =>
      simp only
      cases Decimal.ofText? value.toList with
      | none => exact mirrors_throw rfl
      | some decimal => exact mirrors_pure rfl
  | string => exact mirrors_pure rfl
  | template => exact mirrors_pure rfl
  | _ => exact mirrors_pure (wordOperand_moved _)

theorem mirrors_objectKey : objectKey.Mirrors recording objectKey id := by
  refine mirrors_currentKind_bind fun kind => ?_
  have other : (do failHere (.invalidObjectKey (← get).current.describe) : Production String).Mirrors
      recording (do failHere (.invalidObjectKey (← get).current.describe)) id :=
    mirrors_get_bind fun state image mirrored => by
      rw [mirrored.describe]
      exact mirrors_failHere rfl
  have key : (return (← take).value : Production String).Mirrors recording
      (return (← take).value) id :=
    mirrors_take.bind fun _ => mirrors_pure rfl
  cases kind with
  | identifier => exact key
  | string => exact key
  | endOfInput => exact mirrors_failUnexpected _ _
  | _ => exact other

theorem mirrors_configKey : configKey.Mirrors recording configKey id := by
  refine mirrors_get_bind fun state image mirrored => ?_
  rw [mirrored.kind, mirrored.describe]
  exact .ite (mirrors_failUnexpected _ _)
    (.ite (mirrors_take.bind fun _ => mirrors_pure rfl) (mirrors_failHere rfl))

theorem mirrors_member (object : Expr) :
    (member object).Mirrors recording (member (object.moved move)) (Expr.moved move) :=
  mirrors_take.bind fun _ => mirrors_currentKind_bind fun _ =>
    .ite (mirrors_take.bind fun _ => mirrors_pure rfl) (mirrors_failUnexpected _ _)

variable {inner : Level} (mirrors : LevelMirrors recording inner)
include mirrors

theorem mirrors_unary : (unary inner).Mirrors recording (unary inner) (Expr.moved move) :=
  mirrors_take.bind fun _ => (mirrors.expression _).bind fun _ => mirrors_pure rfl

theorem mirrors_grouping :
    (grouping inner).Mirrors recording (grouping inner) (Expr.moved move) :=
  (mirrors_expect _).bind fun _ => (mirrors.expression _).bind fun _ =>
    (mirrors_expect _).bind fun _ => mirrors_pure rfl

theorem mirrors_expressionList (closing : Kind) :
    (expressionList inner closing).Mirrors recording (expressionList inner closing)
      (List.map (Expr.moved move)) :=
  (mirrors.expression _).listOf _

theorem mirrors_arrayLiteral :
    (arrayLiteral inner).Mirrors recording (arrayLiteral inner) (Expr.moved move) :=
  mirrors_take.bind fun _ => (mirrors_expressionList mirrors _).bind fun _ =>
    mirrors_pure (by simp only [Expr.moved, Expr.mapTokens, mapTokensOfExprs_eq_map])

/-- A key with its value. -/
theorem mirrors_keyed {key : Production String} (mirrorsKey : key.Mirrors recording key id) :
    (keyed inner key).Mirrors recording (keyed inner key)
      fun entry => (entry.1, entry.2.moved move) :=
  mirrorsKey.bind fun _ => (mirrors_expect _).bind fun _ =>
    (mirrors.expression _).bind fun _ => mirrors_pure rfl

theorem mirrors_objectLiteral :
    (objectLiteral inner).Mirrors recording (objectLiteral inner) (Expr.moved move) :=
  mirrors_take.bind fun _ =>
    ((mirrors_keyed mirrors (mirrors_objectKey)).listOf _).bind fun _ =>
      mirrors_pure (by
        rw [Expr.moved, Expr.mapTokens, mapTokensOfEntries_ofPairs, mapTokensOfEntries_eq_map])

theorem mirrors_binary (left : Expr) (power : BindingPower) :
    (binary inner left power).Mirrors recording
      (binary inner (left.moved move) power) (Expr.moved move) :=
  mirrors_take.bind fun _ => (mirrors.expression _).bind fun _ => mirrors_pure rfl

theorem mirrors_pipe (left : Expr) (power : BindingPower) :
    (pipe inner left power).Mirrors recording
      (pipe inner (left.moved move) power) (Expr.moved move) :=
  mirrors_take.bind fun _ => (mirrors.expression _).bind fun _ => mirrors_pure rfl

theorem mirrors_call (function : Expr) :
    (call inner function).Mirrors recording (call inner (function.moved move)) (Expr.moved move) :=
  mirrors_take.bind fun _ => (mirrors_expressionList mirrors _).bind fun _ =>
    mirrors_pure (by simp only [Expr.moved, Expr.mapTokens, mapTokensOfExprs_eq_map])

theorem mirrors_index (object : Expr) :
    (index inner object).Mirrors recording (index inner (object.moved move)) (Expr.moved move) :=
  mirrors_take.bind fun _ => (mirrors.expression _).bind fun _ =>
    (mirrors_expect _).bind fun _ => mirrors_pure rfl

theorem mirrors_operand :
    (operand inner).Mirrors recording (operand inner) (Expr.moved move) := by
  refine mirrors_currentKind_bind fun kind => ?_
  cases kind.operandForm? with
  | none =>
      refine mirrors_get_bind fun state image mirrored => ?_
      rw [mirrored.describe]
      exact mirrors_failHere rfl
  | some form =>
      cases form with
      | primary => exact mirrors_primary
      | unary => exact mirrors_unary mirrors
      | grouping => exact mirrors_grouping mirrors
      | array => exact mirrors_arrayLiteral mirrors
      | object => exact mirrors_objectLiteral mirrors

theorem mirrors_continuation (left : Expr) :
    (continuation inner left).Mirrors recording
      (continuation inner (left.moved move)) (Expr.moved move) := by
  refine mirrors_get_bind fun state image mirrored => ?_
  rw [mirrored.kind, mirrored.power]
  cases state.kind.infixForm? with
  | none => exact mirrors_pure rfl
  | some form =>
      cases form with
      | pipe => exact mirrors_pipe mirrors left _
      | binary => exact mirrors_binary mirrors left _
      | call => exact mirrors_call mirrors left
      | member => exact mirrors_member left
      | index => exact mirrors_index mirrors left

theorem mirrors_expressionAt (power : BindingPower) :
    (expressionAt inner power).Mirrors recording (expressionAt inner power) (Expr.moved move) :=
  (mirrors_operand mirrors).bind fun left =>
    .iterateWhile (mirrors_continuation mirrors)
      (fun state image mirrored => by simp only [mirrored.power]) left

/-! ## Declarations -/

/-- Keys with their values. -/
theorem mirrors_entries {key : Production String} (mirrorsKey : key.Mirrors recording key id)
    (listing : Listing) :
    (listOf listing (keyed inner key)).Mirrors recording (listOf listing (keyed inner key))
      (mapTokensOfEntries (Token.moved move)) := by
  have entries := (mirrors_keyed mirrors mirrorsKey).listOf listing
  rwa [← funext mapTokensOfEntries_eq_map] at entries

theorem mirrors_configBody :
    (configBody inner).Mirrors recording
      (configBody inner) (mapTokensOfEntries (Token.moved move)) :=
  (mirrors_expect _).bind fun _ =>
    (mirrors_entries mirrors (mirrors_configKey) _).bind fun _ =>
      mirrors_pure (mapTokensOfEntries_ofPairs _).symm

theorem mirrors_configDeclaration :
    (configDeclaration inner).Mirrors recording (configDeclaration inner) (Stmt.moved move) :=
  mirrors_take.bind fun _ => (mirrors_expectAs _ _).bind fun _ =>
    (mirrors_configBody mirrors).bind fun _ => mirrors_pure rfl

theorem mirrors_toolDeclaration :
    (toolDeclaration inner).Mirrors recording (toolDeclaration inner) (Stmt.moved move) :=
  mirrors_take.bind fun _ => (mirrors_expectAs _ _).bind fun _ =>
    (mirrors_expect _).bind fun _ =>
      (mirrors_parameter.listOf _).bind fun _ =>
        mirrors_declaredType?.bind fun _ => mirrors.block.bind fun _ => mirrors_pure rfl

omit mirrors in
theorem mirrors_importedName : importedName.Mirrors recording importedName (Token.moved move) :=
  mirrors_expectAs _ _

omit mirrors in
theorem sameAnswer_moreNames : SameAnswer recording moreNames := by
  intro state image mirrored
  unfold moreNames
  rw [mirrored.kind, mirrored.peek_kind]

omit mirrors in
theorem mirrors_bracedNames :
    bracedNames.Mirrors recording bracedNames (List.map (Token.moved move)) :=
  (mirrors_expect _).bind fun _ => mirrors_importedName.bind fun _ =>
    (Mirrors.manyWhile (mirrors_take.bind fun _ => mirrors_importedName)
      sameAnswer_moreNames).bind fun _ =>
      (mirrors_passIf _).bind fun _ => (mirrors_expect _).bind fun _ =>
        mirrors_pure rfl

omit mirrors in
theorem mirrors_importedNames :
    importedNames.Mirrors recording
      importedNames fun read => (read.1.map (Token.moved move), read.2) :=
  mirrors_currentKind_bind fun _ =>
    .ite (mirrors_bracedNames.bind fun _ => mirrors_pure rfl)
      (mirrors_importedName.bind fun _ => mirrors_pure rfl)

omit mirrors in
theorem mirrors_importDeclaration :
    importDeclaration.Mirrors recording importDeclaration (Stmt.moved move) :=
  mirrors_take.bind fun _ => mirrors_importedNames.bind fun _ =>
    (mirrors_expect _).bind fun _ => (mirrors_expectAs _ _).bind fun _ =>
      mirrors_pure rfl

omit mirrors in
theorem isExportable_moved (statement : Stmt) :
    (statement.moved move).isExportable = statement.isExportable := by
  cases statement with
  | conditional _ _ _ alternative? => cases alternative? <;> rfl
  | _ => rfl

theorem mirrors_exportDeclaration :
    (exportDeclaration inner).Mirrors recording (exportDeclaration inner) (Stmt.moved move) := by
  refine mirrors_take.bind fun keyword => ?_
  refine mirrors_get_bind fun state image mirrored => mirrors.statement.bind fun statement => ?_
  rw [isExportable_moved, mirrored.current]
  exact .ite (mirrors_pure rfl) (mirrors_throw rfl)

/-! ## Statements -/

theorem mirrors_expressionStatement :
    (expressionStatement inner).Mirrors recording (expressionStatement inner) (Stmt.moved move) := by
  refine mirrors_get_bind fun state image mirrored => ?_
  rw [mirrored.current]
  exact (mirrors.expression _).bind fun _ => mirrors_pure rfl

theorem mirrors_assignment :
    (assignment inner).Mirrors recording (assignment inner) (Stmt.moved move) :=
  (mirrors_expectAs _ _).bind fun _ => mirrors_declaredType?.bind fun _ =>
    (mirrors_expect _).bind fun _ => (mirrors.expression _).bind fun _ => mirrors_pure rfl

theorem mirrors_alternative :
    (alternative inner).Mirrors recording (alternative inner) (Stmt.moved move) :=
  mirrors_currentKind_bind fun _ =>
    .ite mirrors.conditional (mirrors.block.bind fun _ => mirrors_pure rfl)

theorem mirrors_conditionalAt :
    (conditionalAt inner).Mirrors recording (conditionalAt inner) (Stmt.moved move) :=
  (mirrors_expect _).bind fun _ => (mirrors_grouping mirrors).bind fun _ =>
    mirrors.block.bind fun _ =>
      ((mirrors_alternative mirrors).after? _).bind fun alternative? =>
        mirrors_pure (by cases alternative? <;> rfl)

theorem mirrors_whileLoop :
    (whileLoop inner).Mirrors recording (whileLoop inner) (Stmt.moved move) :=
  mirrors_take.bind fun _ => (mirrors_grouping mirrors).bind fun _ =>
    mirrors.block.bind fun _ => mirrors_pure rfl

theorem mirrors_forOf : (forOf inner).Mirrors recording (forOf inner) (Stmt.moved move) :=
  mirrors_take.bind fun _ => (mirrors_expect _).bind fun _ =>
    (mirrors_expectAs _ _).bind fun _ => (mirrors_expect _).bind fun _ =>
      (mirrors.expression _).bind fun _ => (mirrors_expect _).bind fun _ =>
        mirrors.block.bind fun _ => mirrors_pure rfl

theorem mirrors_returnValue :
    (returnValue inner).Mirrors recording (returnValue inner) (Stmt.moved move) := by
  refine mirrors_take.bind fun keyword => ?_
  refine mirrors_get_bind fun state image mirrored => ?_
  rw [mirrored.atStatementEnd]
  exact .ite (mirrors_pure rfl) ((mirrors.expression _).bind fun _ => mirrors_pure rfl)

theorem mirrors_throwValue :
    (throwValue inner).Mirrors recording (throwValue inner) (Stmt.moved move) := by
  refine mirrors_take.bind fun keyword => ?_
  refine mirrors_get_bind fun state image mirrored => ?_
  rw [mirrored.atStatementEnd]
  exact .ite (mirrors_throw rfl) ((mirrors.expression _).bind fun _ => mirrors_pure rfl)

/-- A name and a block that handles it. -/
theorem mirrors_handler :
    (handler inner).Mirrors recording (handler inner)
      fun read => (read.1.moved move, read.2.moved move) :=
  (mirrors_expect _).bind fun _ => (mirrors_expectAs _ _).bind fun _ =>
    (mirrors_expect _).bind fun _ => mirrors.block.bind fun _ => mirrors_pure rfl

theorem mirrors_attempt : (attempt inner).Mirrors recording (attempt inner) (Stmt.moved move) := by
  refine mirrors_take.bind fun keyword => mirrors.block.bind fun body => ?_
  refine ((mirrors_handler mirrors).after? _).bind fun handler? => ?_
  refine (mirrors.block.after? _).bind fun finalizer? => ?_
  rw [Option.isNone_map, Option.isNone_map]
  refine .ite (mirrors_throw rfl) (mirrors_pure ?_)
  cases handler? <;> cases finalizer? <;> rfl

theorem mirrors_statementOf (form : StatementForm) :
    (statementOf inner form).Mirrors recording (statementOf inner form) (Stmt.moved move) := by
  have keyword {finish : Token → Stmt}
      (same : ∀ token : Token, finish (token.moved move) = (finish token).moved move) :
      (take >>= fun token => pure (finish token)).Mirrors recording
        (take >>= fun token => pure (finish token)) (Stmt.moved move) :=
    mirrors_take.bind fun token => mirrors_pure (same token)
  cases form with
  | config => exact mirrors_configDeclaration mirrors
  | tool => exact mirrors_toolDeclaration mirrors
  | importNames => exact mirrors_importDeclaration
  | exported => exact mirrors_exportDeclaration mirrors
  | conditional => exact mirrors.conditional
  | whileLoop => exact mirrors_whileLoop mirrors
  | forOf => exact mirrors_forOf mirrors
  | breakLoop => exact keyword fun _ => rfl
  | continueLoop => exact keyword fun _ => rfl
  | returnValue => exact mirrors_returnValue mirrors
  | throwValue => exact mirrors_throwValue mirrors
  | attempt => exact mirrors_attempt mirrors
  | reserved => exact mirrors_take.bind fun _ => mirrors_throw rfl

omit mirrors in
theorem sameAnswer_startsAssignment : SameAnswer recording startsAssignment := by
  intro state image mirrored
  unfold startsAssignment
  rw [mirrored.kind, mirrored.peek_kind]

theorem mirrors_statement :
    (Production.statement inner).Mirrors recording
      (Production.statement inner) (Stmt.moved move) := by
  refine mirrors_get_bind fun state image mirrored => ?_
  rw [mirrored.kind, sameAnswer_startsAssignment state image mirrored]
  split
  · exact mirrors_statementOf mirrors _
  · exact .ite (mirrors_assignment mirrors) (mirrors_expressionStatement mirrors)

end

/-! ## Lists of statements -/

section

variable {state image : State}

/-- A statement that is not separated from the one before it is reported for the image too. -/
theorem checkSeparated_mirrored (inBlock : Bool) (mirrored : state.Mirrored recording image) :
    (checkSeparated inBlock state).Mirrored recording (checkSeparated inBlock image) := by
  unfold checkSeparated
  rw [mirrored.kind, mirrored.onNewLine, mirrored.describe]
  split
  · exact mirrored
  · exact mirrored.report (mirrored.faultHere rfl)

theorem sameAnswer_startsFreshStatement : SameAnswer recording startsFreshStatement := by
  intro state image mirrored
  unfold startsFreshStatement
  rw [mirrored.onNewLine, mirrored.kind, mirrored.peek_kind]

theorem skipWithin_mirrored (depth : Nat) {bound imageBound : List Lexed}
    (sameLength : imageBound.length = bound.length) (mirrored : state.Mirrored recording image) :
    (skipWithin depth bound state).Mirrored recording (skipWithin depth imageBound image) := by
  induction bound generalizing imageBound state image with
  | nil =>
      obtain rfl := List.length_eq_zero_iff.1 sameLength
      exact mirrored
  | cons _ bound inductionHypothesis =>
      cases imageBound with
      | nil => cases sameLength
      | cons _ imageBound =>
          have onward := inductionHypothesis (Nat.succ.inj sameLength) (mirrored.advance)
          unfold skipWithin
          rw [mirrored.kind, mirrored.depth, mirrored.onNewLine,
            sameAnswer_startsFreshStatement state image mirrored]
          split_ifs
          · exact mirrored
          · exact mirrored.closeTo depth
          · exact onward
          · exact mirrored
          · exact onward

/-- Reading resumes at the same token of the image. -/
theorem recover_mirrored {failed imageFailed : State} (mirrored : state.Mirrored recording image)
    (mirroredFailed : failed.Mirrored recording imageFailed) :
    (recover state failed).Mirrored recording (recover image imageFailed) := by
  have skipped {begun imageBegun : State} (mirroredBegun : begun.Mirrored recording imageBegun) :
      (skipWithin state.depth begun.upcoming begun).Mirrored recording
        (skipWithin image.depth imageBegun.upcoming imageBegun) := by
    rw [mirrored.depth]
    exact skipWithin_mirrored state.depth mirroredBegun.ahead.length_eq mirroredBegun
  unfold recover
  rw [mirrored.ahead.length_eq, mirroredFailed.ahead.length_eq]
  split
  · exact skipped (mirroredFailed.advance)
  · exact skipped mirroredFailed

variable {statement : Production Stmt}

/-- Statements are read and left out for the image as they are for the state. -/
theorem statementsWithin_mirrored (mirrors : statement.Mirrors recording statement (Stmt.moved move))
    (inBlock : Bool) {bound imageBound : List Lexed} (sameLength : imageBound.length = bound.length)
    (mirrored : state.Mirrored recording image) :
    (statementsWithin inBlock statement imageBound image).1 =
        (statementsWithin inBlock statement bound state).1.map (Stmt.moved move) ∧
      (statementsWithin inBlock statement bound state).2.Mirrored recording
        (statementsWithin inBlock statement imageBound image).2 := by
  induction bound generalizing imageBound state image with
  | nil =>
      obtain rfl := List.length_eq_zero_iff.1 sameLength
      exact ⟨rfl, mirrored⟩
  | cons _ bound inductionHypothesis =>
      cases imageBound with
      | nil => cases sameLength
      | cons _ imageBound =>
          have sameRest : imageBound.length = bound.length := Nat.succ.inj sameLength
          unfold statementsWithin
          rw [mirrored.kind]
          split_ifs
          · exact ⟨rfl, mirrored⟩
          · exact inductionHypothesis sameRest
              ((mirrored.report (mirrored.faultHere rfl)).advance)
          · have result := mirrors state image mirrored
            generalize statement state = read at result
            generalize statement image = imageRead at result
            cases result with
            | ok after =>
                obtain ⟨rest, final⟩ := inductionHypothesis sameRest
                  (checkSeparated_mirrored inBlock after)
                exact ⟨congrArg _ rest, final⟩
            | error failed =>
                exact inductionHypothesis sameRest
                  (recover_mirrored mirrored (failed.report rfl))

theorem mirrors_blockAt {inner : Level} (mirrors : LevelMirrors recording inner) :
    (blockAt inner).Mirrors recording (blockAt inner) (Block.moved move) := by
  have list : (statements true (Production.statement inner)).Mirrors recording
      (statements true (Production.statement inner)) (List.map (Stmt.moved move)) := by
    intro state image mirrored
    obtain ⟨same, final⟩ := statementsWithin_mirrored (mirrors_statement mirrors)
      true mirrored.ahead.length_eq mirrored
    change MirroredResult recording _ (.ok (statementsWithin _ _ _ _).1 (statementsWithin _ _ _ _).2)
      (.ok (statementsWithin _ _ _ _).1 (statementsWithin _ _ _ _).2)
    rw [same]
    exact .ok final
  exact (mirrors_expect _).bind fun _ => list.bind fun _ =>
    (mirrors_expect _).bind fun _ =>
      mirrors_pure (by rw [Block.moved, Block.mapTokens, mapTokensOfStmts_eq_map])

/-- At every level of nesting, what is read of the same tokens at other positions is the image. -/
theorem levelMirrors_withRoom (room : Nat) : LevelMirrors recording (Level.withRoom room) := by
  induction room with
  | zero =>
      exact ⟨fun _ => mirrors_tooDeep _, mirrors_tooDeep _, mirrors_tooDeep _, mirrors_tooDeep _⟩
  | succ room inductionHypothesis =>
      exact ⟨fun power => (mirrors_expressionAt inductionHypothesis power).deeper,
        (mirrors_blockAt inductionHypothesis).deeper,
        (mirrors_conditionalAt inductionHypothesis).deeper,
        (mirrors_statement inductionHypothesis).deeper⟩

end

end AgentScript.Production
