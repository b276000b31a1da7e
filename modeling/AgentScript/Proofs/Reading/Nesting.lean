import AgentScript.Proofs.Reading.WellFormed
import AgentScript.Proofs.Tree.Nodes

/-!
Contract: no tree that reading gives is nested more deeply than reading may go.

Owns:
- the levels that the value of a production takes, given the levels that are left for it, one
  statement for each form of the grammar and from them the statement for every level of nesting;
- the bound on every way down from a statement of a script, whatever else is wrong with the script.

The level that reading stands at is not counted along the tree: an operator is applied to a left
side that was read before it, perhaps in parentheses and hence further in. Therefore the statement is
about the levels left, and a left side takes no more of them than the whole.
-/

set_option autoImplicit false

namespace AgentScript

namespace Production

/-- What is read one level further in takes no more levels than are left. An exported statement
leaves one level to the export. -/
structure LevelFits (room : Nat) (inner : Level) : Prop where
  expression : ∀ power, (inner.expression power).Builds fun value => value.levels 0 ≤ room
  block : inner.block.Builds fun body => body.levels 0 ≤ room
  conditional : inner.conditional.Builds fun statement => statement.levels 0 ≤ room
  statement : inner.statement.Builds fun statement => statement.levels 0 + 1 ≤ room

/-! ## Expressions -/

theorem levels_of_tokenOperand? {token : Token} {value : Expr}
    (stands : tokenOperand? token = some value) : value.levels 0 = 1 := by
  unfold tokenOperand? wordOperand at stands
  split at stands
  · obtain ⟨number, _, rfl⟩ := Option.map_eq_some_iff.1 stands
    rfl
  · cases stands
    rfl
  · cases stands
    rfl
  · split_ifs at stands <;> cases stands <;> rfl

section

variable {room : Nat} {inner : Level} (proceeds : LevelProceeds inner) (fits : LevelFits room inner)

include proceeds fits in
theorem expressionList_fits (closing : Kind) :
    (expressionList inner closing).Builds fun values => levelsOfExprs 0 values ≤ room := by
  intro state after values scanned read
  exact levelsOfExprs_le_iff.2
    ((fits.expression .default).listOf (proceeds.expression .default) _ _ _ _ scanned read)

include fits in
theorem grouping_fits : (grouping inner).Builds fun value => value.levels 0 ≤ room := by
  intro state after value scanned read
  obtain ⟨_, before, readValue, _⟩ := grouping_ok_iff.1 read
  exact fits.expression .default _ before value scanned.advance readValue

include proceeds fits in
/-- Keys with their values, of which those that are replaced by others take no levels. -/
theorem entries_fit {key : Production String} (proceedsKey : key.Proceeds) (listing : Listing)
    {state after : State} {pairs : List (String × Expr)} (scanned : state.Scanned)
    (read : listOf listing (keyed inner key) state = .ok pairs after) :
    levelsOfEntries 0 (Entries.ofPairs pairs) ≤ room := by
  have keyedFits : (keyed inner key).Builds fun pair => pair.2.levels 0 ≤ room := by
    intro state after pair scanned read
    obtain ⟨before, readKey, _, readValue⟩ := keyed_ok_iff.1 read
    exact fits.expression .default _ _ _
      (scanned.of_reaches (proceedsKey.of_ok readKey)).advance readValue
  have fit := keyedFits.listOf (proceeds_keyed proceeds proceedsKey) _ _ _ _ scanned read
  exact levelsOfEntries_le_iff.2 fun entry member => fit entry (Entries.mem_of_mem_ofPairs member)

include proceeds fits in
theorem operand_fits : (operand inner).Builds fun value => value.levels 0 ≤ room + 1 := by
  intro state after value scanned read
  rw [operand_run] at read
  split at read
  · obtain ⟨stands, _⟩ := primary_ok_iff.1 read
    rw [levels_of_tokenOperand? stands]
    omega
  · obtain ⟨operand, readOperand, rfl⟩ := unary_ok_iff.1 read
    exact Nat.succ_le_succ (fits.expression _ _ _ _ scanned.advance readOperand)
  · exact Nat.le_succ_of_le (grouping_fits fits state after value scanned read)
  · obtain ⟨elements, readElements, rfl⟩ := arrayLiteral_ok_iff.1 read
    exact Nat.succ_le_succ
      (expressionList_fits proceeds fits _ _ _ _ scanned.advance readElements)
  · obtain ⟨pairs, readPairs, rfl⟩ := objectLiteral_ok_iff.1 read
    exact Nat.succ_le_succ
      (entries_fit proceeds fits proceeds_objectKey _ scanned.advance readPairs)
  · cases read

include proceeds fits in
/-- What continues an expression takes its levels beside those of the left side, not on top of them.
-/
theorem continuation_fits {left : Expr} (leftFits : left.levels 0 ≤ room + 1) :
    (continuation inner left).Builds fun value => value.levels 0 ≤ room + 1 := by
  intro state after value scanned read
  have onward := scanned.advance
  rw [continuation_run] at read
  split at read
  · obtain ⟨right, readRight, rfl⟩ := pipe_ok_iff.1 read
    exact Nat.max_le.2 ⟨leftFits, Nat.succ_le_succ (fits.expression _ _ _ _ onward readRight)⟩
  · obtain ⟨right, readRight, rfl⟩ := binary_ok_iff.1 read
    exact Nat.max_le.2 ⟨leftFits, Nat.succ_le_succ (fits.expression _ _ _ _ onward readRight)⟩
  · obtain ⟨arguments, readArguments, rfl⟩ := call_ok_iff.1 read
    have argumentsFit := expressionList_fits proceeds fits _ _ _ _ onward readArguments
    rw [Expr.levels]
    exact Nat.max_le.2 ⟨leftFits, Nat.succ_le_succ argumentsFit⟩
  · obtain ⟨_, rfl, _⟩ := member_ok_iff.1 read
    exact leftFits
  · obtain ⟨position, before, readPosition, _, rfl, _⟩ := index_ok_iff.1 read
    exact Nat.max_le.2 ⟨leftFits, Nat.succ_le_succ (fits.expression _ _ _ _ onward readPosition)⟩
  · cases read
    exact leftFits

include proceeds fits in
theorem expressionAt_fits (power : BindingPower) :
    (expressionAt inner power).Builds fun value => value.levels 0 ≤ room + 1 := by
  intro state after value scanned read
  obtain ⟨left, middle, readLeft, readRest⟩ := expressionAt_ok_iff.1 read
  exact builds_iterateWhile (proceeds_continuation proceeds)
    (fun _ => continuation_fits proceeds fits)
    (operand_fits proceeds fits state middle left scanned readLeft) middle after value
    (scanned.of_reaches ((proceeds_operand proceeds).of_ok readLeft)) readRest

/-! ## Statements -/

include fits in
theorem alternative_fits :
    (alternative inner).Builds fun statement => statement.levels 0 ≤ room := by
  intro state after statement scanned read
  obtain ⟨_, readConditional⟩ | ⟨_, body, readBody, rfl⟩ := alternative_ok_iff.1 read
  · exact fits.conditional _ _ _ scanned readConditional
  · rw [Stmt.levels]
    exact fits.block _ _ _ scanned readBody

include proceeds fits in
theorem conditionalAt_fits :
    (conditionalAt inner).Builds fun statement => statement.levels 0 ≤ room + 1 := by
  intro state after statement scanned read
  obtain ⟨_, value, afterCondition, readCondition, consequence, afterBlock, readBlock, alternative?,
    readAlternative, rfl⟩ := conditionalAt_ok_iff.1 read
  have afterScanned := scanned.advance.of_reaches
    ((proceeds_condition proceeds).of_ok readCondition)
  have blockScanned := afterScanned.of_reaches (proceeds.block.of_ok readBlock)
  have valueFits := grouping_fits fits _ _ _ scanned.advance readCondition
  have blockFits := fits.block _ _ _ afterScanned readBlock
  have alternativeFits := (alternative_fits fits).after? _ _ _ _ blockScanned readAlternative
  cases alternative? with
  | none =>
      rw [Stmt.levels]
      exact Nat.succ_le_succ (Nat.max_le.2 ⟨valueFits, blockFits⟩)
  | some alternative =>
      have oneFits := alternativeFits alternative rfl
      rw [Stmt.levels]
      exact Nat.succ_le_succ (Nat.max_le.2 ⟨Nat.max_le.2 ⟨valueFits, blockFits⟩, oneFits⟩)

include fits in
theorem handler_fits : (handler inner).Builds fun read => read.2.levels 0 ≤ room := by
  intro state after read scanned readHandler
  obtain ⟨_, _, _, body, readBody, rfl⟩ := handler_ok_iff.1 readHandler
  exact fits.block _ _ _ scanned.advance.advance.advance readBody

include proceeds fits in
theorem attempt_fits : (attempt inner).Builds fun statement => statement.levels 0 ≤ room := by
  intro state after statement scanned read
  obtain ⟨body, afterBody, readBody, handler?, afterHandler, readHandler, finalizer?, readFinalizer,
    _, rfl⟩ := attempt_ok_iff.1 read
  have handlerScanned := scanned.advance.of_reaches (proceeds.block.of_ok readBody)
  have finalizerScanned := handlerScanned.of_reaches
    (((proceeds_handler proceeds).after? _).of_ok readHandler)
  have handlerFits := (handler_fits fits).after? _ _ _ _ handlerScanned readHandler
  have finalizerFits := fits.block.after? _ _ _ _ finalizerScanned readFinalizer
  rw [Stmt.levels]
  refine Nat.max_le.2 ⟨fits.block _ _ _ scanned.advance readBody, Nat.max_le.2 ⟨?_, ?_⟩⟩
  · cases handler? with
    | none => exact Nat.zero_le _
    | some clause => exact handlerFits clause rfl
  · cases finalizer? with
    | none => exact Nat.zero_le _
    | some block => exact finalizerFits block rfl

include proceeds fits in
theorem statementOf_fits (form : StatementForm) :
    (statementOf inner form).Builds fun statement => statement.levels 0 ≤ room := by
  intro state after statement scanned read
  have onward := scanned.advance
  cases form with
  | config =>
      obtain ⟨_, entries, readBody, rfl⟩ := configDeclaration_ok_iff.1 read
      obtain ⟨_, pairs, readPairs, rfl⟩ := configBody_ok_iff.1 readBody
      exact entries_fit proceeds fits proceeds_configKey _ onward.advance.advance readPairs
  | tool =>
      obtain ⟨_, _, parameters, afterParameters, readParameters, type?, afterType, readType, body,
        readBody, rfl⟩ := toolDeclaration_ok_iff.1 read
      have parametersScanned := onward.advance.advance.of_reaches
        ((proceeds_parameter.listOf _).of_ok readParameters)
      exact fits.block _ _ _
        (parametersScanned.of_reaches (proceeds_declaredType?.of_ok readType)) readBody
  | importNames =>
      obtain ⟨_, _, _, _, _, rfl, _⟩ := importDeclaration_ok_iff.1 read
      exact Nat.zero_le _
  | exported =>
      obtain ⟨exported, readStatement, _, rfl⟩ := exportDeclaration_ok_iff.1 read
      exact fits.statement _ _ _ onward readStatement
  | conditional => exact fits.conditional _ _ _ scanned read
  | whileLoop =>
      obtain ⟨value, before, readCondition, body, readBody, rfl⟩ := whileLoop_ok_iff.1 read
      have bodyScanned := onward.of_reaches ((proceeds_condition proceeds).of_ok readCondition)
      exact Nat.max_le.2 ⟨grouping_fits fits _ _ _ onward readCondition,
        fits.block _ _ _ bodyScanned readBody⟩
  | forOf =>
      obtain ⟨_, _, _, value, before, readIterable, _, body, readBody, rfl⟩ := forOf_ok_iff.1 read
      have iterableScanned := onward.advance.advance.advance
      have bodyScanned := (iterableScanned.of_reaches
        ((proceeds.expression _).of_ok readIterable)).advance
      exact Nat.max_le.2 ⟨fits.expression _ _ _ _ iterableScanned readIterable,
        fits.block _ _ _ bodyScanned readBody⟩
  | breakLoop =>
      cases read
      exact Nat.zero_le _
  | continueLoop =>
      cases read
      exact Nat.zero_le _
  | returnValue =>
      obtain ⟨_, rfl, _⟩ | ⟨_, value, readValue, rfl⟩ := returnValue_ok_iff.1 read
      · exact Nat.zero_le _
      · exact fits.expression _ _ _ _ onward readValue
  | throwValue =>
      obtain ⟨_, value, readValue, rfl⟩ := throwValue_ok_iff.1 read
      exact fits.expression _ _ _ _ onward readValue
  | attempt => exact attempt_fits proceeds fits state after statement scanned read
  | reserved => cases read

include proceeds fits in
theorem statement_fits :
    (Production.statement inner).Builds fun statement => statement.levels 0 ≤ room := by
  intro state after statement scanned read
  rw [statement_run] at read
  split at read
  · exact statementOf_fits proceeds fits _ state after statement scanned read
  · split at read
    · obtain ⟨_, type?, before, readType, _, value, readValue, rfl⟩ := assignment_ok_iff.1 read
      have valueScanned := (scanned.advance.of_reaches
        (proceeds_declaredType?.of_ok readType)).advance
      exact fits.expression _ _ _ _ valueScanned readValue
    · obtain ⟨value, readValue, rfl⟩ := expressionStatement_ok_iff.1 read
      exact fits.expression _ _ _ _ scanned readValue

include proceeds fits in
theorem blockAt_fits : (blockAt inner).Builds fun body => body.levels 0 ≤ room + 1 := by
  intro state after body scanned read
  obtain ⟨_, list, before, readList, _, rfl, _⟩ := blockAt_ok_iff.1 read
  have fit := statementsWithin_builds (proceeds_statement proceeds) (statement_fits proceeds fits)
    true state.advance.upcoming state.advance scanned.advance
  rw [readList] at fit
  exact Nat.succ_le_succ (levelsOfStmts_le_iff.2 fit)

end

/-- With so many levels left, what is read takes no more of them. -/
theorem levelFits_withRoom (room : Nat) : LevelFits room (Level.withRoom room) := by
  induction room with
  | zero => exact ⟨fun _ => builds_tooDeep, builds_tooDeep, builds_tooDeep, builds_tooDeep⟩
  | succ room inductionHypothesis =>
      have proceeds := levelProceeds_withRoom room
      have statement : (Production.statement (Level.withRoom room)).Builds
          fun statement => statement.levels 0 + 1 ≤ room + 1 := fun _ _ _ scanned read =>
        Nat.succ_le_succ (statement_fits proceeds inductionHypothesis _ _ _ scanned read)
      exact ⟨fun power => (expressionAt_fits proceeds inductionHypothesis power).deeper,
        (blockAt_fits proceeds inductionHypothesis).deeper,
        (conditionalAt_fits proceeds inductionHypothesis).deeper, statement.deeper⟩

end Production

theorem parse_levels_le (source : String) : (parse source).1.levels 0 ≤ maxNesting :=
  levelsOfStmts_le_iff.2 (Production.statementsWithin_builds
    (Production.proceeds_statement_withRoom _)
    (Production.statement_fits (Production.levelProceeds_withRoom _)
      (Production.levelFits_withRoom (State.ofSource source).room))
    false (State.ofSource source).upcoming _ (State.scanned_ofSource source))

/-- However a script is written and whatever is wrong with it, no way down from a statement of it
enters more levels of nesting than there are. -/
theorem entered_le_maxNesting (source : String) {statement : Stmt}
    (member : statement ∈ (parse source).1.statements) {levels : Nat} {below : Node}
    (way : (Node.statement statement).Way levels below) :
    statement.entry + levels ≤ maxNesting := by
  have isChild : (statement.entry, Node.statement statement) ∈
      (Node.program (parse source).1).children := List.mem_map_of_mem member
  have bounded := (Node.Way.step isChild way).levels_le
  have fits : (Node.program (parse source).1).levels ≤ maxNesting := parse_levels_le source
  omega

/-- A conditional, its block, the value of an assignment and the operand of a sign: four levels. -/
theorem entered_le_maxNesting_operand :
    ∃ statement ∈ (parse "if (a) \x7b b = -c \x7d").1.statements,
      (Node.statement statement).Way 3 (.expression (.identifier ⟨.identifier, "c", ⟨1, 15⟩⟩)) ∧
        statement.entry + 3 = 4 ∧ statement.entry + 3 ≤ maxNesting := by
  let operand : Expr := .identifier ⟨.identifier, "c", ⟨1, 15⟩⟩
  let value : Expr := .unary ⟨.dash, "-", ⟨1, 14⟩⟩ operand
  let assignment : Stmt := .assignment ⟨.identifier, "b", ⟨1, 10⟩⟩ none value
  let body : Block := .mk ⟨.openCurly, "\x7b", ⟨1, 8⟩⟩ [assignment]
  let conditional : Stmt := .conditional ⟨.keyword .ifKw, "if", ⟨1, 1⟩⟩
    (.identifier ⟨.identifier, "a", ⟨1, 5⟩⟩) body none
  have member : conditional ∈ (parse "if (a) \x7b b = -c \x7d").1.statements := by
    have read : (parse "if (a) \x7b b = -c \x7d").1.statements = [conditional] := rfl
    rw [read]
    exact List.mem_cons_self
  have signed : (Node.expression value).Way 1 (.expression operand) := .step (.head _) (.here _)
  have assigned : (Node.statement assignment).Way 2 (.expression operand) := .step (.head _) signed
  have entered : (Node.block body).Way 2 (.expression operand) := .step (.head _) assigned
  have way : (Node.statement conditional).Way 3 (.expression operand) :=
    .step (.tail _ (.head _)) entered
  exact ⟨conditional, member, way, rfl, entered_le_maxNesting _ member way⟩

end AgentScript
