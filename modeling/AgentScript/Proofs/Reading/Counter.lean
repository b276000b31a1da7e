import AgentScript.Proofs.Reading.Course.Productions

/-!
Contract: the levels that productions are read at, against the counter of nested forms in the state.

Owns:
- levels at which every nested form looks at the counter when it is entered, and fails where it
  stands at the greatest number;
- that these levels and the levels built for the room that is left read the same, wherever the
  counter stands.

The two differ where a level is not the one that the counter stands for. Hence productions are
compared on the states with one number of nested forms only; each of them ends with the number it
starts with.
-/

set_option autoImplicit false

namespace AgentScript

/-- What can be read one level further in, where each form looks at the counter when it is entered.
There are so many of these levels, and then one that nothing is known about. -/
def Level.counted (bottom : Level) : Nat → Level
  | 0 => bottom
  | depth + 1 =>
      let inner := counted bottom depth
      { expression := fun power => Production.nested (Production.expressionAt inner power)
        block := Production.nested (Production.blockAt inner)
        conditional := Production.nested (Production.conditionalAt inner)
        statement := Production.nested (Production.statement inner) }

namespace Production

variable {α β : Type} {nesting : Nat}

/-- Two productions do the same with every state whose counter stands at a given number, and leave it
there. -/
def AgreeAt (nesting : Nat) (left right : Production α) : Prop :=
  ∀ state : State, state.nesting = nesting →
    left state = right state ∧ (final (left state)).nesting = nesting

theorem Proceeds.agreeAt {production : Production α} (proceeds : production.Proceeds) :
    AgreeAt nesting production production :=
  fun state stands => ⟨rfl, (proceeds state).nesting_eq.trans stands⟩

theorem agreeAt_pure (value : α) : AgreeAt nesting (pure value) (pure value) :=
  (proceeds_pure value).agreeAt

theorem agreeAt_take : AgreeAt nesting take take := proceeds_take.agreeAt

theorem agreeAt_get : AgreeAt nesting (get : Production State) get := proceeds_get.agreeAt

theorem agreeAt_currentKind : AgreeAt nesting currentKind currentKind :=
  proceeds_currentKind.agreeAt

theorem agreeAt_expect (kind : Kind) : AgreeAt nesting (expect kind) (expect kind) :=
  (proceeds_expect kind).agreeAt

theorem agreeAt_expectAs (kind : Kind) (expected : String) :
    AgreeAt nesting (expectAs kind expected) (expectAs kind expected) :=
  (proceeds_expectAs kind expected).agreeAt

theorem AgreeAt.bind {left right : Production α} {next other : α → Production β}
    (first : AgreeAt nesting left right) (second : ∀ value, AgreeAt nesting (next value) (other value)) :
    AgreeAt nesting (left >>= next) (right >>= other) := by
  intro state stands
  obtain ⟨same, kept⟩ := first state stands
  cases result : left state with
  | ok value middle =>
      rw [result] at same kept
      rw [bind_run_of_ok result, bind_run_of_ok same.symm]
      exact second value middle kept
  | error diagnostic failed =>
      rw [result] at same kept
      rw [bind_run_of_error result, bind_run_of_error same.symm]
      exact ⟨rfl, kept⟩

theorem AgreeAt.ite {condition : Prop} [Decidable condition] {left right other another : Production α}
    (yes : AgreeAt nesting left right) (no : AgreeAt nesting other another) :
    AgreeAt nesting (if condition then left else other) (if condition then right else another) := by
  split
  · exact yes
  · exact no

theorem AgreeAt.after? {left right : Production α} (agree : AgreeAt nesting left right) (kind : Kind) :
    AgreeAt nesting (after? kind left) (after? kind right) :=
  agreeAt_currentKind.bind fun _ =>
    .ite (agreeAt_take.bind fun _ => agree.bind fun _ => agreeAt_pure _) (agreeAt_pure _)

theorem AgreeAt.iterateWhile {left right : α → Production α}
    (agree : ∀ value, AgreeAt nesting (left value) (right value)) (continues : State → Bool)
    (value : α) : AgreeAt nesting (iterateWhile continues left value)
      (iterateWhile continues right value) := by
  have within (bound : List Lexed) : ∀ value, AgreeAt nesting
      (iterateWithin continues left bound value) (iterateWithin continues right bound value) := by
    induction bound with
    | nil => exact agreeAt_pure
    | cons _ bound inductionHypothesis =>
        exact fun value => agreeAt_get.bind fun _ =>
          .ite ((agree value).bind inductionHypothesis) (agreeAt_pure value)
  exact agreeAt_get.bind fun state => within (state.ending :: state.upcoming) value

theorem AgreeAt.manyWhile {left right : Production α} (agree : AgreeAt nesting left right)
    (continues : State → Bool) :
    AgreeAt nesting (manyWhile continues left) (manyWhile continues right) := by
  have within (bound : List Lexed) :
      AgreeAt nesting (manyWithin continues left bound) (manyWithin continues right bound) := by
    induction bound with
    | nil => exact agreeAt_pure []
    | cons _ bound inductionHypothesis =>
        exact agreeAt_get.bind fun _ =>
          .ite (agree.bind fun _ => inductionHypothesis.bind fun _ => agreeAt_pure _)
            (agreeAt_pure [])
  exact agreeAt_get.bind fun state => within (state.ending :: state.upcoming)

theorem AgreeAt.listOf {left right : Production α} (agree : AgreeAt nesting left right)
    (listing : Listing) : AgreeAt nesting (listOf listing left) (listOf listing right) :=
  (AgreeAt.manyWhile
      (agree.bind fun _ => (proceeds_endItem listing).agreeAt.bind fun _ => agreeAt_pure _) _).bind
    fun _ => (agreeAt_expect listing.closing).bind fun _ => agreeAt_pure _

theorem AgreeAt.deeper {left right : Production α} (agree : AgreeAt (nesting + 1) left right) :
    AgreeAt nesting (deeper left) (deeper right) := by
  rintro state rfl
  obtain ⟨same, kept⟩ := agree { state with nesting := state.nesting + 1 } rfl
  unfold Production.deeper
  rw [← same]
  cases result : left { state with nesting := state.nesting + 1 } with
  | ok value inside =>
      rw [result] at kept
      exact ⟨rfl, congrArg (· - 1) kept⟩
  | error diagnostic inside =>
      rw [result] at kept
      exact ⟨rfl, congrArg (· - 1) kept⟩

/-! ## Nested forms -/

/-- Where the counter leaves room, a form that looks at it is read like one that does not. -/
theorem AgreeAt.nested {left right : Production α} (fits : nesting < maxNesting)
    (agree : AgreeAt (nesting + 1) left right) :
    AgreeAt nesting (nested left) (Production.deeper right) := by
  rintro state rfl
  rw [Production.nested, if_pos fits]
  exact agree.deeper state rfl

/-- Where the counter leaves none, it fails. -/
theorem agreeAt_nested_tooDeep (full : maxNesting ≤ nesting) (production : Production α) :
    AgreeAt nesting (nested production) tooDeep := by
  rintro state rfl
  rw [Production.nested, if_neg (Nat.not_lt.2 full)]
  exact proceeds_tooDeep.agreeAt state rfl

/-! ## The forms, one level further in -/

/-- What is read one level further in does the same. -/
structure LevelAgreeAt (nesting : Nat) (left right : Level) : Prop where
  expression : ∀ power, AgreeAt nesting (left.expression power) (right.expression power)
  block : AgreeAt nesting left.block right.block
  conditional : AgreeAt nesting left.conditional right.conditional
  statement : AgreeAt nesting left.statement right.statement

section

variable {left right : Level} (agree : LevelAgreeAt nesting left right)
include agree

theorem agreeAt_unary : AgreeAt nesting (unary left) (unary right) :=
  agreeAt_take.bind fun _ => (agree.expression _).bind fun _ => agreeAt_pure _

theorem agreeAt_grouping : AgreeAt nesting (grouping left) (grouping right) :=
  (agreeAt_expect _).bind fun _ => (agree.expression _).bind fun _ =>
    (agreeAt_expect _).bind fun _ => agreeAt_pure _

theorem agreeAt_expressionList (closing : Kind) :
    AgreeAt nesting (expressionList left closing) (expressionList right closing) :=
  (agree.expression _).listOf _

theorem agreeAt_arrayLiteral : AgreeAt nesting (arrayLiteral left) (arrayLiteral right) :=
  agreeAt_take.bind fun _ => (agreeAt_expressionList agree _).bind fun _ => agreeAt_pure _

theorem agreeAt_keyed {key : Production String} (proceedsKey : key.Proceeds) :
    AgreeAt nesting (keyed left key) (keyed right key) :=
  proceedsKey.agreeAt.bind fun _ => (agreeAt_expect _).bind fun _ =>
    (agree.expression _).bind fun _ => agreeAt_pure _

theorem agreeAt_objectLiteral : AgreeAt nesting (objectLiteral left) (objectLiteral right) :=
  agreeAt_take.bind fun _ =>
    ((agreeAt_keyed agree proceeds_objectKey).listOf _).bind fun _ => agreeAt_pure _

theorem agreeAt_binary (operand : Expr) (power : BindingPower) :
    AgreeAt nesting (binary left operand power) (binary right operand power) :=
  agreeAt_take.bind fun _ => (agree.expression _).bind fun _ => agreeAt_pure _

theorem agreeAt_pipe (operand : Expr) (power : BindingPower) :
    AgreeAt nesting (pipe left operand power) (pipe right operand power) :=
  agreeAt_take.bind fun _ => (agree.expression _).bind fun _ => agreeAt_pure _

theorem agreeAt_call (function : Expr) :
    AgreeAt nesting (call left function) (call right function) :=
  agreeAt_take.bind fun _ => (agreeAt_expressionList agree _).bind fun _ => agreeAt_pure _

theorem agreeAt_index (object : Expr) :
    AgreeAt nesting (index left object) (index right object) :=
  agreeAt_take.bind fun _ => (agree.expression _).bind fun _ =>
    (agreeAt_expect _).bind fun _ => agreeAt_pure _

theorem agreeAt_operand : AgreeAt nesting (operand left) (operand right) := by
  refine agreeAt_currentKind.bind fun kind => ?_
  split
  · exact proceeds_primary.agreeAt
  · exact agreeAt_unary agree
  · exact agreeAt_grouping agree
  · exact agreeAt_arrayLiteral agree
  · exact agreeAt_objectLiteral agree
  · exact agreeAt_get.bind fun _ => (proceeds_failHere _).agreeAt

theorem agreeAt_continuation (operand : Expr) :
    AgreeAt nesting (continuation left operand) (continuation right operand) := by
  refine agreeAt_get.bind fun state => ?_
  split
  · exact agreeAt_pipe agree _ _
  · exact agreeAt_binary agree _ _
  · exact agreeAt_call agree _
  · exact (proceeds_member _).agreeAt
  · exact agreeAt_index agree _
  · exact agreeAt_pure _

theorem agreeAt_expressionAt (power : BindingPower) :
    AgreeAt nesting (expressionAt left power) (expressionAt right power) :=
  (agreeAt_operand agree).bind fun _ => .iterateWhile (agreeAt_continuation agree) _ _

theorem agreeAt_configBody : AgreeAt nesting (configBody left) (configBody right) :=
  (agreeAt_expect _).bind fun _ =>
    ((agreeAt_keyed agree proceeds_configKey).listOf _).bind fun _ => agreeAt_pure _

theorem agreeAt_configDeclaration :
    AgreeAt nesting (configDeclaration left) (configDeclaration right) :=
  agreeAt_take.bind fun _ => (agreeAt_expectAs _ _).bind fun _ =>
    (agreeAt_configBody agree).bind fun _ => agreeAt_pure _

theorem agreeAt_toolDeclaration : AgreeAt nesting (toolDeclaration left) (toolDeclaration right) :=
  agreeAt_take.bind fun _ => (agreeAt_expectAs _ _).bind fun _ => (agreeAt_expect _).bind fun _ =>
    (proceeds_parameter.listOf _).agreeAt.bind fun _ => proceeds_declaredType?.agreeAt.bind fun _ =>
      agree.block.bind fun _ => agreeAt_pure _

theorem agreeAt_exportDeclaration :
    AgreeAt nesting (exportDeclaration left) (exportDeclaration right) :=
  agreeAt_take.bind fun _ => agreeAt_get.bind fun _ => agree.statement.bind fun _ =>
    .ite (agreeAt_pure _) (proceeds_throw _).agreeAt

theorem agreeAt_expressionStatement :
    AgreeAt nesting (expressionStatement left) (expressionStatement right) :=
  agreeAt_get.bind fun _ => (agree.expression _).bind fun _ => agreeAt_pure _

theorem agreeAt_assignment : AgreeAt nesting (assignment left) (assignment right) :=
  (agreeAt_expectAs _ _).bind fun _ => proceeds_declaredType?.agreeAt.bind fun _ =>
    (agreeAt_expect _).bind fun _ => (agree.expression _).bind fun _ => agreeAt_pure _

theorem agreeAt_condition : AgreeAt nesting (condition left) (condition right) :=
  (agreeAt_expect _).bind fun _ => (agree.expression _).bind fun _ =>
    (agreeAt_expect _).bind fun _ => agreeAt_pure _

theorem agreeAt_alternative : AgreeAt nesting (alternative left) (alternative right) :=
  agreeAt_currentKind.bind fun _ =>
    .ite agree.conditional (agree.block.bind fun _ => agreeAt_pure _)

theorem agreeAt_conditionalAt : AgreeAt nesting (conditionalAt left) (conditionalAt right) :=
  (agreeAt_expect _).bind fun _ => (agreeAt_condition agree).bind fun _ =>
    agree.block.bind fun _ =>
      ((agreeAt_alternative agree).after? _).bind fun _ => agreeAt_pure _

theorem agreeAt_whileLoop : AgreeAt nesting (whileLoop left) (whileLoop right) :=
  agreeAt_take.bind fun _ => (agreeAt_condition agree).bind fun _ =>
    agree.block.bind fun _ => agreeAt_pure _

theorem agreeAt_forOf : AgreeAt nesting (forOf left) (forOf right) :=
  agreeAt_take.bind fun _ => (agreeAt_expect _).bind fun _ => (agreeAt_expectAs _ _).bind fun _ =>
    (agreeAt_expect _).bind fun _ => (agree.expression _).bind fun _ =>
      (agreeAt_expect _).bind fun _ => agree.block.bind fun _ => agreeAt_pure _

theorem agreeAt_returnValue : AgreeAt nesting (returnValue left) (returnValue right) :=
  agreeAt_take.bind fun _ => agreeAt_get.bind fun _ =>
    .ite (agreeAt_pure _) ((agree.expression _).bind fun _ => agreeAt_pure _)

theorem agreeAt_throwValue : AgreeAt nesting (throwValue left) (throwValue right) :=
  agreeAt_take.bind fun _ => agreeAt_get.bind fun _ =>
    .ite (proceeds_throw _).agreeAt ((agree.expression _).bind fun _ => agreeAt_pure _)

theorem agreeAt_handler : AgreeAt nesting (handler left) (handler right) :=
  (agreeAt_expect _).bind fun _ => (agreeAt_expectAs _ _).bind fun _ =>
    (agreeAt_expect _).bind fun _ => agree.block.bind fun _ => agreeAt_pure _

theorem agreeAt_attempt : AgreeAt nesting (attempt left) (attempt right) :=
  agreeAt_take.bind fun _ => agree.block.bind fun _ =>
    ((agreeAt_handler agree).after? _).bind fun _ => (agree.block.after? _).bind fun _ =>
      .ite (proceeds_throw _).agreeAt (agreeAt_pure _)

theorem agreeAt_statementOf (form : StatementForm) :
    AgreeAt nesting (statementOf left form) (statementOf right form) := by
  cases form with
  | config => exact agreeAt_configDeclaration agree
  | tool => exact agreeAt_toolDeclaration agree
  | importNames => exact proceeds_importDeclaration.agreeAt
  | exported => exact agreeAt_exportDeclaration agree
  | conditional => exact agree.conditional
  | whileLoop => exact agreeAt_whileLoop agree
  | forOf => exact agreeAt_forOf agree
  | breakLoop => exact agreeAt_take.bind fun _ => agreeAt_pure _
  | continueLoop => exact agreeAt_take.bind fun _ => agreeAt_pure _
  | returnValue => exact agreeAt_returnValue agree
  | throwValue => exact agreeAt_throwValue agree
  | attempt => exact agreeAt_attempt agree
  | reserved => exact agreeAt_take.bind fun _ => (proceeds_throw _).agreeAt

theorem agreeAt_statement : AgreeAt nesting (statement left) (statement right) := by
  refine agreeAt_get.bind fun state => ?_
  split
  · exact agreeAt_statementOf agree _
  · exact .ite (agreeAt_assignment agree) (agreeAt_expressionStatement agree)

end

/-- Statements that are read alike make the same list, whatever is reported and skipped between
them. -/
theorem AgreeAt.statementsWithin {left right : Production Stmt} (agree : AgreeAt nesting left right)
    (inBlock : Bool) (bound : List Lexed) {state : State} (stands : state.nesting = nesting) :
    statementsWithin inBlock left bound state = statementsWithin inBlock right bound state ∧
      (statementsWithin inBlock left bound state).2.nesting = nesting := by
  induction bound generalizing state with
  | nil => exact ⟨rfl, stands⟩
  | cons _ bound inductionHypothesis =>
      obtain ⟨same, kept⟩ := agree state stands
      unfold Production.statementsWithin
      rw [← same]
      split_ifs
      · exact ⟨rfl, stands⟩
      · have course := ((State.Reaches.refl state).report
          (state.faultHere .semicolonSeparator)).advance
        exact inductionHypothesis (course.nesting_eq.trans stands)
      · cases result : left state with
        | ok first after =>
            rw [result] at kept
            have course := State.Reaches.checkSeparated inBlock after
            obtain ⟨sameRest, keptRest⟩ := inductionHypothesis (course.nesting_eq.trans kept)
            exact ⟨by simp only [sameRest], keptRest⟩
        | error diagnostic failed =>
            rw [result] at kept
            have course := State.Reaches.recover state (failed.report_sink_ne_empty diagnostic)
            exact inductionHypothesis (course.nesting_eq.trans kept)

theorem AgreeAt.statements {left right : Production Stmt} (agree : AgreeAt nesting left right)
    (inBlock : Bool) : AgreeAt nesting (statements inBlock left) (statements inBlock right) := by
  intro state stands
  obtain ⟨same, kept⟩ := agree.statementsWithin inBlock state.upcoming stands
  exact ⟨congrArg (fun read : List Stmt × State => EStateM.Result.ok read.1 read.2) same, kept⟩

theorem agreeAt_blockAt {left right : Level} (agree : LevelAgreeAt nesting left right) :
    AgreeAt nesting (blockAt left) (blockAt right) :=
  (agreeAt_expect _).bind fun _ => ((agreeAt_statement agree).statements true).bind fun _ =>
    (agreeAt_expect _).bind fun _ => agreeAt_pure _

/-! ## The levels -/

/-- The counter is greatest where no room is left. What is inside all of the levels that look at the
counter is never reached, as long as there are more of them than there is room. -/
theorem levelAgreeAt_withRoom (bottom : Level) {room depth : Nat}
    (stands : nesting + room = maxNesting) (enough : room < depth) :
    LevelAgreeAt nesting (Level.counted bottom depth) (Level.withRoom room) := by
  obtain ⟨depth, rfl⟩ := Nat.exists_eq_add_of_lt enough
  induction room generalizing nesting with
  | zero =>
      have full : maxNesting ≤ nesting := by omega
      exact ⟨fun _ => agreeAt_nested_tooDeep full _, agreeAt_nested_tooDeep full _,
        agreeAt_nested_tooDeep full _, agreeAt_nested_tooDeep full _⟩
  | succ room inductionHypothesis =>
      have fits : nesting < maxNesting := by omega
      have inner : LevelAgreeAt (nesting + 1) (Level.counted bottom (room + depth + 1))
        (Level.withRoom room) := inductionHypothesis (by omega) (by omega)
      have levels : room + 1 + depth = room + depth + 1 := by omega
      rw [levels]
      exact ⟨fun power => (agreeAt_expressionAt inner power).nested fits,
        (agreeAt_blockAt inner).nested fits, (agreeAt_conditionalAt inner).nested fits,
        (agreeAt_statement inner).nested fits⟩

end Production

/-- Wherever the counter stands, a program is read the same if every nested form looks at it. -/
theorem State.readProgram_eq_counted (bottom : Level) {state : State}
    (fits : state.nesting ≤ maxNesting) :
    state.readProgram =
      let (statements, final) := Production.statementsWithin false
        (Production.statement (Level.counted bottom (maxNesting + 1))) state.upcoming state
      (⟨statements⟩, final) := by
  have agree := Production.levelAgreeAt_withRoom bottom (Nat.add_sub_of_le fits)
    (Nat.lt_succ_of_le (Nat.sub_le maxNesting state.nesting))
  obtain ⟨same, _⟩ := (Production.agreeAt_statement agree).statementsWithin false state.upcoming rfl
  rw [same]
  rfl

/-- A script is read the same if every nested form looks at the counter. -/
theorem parse_eq_counted (bottom : Level) (source : String) :
    parse source =
      let start := State.ofSource source
      let (statements, final) := Production.statementsWithin false
        (Production.statement (Level.counted bottom (maxNesting + 1))) start.upcoming start
      (⟨statements⟩, final.sink) := by
  rw [parse, State.readProgram_eq_counted bottom (Nat.zero_le maxNesting)]

end AgentScript
