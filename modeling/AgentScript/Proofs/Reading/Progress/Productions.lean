import AgentScript.Proofs.Reading.Inversion
import AgentScript.Proofs.Reading.Progress

/-!
Contract: every form of the grammar passes at least one token when it is read.

Owns:
- lists up to a closing bracket as the items they hold;
- one statement for each form that is read in a round or at a level of nesting, and from them the
  statement for every level;
- lists of statements, free of the bound that the definition carries.
-/

set_option autoImplicit false

namespace AgentScript.Production

variable {α : Type}

/-! ## Lists -/

/-- An item of a list and what follows it. -/
def listItem (listing : Listing) (item : Production α) : Production α := do
  let value ← item
  endItem listing
  return value

theorem listOf_eq (listing : Listing) (item : Production α) :
    listOf listing item =
      (manyWhile (fun state => state.kind ≠ listing.closing) (listItem listing item) >>= fun items =>
        expect listing.closing >>= fun _ => pure items) :=
  rfl

theorem endItem_ok_iff {listing : Listing} {state after : State} :
    endItem listing state = .ok () after ↔
      (state.kind = .comma ∧ state.advance = after) ∨
        (state.kind ≠ .comma ∧ state = after ∧
          (state.kind = listing.closing ∨
            (listing.lineBreakSeparates = true ∧ state.onNewLine = true))) := by
  unfold endItem
  rw [get_bind, ite_run, ite_run, ite_run]
  by_cases comma : state.kind = .comma
  · simp [comma]
  · by_cases closing : state.kind = listing.closing
    · simp [closing ▸ comma, closing]
    · by_cases fresh : (listing.lineBreakSeparates && state.onNewLine) = true
      · simp [comma, closing, Bool.and_eq_true_iff.1 fresh]
      · have neither : ¬(listing.lineBreakSeparates = true ∧ state.onNewLine = true) := by
          simpa using fresh
        simp [comma, closing, fresh, neither]

theorem Proceeds.listItem {item : Production α} (proceeds : item.Proceeds) (listing : Listing) :
    (listItem listing item).Proceeds :=
  proceeds.bind fun _ => (proceeds_endItem listing).bind fun _ => proceeds_pure _

theorem Consumes.listItem {item : Production α} (consumes : item.Consumes) (listing : Listing) :
    (listItem listing item).Consumes :=
  consumes.bind fun _ => (proceeds_endItem listing).bind fun _ => proceeds_pure _

theorem Proceeds.listOf_consumes {item : Production α} (proceeds : item.Proceeds)
    {listing : Listing} (token : listing.closing ≠ .endOfInput) :
    Consumes (Production.listOf listing item) :=
  (Proceeds.manyWhile (proceeds.listItem listing) _).bind_consumes fun _ =>
    (consumes_expect token).bind fun _ => proceeds_pure _

/-- The items of a list that is read to its closing bracket, up to before that bracket. -/
inductive Listed (listing : Listing) (item : Production α) : State → List α → State → Prop where
  | nil {state : State} : state.kind = listing.closing → Listed listing item state [] state
  | cons {state middle next after : State} {first : α} {rest : List α} :
      state.kind ≠ listing.closing → item state = .ok first middle →
      endItem listing middle = .ok () next → Listed listing item next rest after →
      Listed listing item state (first :: rest) after

theorem Listed.kind_eq {listing : Listing} {item : Production α} {state after : State}
    {items : List α} (listed : Listed listing item state items after) :
    after.kind = listing.closing := by
  induction listed with
  | nil closing => exact closing
  | cons _ _ _ _ inductionHypothesis => exact inductionHypothesis

theorem listOf_ok_iff {listing : Listing} {item : Production α} (proceeds : item.Proceeds)
    (consumes : item.Consumes) {state after : State} (scanned : state.Scanned) {items : List α} :
    listOf listing item state = .ok items after ↔
      ∃ before, Listed listing item state items before ∧ before.advance = after := by
  rw [listOf_eq, bind_ok_iff]
  simp only [manyWhile_ok_iff (proceeds.listItem listing) (consumes.listItem listing) scanned,
    expect_bind_ok_iff, pure_run, EStateM.Result.ok.injEq]
  constructor
  · rintro ⟨items, before, repeated, closing, rfl, rfl⟩
    refine ⟨before, ?_, rfl⟩
    clear scanned
    induction repeated with
    | stop stops => exact .nil closing
    | item goesOn readItem _ inductionHypothesis =>
        obtain ⟨value, middle, read, readEnd⟩ := bind_ok_iff.1 readItem
        obtain ⟨_, next, ended, ⟨⟩⟩ := bind_ok_iff.1 readEnd
        exact .cons (by simpa using goesOn) read ended (inductionHypothesis closing)
  · rintro ⟨before, listed, rfl⟩
    refine ⟨items, before, ?_, listed.kind_eq, rfl, rfl⟩
    clear scanned
    induction listed with
    | nil closing => exact .stop (by simp [closing])
    | cons open? read ended _ inductionHypothesis =>
        exact .item (by simpa using open?)
          (bind_ok_iff.2 ⟨_, _, read, bind_ok_iff.2 ⟨_, _, ended, rfl⟩⟩) inductionHypothesis

/-! ## Types -/

theorem consumes_arraySuffix (element : TypeExpr) : (arraySuffix element).Consumes :=
  (consumes_expect (by decide)).bind fun _ => (proceeds_expect _).bind fun _ => proceeds_pure _

theorem consumes_typeName : typeName.Consumes := by
  intro state after type scanned read
  obtain ⟨names, _, rfl⟩ := typeName_ok_iff.1 read
  refine scanned.advance_lt fun ended => ?_
  rw [ended] at names
  cases names

theorem consumes_typeExpr (power : BindingPower) : (typeExpr power).Consumes :=
  consumes_typeName.bind fun _ => .iterateWhile proceeds_arraySuffix _ _

theorem consumes_parameter : parameter.Consumes :=
  (consumes_expectAs (by decide) _).bind fun _ => proceeds_declaredType?.bind fun _ =>
    proceeds_pure _

theorem proceeds_furtherName : furtherName.Proceeds :=
  proceeds_take.bind fun _ => proceeds_expectAs _ _

theorem consumes_furtherName : furtherName.Consumes :=
  proceeds_take.bind_consumes fun _ => consumes_expectAs (by decide) _

/-! ## Expressions -/

/-- What is read one level further in passes at least one token. -/
structure LevelConsumes (inner : Level) : Prop where
  expression : ∀ power, (inner.expression power).Consumes
  block : inner.block.Consumes
  conditional : inner.conditional.Consumes
  statement : inner.statement.Consumes

section

variable {inner : Level} (proceeds : LevelProceeds inner) (consumes : LevelConsumes inner)

include proceeds in
theorem consumes_keyed {key : Production String} (proceedsKey : key.Proceeds) :
    (keyed inner key).Consumes :=
  proceedsKey.bind_consumes fun _ => (consumes_expect (by decide)).bind fun _ =>
    (proceeds.expression _).bind fun _ => proceeds_pure _

include proceeds in
theorem consumes_grouping : (grouping inner).Consumes :=
  (consumes_expect (by decide)).bind fun _ => (proceeds.expression _).bind fun _ =>
    (proceeds_expect _).bind fun _ => proceeds_pure _

include proceeds consumes in
theorem consumes_operand : (operand inner).Consumes := by
  intro state after value scanned read
  rw [operand_run] at read
  split at read
  · next form =>
      obtain ⟨_, rfl⟩ := primary_ok_iff.1 read
      refine scanned.advance_lt fun ended => ?_
      rw [ended] at form
      cases form
  · exact (proceeds_take.bind_consumes fun _ => (consumes.expression _).bind fun _ =>
      proceeds_pure _) state after value scanned read
  · exact consumes_grouping proceeds state after value scanned read
  · exact (proceeds_take.bind_consumes fun _ =>
      ((proceeds.expression .default).listOf_consumes (by decide)).bind fun _ => proceeds_pure _)
      state after value scanned read
  · exact (proceeds_take.bind_consumes fun _ =>
      ((proceeds_keyed proceeds proceeds_objectKey).listOf_consumes (by decide)).bind fun _ =>
        proceeds_pure _) state after value scanned read
  · cases read

/-- What binds tighter than a power is a token that continues an expression. -/
theorem exists_infixForm? {power : BindingPower} {state : State} (goesOn : power < state.power) :
    ∃ form, state.kind.infixForm? = some form := by
  refine Option.isSome_iff_exists.1 ((Kind.infixForm?_isSome_iff state.kind).2 ?_)
  unfold State.power at goesOn
  split at goesOn
  · exact absurd goesOn (Nat.not_lt_zero _)
  · exact Nat.lt_of_le_of_lt (Nat.zero_le power.rank) goesOn

include proceeds in
/-- A round that continues an expression passes its operator at least. -/
theorem continuation_consumes (power : BindingPower) :
    RoundsConsume (fun state => power < state.power) (continuation inner) := by
  intro state after value next scanned goesOn read
  obtain ⟨form, found⟩ := exists_infixForm? (of_decide_eq_true goesOn)
  have token : state.kind ≠ .endOfInput := by
    intro ended
    rw [ended] at found
    cases found
  have passes := scanned.advance_lt token
  have onward (course : state.advance.Reaches after) :
      after.upcoming.length < state.upcoming.length :=
    Nat.lt_of_le_of_lt course.upcoming_length_le passes
  rw [continuation_run, found] at read
  cases form with
  | pipe =>
      obtain ⟨_, readRight, _⟩ := pipe_ok_iff.1 read
      exact onward ((proceeds.expression _).of_ok readRight)
  | binary =>
      obtain ⟨_, readRight, _⟩ := binary_ok_iff.1 read
      exact onward ((proceeds.expression _).of_ok readRight)
  | call =>
      obtain ⟨_, readArguments, _⟩ := call_ok_iff.1 read
      exact onward ((proceeds_expressionList proceeds _).of_ok readArguments)
  | member =>
      obtain ⟨_, _, rfl⟩ := member_ok_iff.1 read
      exact onward (.advance (.refl _))
  | index =>
      obtain ⟨_, _, readPosition, _, _, rfl⟩ := index_ok_iff.1 read
      exact onward (.advance ((proceeds.expression _).of_ok readPosition))

include proceeds consumes in
theorem consumes_expressionAt (power : BindingPower) : (expressionAt inner power).Consumes :=
  (consumes_operand proceeds consumes).bind fun _ =>
    .iterateWhile (proceeds_continuation proceeds) _ _

/-! ## Statements -/

include proceeds consumes in
theorem consumes_statementOf {form : StatementForm} {state after : State} {value : Stmt}
    (scanned : state.Scanned) (token : state.kind ≠ .endOfInput)
    (read : statementOf inner form state = .ok value after) :
    after.upcoming.length < state.upcoming.length := by
  have passes := scanned.advance_lt token
  have onward (course : state.advance.Reaches after) :
      after.upcoming.length < state.upcoming.length :=
    Nat.lt_of_le_of_lt course.upcoming_length_le passes
  cases form with
  | config =>
      obtain ⟨_, _, readBody, _⟩ := configDeclaration_ok_iff.1 read
      exact onward (.trans (.advance (.refl _))
        ((proceeds_configBody proceeds).of_ok readBody))
  | tool =>
      obtain ⟨_, _, _, _, readParameters, _, _, readType, _, readBody, _⟩ :=
        toolDeclaration_ok_iff.1 read
      exact onward (.trans (.advance (.advance (.refl _)))
        (.trans ((proceeds_parameter.listOf _).of_ok readParameters)
          (.trans (proceeds_declaredType?.of_ok readType) (proceeds.block.of_ok readBody))))
  | importNames =>
      obtain ⟨_, _, readNames, _, _, _, rfl⟩ := importDeclaration_ok_iff.1 read
      exact onward (.advance (.advance (proceeds_importedNames.of_ok readNames)))
  | exported =>
      obtain ⟨_, readStatement, _⟩ := exportDeclaration_ok_iff.1 read
      exact onward (proceeds.statement.of_ok readStatement)
  | conditional => exact consumes.conditional state after value scanned read
  | whileLoop =>
      obtain ⟨_, _, readCondition, _, readBody, _⟩ := whileLoop_ok_iff.1 read
      exact onward (.trans ((proceeds_condition proceeds).of_ok readCondition)
        (proceeds.block.of_ok readBody))
  | forOf =>
      obtain ⟨_, _, _, _, _, readIterable, _, _, readBody, _⟩ := forOf_ok_iff.1 read
      exact onward (.trans (.advance (.advance (.advance (.refl _))))
        (.trans ((proceeds.expression _).of_ok readIterable)
          (.trans (.advance (.refl _)) (proceeds.block.of_ok readBody))))
  | breakLoop =>
      cases read
      exact passes
  | continueLoop =>
      cases read
      exact passes
  | returnValue =>
      obtain ⟨_, _, rfl⟩ | ⟨_, _, readValue, _⟩ := returnValue_ok_iff.1 read
      · exact passes
      · exact onward ((proceeds.expression _).of_ok readValue)
  | throwValue =>
      obtain ⟨_, _, readValue, _⟩ := throwValue_ok_iff.1 read
      exact onward ((proceeds.expression _).of_ok readValue)
  | attempt =>
      obtain ⟨_, _, readBody, _, _, readHandler, _, readFinalizer, _⟩ := attempt_ok_iff.1 read
      exact onward (.trans (proceeds.block.of_ok readBody)
        (.trans (((proceeds_handler proceeds).after? _).of_ok readHandler)
          ((proceeds.block.after? _).of_ok readFinalizer)))
  | reserved => cases read

include proceeds consumes in
theorem consumes_statement : (Production.statement inner).Consumes := by
  intro state after value scanned read
  rw [statement_run] at read
  split at read
  · next form found =>
      refine consumes_statementOf proceeds consumes scanned (fun ended => ?_) read
      rw [ended] at found
      cases found
  · split at read
    · exact ((consumes_expectAs (by decide) _).bind fun _ => proceeds_declaredType?.bind fun _ =>
        (proceeds_expect _).bind fun _ => (proceeds.expression _).bind fun _ => proceeds_pure _)
        state after value scanned read
    · obtain ⟨_, readValue, _⟩ := expressionStatement_ok_iff.1 read
      exact consumes.expression _ state after _ scanned readValue

include proceeds in
theorem consumes_conditionalAt : (conditionalAt inner).Consumes :=
  (consumes_expect (by decide)).bind fun _ => (proceeds_condition proceeds).bind fun _ =>
    proceeds.block.bind fun _ =>
      ((proceeds_alternative proceeds).after? _).bind fun _ => proceeds_pure _

include proceeds in
theorem consumes_blockAt : (blockAt inner).Consumes :=
  (consumes_expect (by decide)).bind fun _ =>
    Proceeds.bind
      (fun state => State.Reaches.statementsWithin (proceeds_statement proceeds) true
        state.upcoming state)
      fun _ => (proceeds_expect _).bind fun _ => proceeds_pure _

end

/-- At every level of nesting, what is read passes at least one token. -/
theorem levelConsumes_withRoom (room : Nat) : LevelConsumes (Level.withRoom room) := by
  induction room with
  | zero => exact ⟨fun _ => consumes_tooDeep, consumes_tooDeep, consumes_tooDeep, consumes_tooDeep⟩
  | succ room inductionHypothesis =>
      have proceeds := levelProceeds_withRoom room
      exact ⟨fun power => (consumes_expressionAt proceeds inductionHypothesis power).deeper,
        (consumes_blockAt proceeds).deeper, (consumes_conditionalAt proceeds).deeper,
        (consumes_statement proceeds inductionHypothesis).deeper⟩

theorem proceeds_statement_withRoom (room : Nat) :
    (Production.statement (Level.withRoom room)).Proceeds :=
  proceeds_statement (levelProceeds_withRoom room)

theorem consumes_statement_withRoom (room : Nat) :
    (Production.statement (Level.withRoom room)).Consumes :=
  consumes_statement (levelProceeds_withRoom room) (levelConsumes_withRoom room)

/-! ## Lists of statements -/

section

variable {inBlock : Bool} {statement : Production Stmt}

theorem statementsWithin_of_ends {state : State} (ends : endsStatements inBlock state.kind = true)
    (bound : List Lexed) : statementsWithin inBlock statement bound state = ([], state) := by
  cases bound with
  | nil => rfl
  | cons => rw [statementsWithin, if_pos ends]

/-- Reading resumes at least one token after the start of a failed statement. -/
theorem recover_lt {start failed : State} (scanned : start.Scanned)
    (token : start.kind ≠ .endOfInput) (course : start.Reaches failed)
    (reported : failed.sink ≠ Sink.empty) :
    (recover start failed).upcoming.length < start.upcoming.length := by
  have shorter := course.upcoming_length_le
  have onward := (State.Reaches.refl failed).advance
  have skipped {begun : State} (reportedBegun : begun.sink ≠ Sink.empty) :=
    (State.Reaches.skipWithin start.depth begun.upcoming reportedBegun).upcoming_length_le
  unfold recover
  split_ifs with same
  · have nonempty : start.upcoming ≠ [] := fun none =>
      token (scanned.kind_eq_endOfInput_iff.2 none)
    have positive := List.length_pos_iff.2 nonempty
    have passed : failed.advance.upcoming.length = failed.upcoming.length - 1 := by
      rw [State.Reaches.advance_upcoming, List.length_tail]
    have rest := skipped fun clean => reported (onward.sink_eq_empty clean)
    simp only
    omega
  · have rest := skipped reported
    simp only
    omega

/-- The bound on the number of statements does not matter once there are as many as tokens ahead. -/
theorem statementsWithin_bound (proceeds : statement.Proceeds) (consumes : statement.Consumes)
    {left right : List Lexed} {state : State} (scanned : state.Scanned)
    (leftEnough : state.upcoming.length ≤ left.length)
    (rightEnough : state.upcoming.length ≤ right.length) :
    statementsWithin inBlock statement left state =
      statementsWithin inBlock statement right state := by
  induction left generalizing right state with
  | nil =>
      have ended : state.kind = .endOfInput :=
        scanned.kind_eq_endOfInput_iff.2 (List.length_eq_zero_iff.1 (Nat.le_zero.1 leftEnough))
      have ends : endsStatements inBlock state.kind = true := by simp [endsStatements, ended]
      rw [statementsWithin_of_ends ends, statementsWithin_of_ends ends]
  | cons _ left inductionHypothesis =>
      by_cases ends : endsStatements inBlock state.kind = true
      · rw [statementsWithin_of_ends ends, statementsWithin_of_ends ends]
      have token : state.kind ≠ .endOfInput := by
        intro ended
        rw [ended] at ends
        exact ends rfl
      cases right with
      | nil =>
          have none := List.length_eq_zero_iff.1 (Nat.le_zero.1 rightEnough)
          exact absurd (scanned.kind_eq_endOfInput_iff.2 none) token
      | cons _ right =>
          have rounds {next : State} (course : state.Reaches next)
              (shorter : next.upcoming.length < state.upcoming.length) :
              statementsWithin inBlock statement left next =
                statementsWithin inBlock statement right next := by
            simp only [List.length_cons] at leftEnough rightEnough
            exact inductionHypothesis (scanned.of_reaches course) (by omega) (by omega)
          unfold statementsWithin
          rw [if_neg ends, if_neg ends]
          split
          · exact rounds (.advance (.report _ (.refl state))) (scanned.report_advance_lt token _)
          · cases read : statement state with
            | ok first after =>
                have separated := State.Reaches.checkSeparated inBlock after
                have shorter := Nat.lt_of_le_of_lt separated.upcoming_length_le
                  (consumes state after first scanned read)
                simp only [rounds ((proceeds.of_ok read).trans separated) shorter]
            | error diagnostic failed =>
                have course := proceeds state
                rw [read] at course
                have reported := failed.report_sink_ne_empty diagnostic
                exact rounds ((course.report diagnostic).trans
                  (State.Reaches.recover state reported))
                  (recover_lt scanned token (course.report diagnostic) reported)

end

end AgentScript.Production
