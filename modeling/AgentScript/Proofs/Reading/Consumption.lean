import AgentScript.Proofs.Reading.Rounds
import AgentScript.Proofs.Tree.Size

/-!
Contract: reading goes on until the tokens are used up, and no tree is larger than its script.

Owns:
- the states that reading a script can stand in, at any level of nesting;
- one round of a list of statements, which passes a token whatever becomes of the statement, and the
  list as a repetition of such rounds, free of the bound that the definition carries;
- productions that pass a token at least for every statement and every block in what they read;
- the end of a script, after which nothing more is read.
-/

set_option autoImplicit false

namespace AgentScript

/-- The states that reading can stand in, on the level of nesting that it starts at or further in. -/
inductive State.Visits : State → State → Prop where
  | reaches {start state : State} : start.Reaches state → Visits start state
  | inside {start state inside : State} :
      Visits start state → State.Reaches { state with nesting := state.nesting + 1 } inside →
      Visits start inside

theorem State.Scanned.of_visits {start state : State} (scanned : start.Scanned)
    (visits : start.Visits state) : state.Scanned := by
  induction visits with
  | reaches course => exact scanned.of_reaches course
  | inside _ course inductionHypothesis =>
      exact (inductionHypothesis.deeper _).of_reaches course

namespace Production

variable {α : Type}

/-- A production passes a token if it succeeds in a state. -/
def PassesToken (production : Production α) (state : State) : Prop :=
  ∀ value after, production state = .ok value after →
    after.upcoming.length < state.upcoming.length

theorem Consumes.passesToken {production : Production α} (consumes : production.Consumes)
    {state : State} (scanned : state.Scanned) : production.PassesToken state :=
  fun value after read => consumes state after value scanned read

/-! ## Rounds of a list of statements -/

/-- One round of a list of statements: the statement that it keeps, if any, and the state after it. -/
def statementRound (inBlock : Bool) (statement : Production Stmt) (state : State) :
    Option Stmt × State :=
  if state.kind = .semicolon then
    (none, (state.report (state.faultHere .semicolonSeparator)).advance)
  else match statement state with
    | .ok first after => (some first, checkSeparated inBlock after)
    | .error diagnostic failed => (none, recover state (failed.report diagnostic))

section

variable {inBlock : Bool} {statement : Production Stmt} {state : State}

theorem statementRound_reaches (proceeds : statement.Proceeds) :
    state.Reaches (statementRound inBlock statement state).2 := by
  unfold statementRound
  split
  · exact .advance (.report _ (.refl state))
  · have course := proceeds state
    cases read : statement state with
    | ok first after =>
        rw [read] at course
        exact course.trans (State.Reaches.checkSeparated inBlock after)
    | error diagnostic failed =>
        rw [read] at course
        exact (course.report diagnostic).trans
          (State.Reaches.recover state (failed.report_sink_ne_empty diagnostic))

/-- A round passes a token: a semicolon, a statement that can be read, or at least one token of a
statement that cannot. -/
theorem statementRound_lt (proceeds : statement.Proceeds) (consumes : statement.Consumes)
    (scanned : state.Scanned) (token : state.kind ≠ .endOfInput) :
    (statementRound inBlock statement state).2.upcoming.length < state.upcoming.length := by
  unfold statementRound
  split
  · exact scanned.report_advance_lt token _
  · have course := proceeds state
    cases read : statement state with
    | ok first after =>
        exact Nat.lt_of_le_of_lt (State.Reaches.checkSeparated inBlock after).upcoming_length_le
          (consumes state after first scanned read)
    | error diagnostic failed =>
        rw [read] at course
        exact recover_lt scanned token (course.report diagnostic)
          (failed.report_sink_ne_empty diagnostic)

/-- A list of statements is one round and the list from there on. -/
theorem statementsWithin_eq_round (proceeds : statement.Proceeds) (consumes : statement.Consumes)
    (scanned : state.Scanned) (goesOn : endsStatements inBlock state.kind = false) :
    statementsWithin inBlock statement state.upcoming state =
      let round := statementRound inBlock statement state
      let rest := statementsWithin inBlock statement round.2.upcoming round.2
      (round.1.toList ++ rest.1, rest.2) := by
  have token : state.kind ≠ .endOfInput := by
    intro ended
    rw [ended] at goesOn
    cases goesOn
  obtain ⟨lexed, ahead, _⟩ := scanned.exists_current token
  let next := (statementRound inBlock statement state).2
  have shorter : next.upcoming.length < state.upcoming.length :=
    statementRound_lt proceeds consumes scanned token
  have course : state.Reaches next := statementRound_reaches proceeds
  have enough : next.upcoming.length ≤ state.advance.upcoming.length := by
    rw [ahead] at shorter
    exact Nat.le_of_lt_succ shorter
  have free : statementsWithin inBlock statement state.advance.upcoming next =
      statementsWithin inBlock statement next.upcoming next :=
    statementsWithin_bound proceeds consumes (scanned.of_reaches course) enough (Nat.le_refl _)
  change _ = ((statementRound inBlock statement state).1.toList ++
    (statementsWithin inBlock statement next.upcoming next).1,
      (statementsWithin inBlock statement next.upcoming next).2)
  rw [← free, ahead, statementsWithin, if_neg (by simp [goesOn])]
  simp only [next, statementRound]
  split
  · rfl
  · cases statement state <;> rfl

end

/-! ## Tokens passed for statements -/

/-- A production passes at least as many tokens as what it reads costs. -/
def Spends (production : Production α) (cost : α → Nat) : Prop :=
  ∀ (state after : State) (value : α), state.Scanned → production state = .ok value after →
    cost value + after.upcoming.length ≤ state.upcoming.length

theorem spends_tooDeep (cost : α → Nat) : (tooDeep : Production α).Spends cost :=
  fun _ _ _ _ read => nomatch read

theorem Spends.deeper {production : Production α} {cost : α → Nat}
    (spends : production.Spends cost) : (deeper production).Spends cost := by
  intro state after value scanned read
  obtain ⟨inside, readInside, rfl⟩ := deeper_ok_iff.1 read
  exact spends { state with nesting := state.nesting + 1 } inside value (scanned.deeper _) readInside

theorem Spends.mono {production : Production α} {small large : α → Nat}
    (spends : production.Spends large) (cheaper : ∀ value, small value ≤ large value) :
    production.Spends small := by
  intro state after value scanned read
  exact Nat.le_trans (Nat.add_le_add_right (cheaper value) _) (spends state after value scanned read)

/-- What may follow a keyword costs nothing if it is not there. -/
theorem Spends.after? {production : Production α} {cost : α → Nat}
    (spends : production.Spends cost) (kind : Kind) :
    (after? kind production).Spends fun value? => (value?.map cost).getD 0 := by
  intro state after value? scanned read
  obtain ⟨_, value, readValue, rfl⟩ | ⟨_, rfl, rfl⟩ := after?_ok_iff.1 read
  · have passed := (State.Reaches.refl state).advance.upcoming_length_le
    have spent := spends state.advance after value scanned.advance readValue
    simp only [Option.map_some, Option.getD_some]
    omega
  · simp

/-- What is read one level further in passes a token for each statement and block in it, and a block
one more for its closing bracket. -/
structure LevelSpends (inner : Level) : Prop where
  block : inner.block.Spends fun body => body.size + 1
  conditional : inner.conditional.Spends Stmt.size
  statement : inner.statement.Spends Stmt.size

section

variable {inner : Level} (proceeds : LevelProceeds inner) (consumes : LevelConsumes inner)
  (spends : LevelSpends inner)

include spends in
theorem block_size_lt {state after : State} {body : Block} (scanned : state.Scanned)
    (read : inner.block state = .ok body after) :
    body.size + 1 + after.upcoming.length ≤ state.upcoming.length :=
  spends.block state after body scanned read

include spends in
theorem spends_alternative : (alternative inner).Spends Stmt.size := by
  intro state after statement scanned read
  obtain ⟨_, readConditional⟩ | ⟨_, body, readBody, rfl⟩ := alternative_ok_iff.1 read
  · exact spends.conditional state after statement scanned readConditional
  · exact spends.block state after body scanned readBody

include proceeds spends in
theorem spends_conditionalAt : (conditionalAt inner).Spends Stmt.size := by
  intro state after statement scanned read
  obtain ⟨isIf, value, afterCondition, readCondition, consequence, afterBlock, readBlock,
    alternative?, readAlternative, rfl⟩ := conditionalAt_ok_iff.1 read
  have passed := scanned.advance_lt (by simp [isIf])
  have toBlock := (proceeds_grouping proceeds).of_ok readCondition
  have blockScanned := scanned.advance.of_reaches toBlock
  have blockSpent := block_size_lt spends blockScanned readBlock
  have alternativeSpent : (alternative?.map Stmt.size).getD 0 + after.upcoming.length ≤
      afterBlock.upcoming.length :=
    (spends_alternative spends).after? _ _ _ _
      (blockScanned.of_reaches (proceeds.block.of_ok readBlock)) readAlternative
  have onward := toBlock.upcoming_length_le
  cases alternative? with
  | none =>
      simp only [Stmt.size]
      omega
  | some alternative =>
      simp only [Option.map_some, Option.getD_some] at alternativeSpent
      simp only [Stmt.size]
      omega

include spends in
theorem spends_handler? :
    (after? (.keyword .catchKw) (handler inner)).Spends sizeOfHandler := by
  have spendsHandler : (handler inner).Spends fun read => read.2.size := by
    intro state after read scanned readHandler
    obtain ⟨_, _, _, body, readBody, rfl⟩ := handler_ok_iff.1 readHandler
    have toBody := (State.Reaches.refl state).advance.advance.advance
    have spent := block_size_lt spends (scanned.of_reaches toBody) readBody
    have onward := toBody.upcoming_length_le
    simp only
    omega
  refine (spendsHandler.after? _).mono fun handler? => ?_
  cases handler? <;> exact Nat.le_refl _

include spends in
theorem spends_finalizer? : (after? (.keyword .finallyKw) inner.block).Spends sizeOfBlock? := by
  refine (spends.block.after? _).mono fun finalizer? => ?_
  cases finalizer? with
  | none => exact Nat.le_refl _
  | some body => exact Nat.le_succ _

include proceeds spends in
theorem spends_attempt {state after : State} {statement : Stmt} (scanned : state.Scanned)
    (token : state.kind ≠ .endOfInput) (read : attempt inner state = .ok statement after) :
    statement.size + after.upcoming.length ≤ state.upcoming.length := by
  obtain ⟨body, afterBody, readBody, handler?, afterHandler, readHandler, finalizer?, readFinalizer,
    _, rfl⟩ := attempt_ok_iff.1 read
  have passed := scanned.advance_lt token
  have handlerScanned := scanned.advance.of_reaches (proceeds.block.of_ok readBody)
  have finalizerScanned := handlerScanned.of_reaches
    (((proceeds_handler proceeds).after? _).of_ok readHandler)
  have bodySpent := block_size_lt spends scanned.advance readBody
  have handlerSpent := spends_handler? spends _ _ _ handlerScanned readHandler
  have finalizerSpent := spends_finalizer? spends _ _ _ finalizerScanned readFinalizer
  simp only [Stmt.size]
  omega

include proceeds consumes spends in
theorem spends_statementOf {form : StatementForm} {state after : State} {statement : Stmt}
    (scanned : state.Scanned) (token : state.kind ≠ .endOfInput)
    (read : statementOf inner form state = .ok statement after) :
    statement.size + after.upcoming.length ≤ state.upcoming.length := by
  have passed := scanned.advance_lt token
  -- a statement without statements in it costs one token, which it passes like any other
  have single (alone : statement.size = 1) :
      statement.size + after.upcoming.length ≤ state.upcoming.length := by
    have shorter := consumes_statementOf proceeds consumes scanned token read
    omega
  cases form with
  | config =>
      obtain ⟨_, _, _, rfl⟩ := configDeclaration_ok_iff.1 read
      exact single rfl
  | tool =>
      obtain ⟨_, _, parameters, _, readParameters, type?, _, readType, body, readBody, rfl⟩ :=
        toolDeclaration_ok_iff.1 read
      have toBody := ((State.Reaches.refl state.advance).advance.advance.trans
        ((proceeds_parameter.listOf _).of_ok readParameters)).trans
          (proceeds_declaredType?.of_ok readType)
      have spent := block_size_lt spends (scanned.advance.of_reaches toBody) readBody
      have onward := toBody.upcoming_length_le
      simp only [Stmt.size]
      omega
  | importNames =>
      obtain ⟨_, _, _, _, _, rfl, _⟩ := importDeclaration_ok_iff.1 read
      exact single rfl
  | exported =>
      obtain ⟨exported, readStatement, _, rfl⟩ := exportDeclaration_ok_iff.1 read
      have spent := spends.statement _ _ _ scanned.advance readStatement
      simp only [Stmt.size]
      omega
  | conditional => exact spends.conditional _ _ _ scanned read
  | whileLoop =>
      obtain ⟨_, _, readCondition, body, readBody, rfl⟩ := whileLoop_ok_iff.1 read
      have toBody := (proceeds_grouping proceeds).of_ok readCondition
      have spent := block_size_lt spends (scanned.advance.of_reaches toBody) readBody
      have onward := toBody.upcoming_length_le
      simp only [Stmt.size]
      omega
  | forOf =>
      obtain ⟨_, _, _, _, _, readIterable, _, body, readBody, rfl⟩ := forOf_ok_iff.1 read
      have toBody := ((State.Reaches.refl state.advance).advance.advance.advance.trans
        ((proceeds.expression _).of_ok readIterable)).advance
      have spent := block_size_lt spends (scanned.advance.of_reaches toBody) readBody
      have onward := toBody.upcoming_length_le
      simp only [Stmt.size]
      omega
  | breakLoop =>
      cases read
      exact single rfl
  | continueLoop =>
      cases read
      exact single rfl
  | returnValue =>
      obtain ⟨_, rfl, _⟩ | ⟨_, _, _, rfl⟩ := returnValue_ok_iff.1 read
      · exact single rfl
      · exact single rfl
  | throwValue =>
      obtain ⟨_, _, _, rfl⟩ := throwValue_ok_iff.1 read
      exact single rfl
  | attempt => exact spends_attempt proceeds spends scanned token read
  | reserved => cases read

include proceeds consumes spends in
theorem spends_statement : (Production.statement inner).Spends Stmt.size := by
  intro state after statement scanned read
  have shorter := consumes_statement proceeds consumes state after statement scanned read
  have token := (consumes_statement proceeds consumes).token scanned read
  rw [statement_run] at read
  split at read
  · exact spends_statementOf proceeds consumes spends scanned token read
  · split at read
    · obtain ⟨_, _, _, _, _, _, _, rfl⟩ := assignment_ok_iff.1 read
      simp only [Stmt.size]
      omega
    · obtain ⟨_, _, rfl⟩ := expressionStatement_ok_iff.1 read
      simp only [Stmt.size]
      omega

end

/-- What rounds keep costs no more tokens than they pass. -/
theorem Rounds.spends {inBlock : Bool} {statement : Production Stmt} (proceeds : statement.Proceeds)
    (spends : statement.Spends Stmt.size) {state final : State} {list : List Stmt}
    (rounds : Rounds inBlock statement state list final) (scanned : state.Scanned) :
    sizeOfStmts list + final.upcoming.length ≤ state.upcoming.length := by
  induction rounds with
  | ends => simp [sizeOfStmts]
  | @semicolon state final list _ _ inductionHypothesis =>
      have course := (State.Reaches.report (state.faultHere .semicolonSeparator) (.refl state)).advance
      exact Nat.le_trans (inductionHypothesis (scanned.of_reaches course)) course.upcoming_length_le
  | @kept state after final first rest read _ inductionHypothesis =>
      have separated := State.Reaches.checkSeparated inBlock after
      have spent := spends state after first scanned read
      have restSpent := inductionHypothesis
        (scanned.of_reaches ((proceeds.of_ok read).trans separated))
      have onward := separated.upcoming_length_le
      simp only [sizeOfStmts]
      omega
  | @failed state failed final diagnostic list read _ inductionHypothesis =>
      have toFailed := proceeds state
      rw [read] at toFailed
      have course := (toFailed.report diagnostic).trans
        (State.Reaches.recover state (failed.report_sink_ne_empty diagnostic))
      exact Nat.le_trans (inductionHypothesis (scanned.of_reaches course)) course.upcoming_length_le

theorem spends_blockAt {inner : Level} (proceeds : LevelProceeds inner)
    (consumes : LevelConsumes inner) (spends : LevelSpends inner) :
    (blockAt inner).Spends fun body => body.size + 1 := by
  intro state after body scanned read
  obtain ⟨opens, list, before, readList, closes, rfl, rfl⟩ := blockAt_ok_iff.1 read
  have proceedsStatement := proceeds_statement proceeds
  have rounds := @statementsWithin_rounds true _ proceedsStatement
    (consumes_statement proceeds consumes) _ _ scanned.advance (Nat.le_refl _)
  rw [readList] at rounds
  have spent : sizeOfStmts list + before.upcoming.length ≤ state.advance.upcoming.length :=
    rounds.spends proceedsStatement (spends_statement proceeds consumes spends) scanned.advance
  have opening := scanned.advance_lt (by simp [opens])
  have closing : before.advance.upcoming.length < before.upcoming.length :=
    (scanned.advance.of_reaches (rounds.reaches proceedsStatement)).advance_lt (by simp [closes])
  simp only [Block.size]
  omega

/-- At every level of nesting, what is read passes a token for each statement and block in it. -/
theorem levelSpends_withRoom (room : Nat) : LevelSpends (Level.withRoom room) := by
  induction room with
  | zero => exact ⟨spends_tooDeep _, spends_tooDeep _, spends_tooDeep _⟩
  | succ room inductionHypothesis =>
      have proceeds := levelProceeds_withRoom room
      have consumes := levelConsumes_withRoom room
      exact ⟨(spends_blockAt proceeds consumes inductionHypothesis).deeper,
        (spends_conditionalAt proceeds inductionHypothesis).deeper,
        (spends_statement proceeds consumes inductionHypothesis).deeper⟩

end Production

namespace State

open Production

/-- One round of the list of statements that stands at the level of nesting of a state. -/
def round (inBlock : Bool) (state : State) : Option Stmt × State :=
  statementRound inBlock (Production.statement (Level.withRoom state.room)) state

/-- The list of statements that stands at the level of nesting of a state. -/
def list (inBlock : Bool) (state : State) : List Stmt × State :=
  statementsWithin inBlock (Production.statement (Level.withRoom state.room)) state.upcoming state

/-- Whatever is read from a state passes tokens as long as there are any. -/
structure Progresses (state : State) : Prop where
  statement : (atLevel Production.statement).PassesToken state
  expression : ∀ power, (atLevel fun level => level.expression power).PassesToken state
  type : ∀ power, (typeExpr power).PassesToken state
  block : (atLevel Level.block).PassesToken state
  /-- Every round of a list of statements passes a token, and the list is nothing but rounds. -/
  rounds : ∀ inBlock, endsStatements inBlock state.kind = false →
    (state.round inBlock).2.upcoming.length < state.upcoming.length ∧
      state.list inBlock =
        (let rest := (state.round inBlock).2.list inBlock
        ((state.round inBlock).1.toList ++ rest.1, rest.2))
  /-- The statements of a script go on to its end. -/
  ended : state.readProgram.2.kind = .endOfInput
  /-- There is nothing more to read or to report after that. -/
  again : state.readProgram.2.readProgram = (⟨[]⟩, state.readProgram.2)

theorem readProgram_of_ended {state : State} (ended : state.kind = .endOfInput) :
    state.readProgram = (⟨[]⟩, state) := by
  unfold State.readProgram
  rw [statementsWithin_of_ends (by simp [endsStatements, ended])]

theorem Scanned.rounds {state : State} (scanned : state.Scanned) {inBlock : Bool}
    (goesOn : endsStatements inBlock state.kind = false) :
    (state.round inBlock).2.upcoming.length < state.upcoming.length ∧
      state.list inBlock =
        (let rest := (state.round inBlock).2.list inBlock
        ((state.round inBlock).1.toList ++ rest.1, rest.2)) := by
  have proceeds := proceeds_statement_withRoom state.room
  have consumes := consumes_statement_withRoom state.room
  have token : state.kind ≠ .endOfInput := by
    intro ended
    rw [ended] at goesOn
    cases goesOn
  -- a round ends at the level of nesting it starts at, so that the rest is read at that level too
  have course : state.Reaches (state.round inBlock).2 := statementRound_reaches proceeds
  have sameRoom : (state.round inBlock).2.room = state.room := by
    rw [State.room, State.room, course.nesting_eq]
  refine ⟨statementRound_lt proceeds consumes scanned token, ?_⟩
  rw [State.list, statementsWithin_eq_round proceeds consumes scanned goesOn]
  simp only [State.list, sameRoom]
  rfl

theorem Scanned.progresses {state : State} (scanned : state.Scanned) : state.Progresses where
  statement := (consumes_statement_withRoom state.room).passesToken scanned
  expression := fun power =>
    ((levelConsumes_withRoom state.room).expression power).passesToken scanned
  type := fun power => (consumes_typeExpr power).passesToken scanned
  block := (levelConsumes_withRoom state.room).block.passesToken scanned
  rounds := fun _ goesOn => scanned.rounds goesOn
  ended := by
    have course := (readProgram_rounds scanned).reaches (proceeds_statement_withRoom _)
    exact (scanned.of_reaches course).kind_eq_endOfInput_iff.2 (readProgram_upcoming scanned)
  again := by
    have course := (readProgram_rounds scanned).reaches (proceeds_statement_withRoom _)
    exact readProgram_of_ended
      ((scanned.of_reaches course).kind_eq_endOfInput_iff.2 (readProgram_upcoming scanned))

end State

/-- The tokens of a script, the end of input left out, are those ahead when its reading starts. -/
theorem length_tokens (source : String) :
    ((tokenize source).1.filter fun token => token.kind ≠ .endOfInput).length =
      (State.ofSource source).upcoming.length := by
  have scanned := State.scanned_ofSource source
  have ending : (Cursor.ofSource source).scan.ending.token.kind = .endOfInput := scanned.ending_kind
  have tokens : ((Cursor.ofSource source).scan.tokens.map Lexed.token).filter
      (fun token => token.kind ≠ .endOfInput) = (Cursor.ofSource source).scan.tokens.map Lexed.token :=
    List.filter_eq_self.2 (List.forall_mem_map.2 fun lexed member => by
      simpa using scanned.kind_ne lexed member)
  rw [tokenize, Scan.allTokens, List.map_append, List.filter_append, tokens]
  simp [ending]
  rfl

/-- From every state of the reading of a script, what is read passes a token at least, every round of
a list of statements does, and the reading goes on to the end of the script. The program has no more
statements and blocks than the script has tokens. -/
theorem parse_progresses (source : String) :
    (∀ state, (State.ofSource source).Visits state → state.Progresses) ∧
      (parse source).1.size ≤
        ((tokenize source).1.filter fun token => token.kind ≠ .endOfInput).length := by
  have scanned := State.scanned_ofSource source
  refine ⟨fun state visits => (scanned.of_visits visits).progresses, ?_⟩
  have spent := (Production.readProgram_rounds scanned).spends
    (Production.proceeds_statement_withRoom _)
    (Production.spends_statement (Production.levelProceeds_withRoom _)
      (Production.levelConsumes_withRoom _) (Production.levelSpends_withRoom _)) scanned
  rw [length_tokens]
  exact Nat.le_trans (Nat.le_add_right _ _) spent

/-- A script that fails in the middle of a block, one level of nesting further in. -/
theorem parse_progresses_in_block :
    (State.ofSource "if (x) \x7b ) \x7d").Visits
        { (State.ofSource "if (x) \x7b ) \x7d") with nesting := 1 }.advance ∧
      { (State.ofSource "if (x) \x7b ) \x7d") with nesting := 1 }.advance.Progresses ∧
      (parse "if (x) \x7b ) \x7d").1.size ≤ 7 := by
  have visits : (State.ofSource "if (x) \x7b ) \x7d").Visits
      { (State.ofSource "if (x) \x7b ) \x7d") with nesting := 1 }.advance :=
    .inside (.reaches (.refl _)) (.advance (.refl _))
  exact ⟨visits, (parse_progresses _).1 _ visits, (parse_progresses _).2⟩

end AgentScript
