import AgentScript.Proofs.Reading.Succession
import AgentScript.Proofs.Tree.Nodes
import Mathlib.Data.List.Basic

/-!
Contract: the statements of a tree and the lines that they stand on.

Owns:
- the tokens that a statement is read from, of which the first is the token of the statement;
- lists of statements that are read from successive tokens, each of them from a later line on than the
  last token of the statement before it ends on;
- that every list of statements that is read without diagnostics is of this form, in the program and
  in every block, and where the tokens of a block stand.
-/

set_option autoImplicit false

namespace AgentScript

/-! ## Lists of statements and their tokens -/

/-- A statement that is read from exactly the given tokens, with the others after them. -/
def Stmt.ReadFrom (statement : Stmt) (span following : List Lexed) : Prop :=
  span.head?.map Lexed.token = some statement.token ∧
    ∃ (room : Nat) (state after : State),
      Production.statement (Level.withRoom room) state = .ok statement after ∧
        state.upcoming = span ++ following ∧ after.upcoming = following

/-- Statements that are read from the given tokens one after the other, up to the tokens that follow
the list. Each stands on a later line than the last token of the one before it ends on. -/
inductive LinedUp (following : List Lexed) : List Lexed → List Stmt → Prop where
  | nil : LinedUp following [] []
  | cons {passed rest : List Lexed} {last : Lexed} {first : Stmt} {statements : List Stmt} :
      first.ReadFrom (passed ++ [last]) (rest ++ following) →
      (∀ next ∈ statements.head?, last.endLine < next.token.position.line) →
      LinedUp following rest statements →
      LinedUp following (passed ++ last :: rest) (first :: statements)

/-- A block whose brackets and statements stand among the given tokens, the statements lined up. -/
def Block.LinedUpIn (tokens : List Lexed) (body : Block) : Prop :=
  ∃ (before : List Lexed) (opening : Lexed) (inside : List Lexed) (closing : Lexed)
      (after : List Lexed),
    tokens = before ++ opening :: (inside ++ closing :: after) ∧ opening.token = body.brace ∧
      closing.token.kind = .closeCurly ∧ LinedUp (closing :: after) inside body.statements

/-- The lists of statements of a part are lined up among the given tokens. -/
def Node.LinedUpIn (tokens : List Lexed) : Node → Prop
  | .program tree => LinedUp [] tokens tree.statements
  | .block body => body.LinedUpIn tokens
  | .statement _ | .expression _ => True

/-- The line that the last passed token of a course ends on. -/
theorem State.Reaches.exists_passed {start state : State} (course : start.Reaches state) :
    ∃ passed, start.upcoming = passed ++ state.upcoming ∧
      state.lastLine = passed.foldl (fun _ lexed => lexed.endLine) start.lastLine := by
  induction course with
  | refl => exact ⟨[], rfl, rfl⟩
  | @advance start state _ inductionHypothesis =>
      obtain ⟨passed, split, line⟩ := inductionHypothesis
      cases ahead : state.upcoming with
      | nil =>
          exact ⟨passed, by simp [split, advance_upcoming, ahead],
            by simp [State.advance, ahead, line]⟩
      | cons lexed rest =>
          exact ⟨passed ++ [lexed], by simp [split, advance_upcoming, ahead],
            by simp [State.advance, ahead]⟩
  | report _ _ inductionHypothesis => exact inductionHypothesis
  | closeTo _ _ _ inductionHypothesis => exact inductionHypothesis
  | nested _ _ outer inner =>
      obtain ⟨passed, split, line⟩ := outer
      obtain ⟨passedInside, splitInside, lineInside⟩ := inner
      exact ⟨passed ++ passedInside, by simpa [split] using splitInside,
        by simpa [line] using lineInside⟩

namespace Production

/-! ## The first token of a statement -/

theorem token_of_conditional {room : Nat} {state after : State} {statement : Stmt}
    (read : (Level.withRoom room).conditional state = .ok statement after) :
    statement.token = state.current := by
  cases room with
  | zero => cases read
  | succ room =>
      obtain ⟨inside, readInside, _⟩ := deeper_ok_iff.1 read
      obtain ⟨_, _, _, _, _, _, _, _, _, rfl⟩ := conditionalAt_ok_iff.1 readInside
      rfl

theorem token_of_statement {room : Nat} {state after : State} {statement : Stmt}
    (read : Production.statement (Level.withRoom room) state = .ok statement after) :
    statement.token = state.current := by
  rw [statement_run] at read
  split at read
  · next form _ =>
      cases form with
      | config =>
          obtain ⟨_, _, _, rfl⟩ := configDeclaration_ok_iff.1 read
          rfl
      | tool =>
          obtain ⟨_, _, _, _, _, _, _, _, _, _, rfl⟩ := toolDeclaration_ok_iff.1 read
          rfl
      | importNames =>
          obtain ⟨_, _, _, _, _, rfl, _⟩ := importDeclaration_ok_iff.1 read
          rfl
      | exported =>
          obtain ⟨_, _, _, rfl⟩ := exportDeclaration_ok_iff.1 read
          rfl
      | conditional => exact token_of_conditional read
      | whileLoop =>
          obtain ⟨_, _, _, _, _, rfl⟩ := whileLoop_ok_iff.1 read
          rfl
      | forOf =>
          obtain ⟨_, _, _, _, _, _, _, _, _, rfl⟩ := forOf_ok_iff.1 read
          rfl
      | breakLoop =>
          cases read
          rfl
      | continueLoop =>
          cases read
          rfl
      | returnValue =>
          obtain ⟨_, rfl, _⟩ | ⟨_, _, _, rfl⟩ := returnValue_ok_iff.1 read <;> rfl
      | throwValue =>
          obtain ⟨_, _, _, rfl⟩ := throwValue_ok_iff.1 read
          rfl
      | attempt =>
          obtain ⟨_, _, _, _, _, _, _, _, _, rfl⟩ := attempt_ok_iff.1 read
          rfl
      | reserved => cases read
  · split at read
    · obtain ⟨_, _, _, _, _, _, _, rfl⟩ := assignment_ok_iff.1 read
      rfl
    · obtain ⟨_, _, rfl⟩ := expressionStatement_ok_iff.1 read
      rfl

/-! ## Successions of statements -/

/-- A statement is read from at least one token, and the line it ends on is that of the last. -/
theorem exists_readFrom {room : Nat} {state after : State} {statement : Stmt}
    (scanned : state.Scanned)
    (read : Production.statement (Level.withRoom room) state = .ok statement after) :
    ∃ passed last, state.upcoming = passed ++ last :: after.upcoming ∧
      statement.ReadFrom (passed ++ [last]) after.upcoming ∧ after.lastLine = last.endLine := by
  obtain ⟨span, split, line⟩ := ((proceeds_statement_withRoom room).of_ok read).exists_passed
  have shorter := consumes_statement_withRoom room state after statement scanned read
  obtain rfl | ⟨passed, last, rfl⟩ := span.eq_nil_or_concat'
  · simp [split] at shorter
  · refine ⟨passed, last, by simp [split], ⟨?_, room, state, after, read, split, rfl⟩, by simp [line]⟩
    rw [token_of_statement read, State.current, split]
    cases passed <;> rfl

/-- The statements of a succession are lined up. -/
theorem Succession.linedUp {inBlock : Bool} {room : Nat} {state final : State} {list : List Stmt}
    (succession : Succession inBlock (Production.statement (Level.withRoom room)) state list final)
    (scanned : state.Scanned) :
    ∃ tokens, state.upcoming = tokens ++ final.upcoming ∧ LinedUp final.upcoming tokens list := by
  induction succession with
  | nil => exact ⟨[], rfl, .nil⟩
  | @cons state after final first rest _ _ read separated succession inductionHypothesis =>
      obtain ⟨passed, last, split, readFrom, line⟩ := exists_readFrom scanned read
      obtain ⟨tokens, ahead, linedUp⟩ := inductionHypothesis
        (scanned.of_reaches ((proceeds_statement_withRoom room).of_ok read))
      refine ⟨passed ++ last :: tokens, by simp [split, ahead], .cons (ahead ▸ readFrom) ?_ linedUp⟩
      intro next isNext
      cases succession with
      | nil => cases isNext
      | cons goesOn _ readNext =>
          cases isNext
          -- the list goes on, so that it is a new line that separates the two
          rcases separated with ends | fresh
          · rw [goesOn] at ends
            cases ends
          · rw [token_of_statement readNext, ← line]
            exact of_decide_eq_true fresh

end Production

/-- A state of a script with some of the given tokens ahead, up to the last one. -/
structure State.ScannedIn (tokens : List Lexed) (state : State) : Prop where
  scanned : state.Scanned
  within : state.upcoming <:+ tokens

namespace State.ScannedIn

variable {tokens : List Lexed} {state after : State}

theorem of_reaches (scanned : state.ScannedIn tokens) (course : state.Reaches after) :
    after.ScannedIn tokens :=
  ⟨scanned.scanned.of_reaches course, course.upcoming_suffix.trans scanned.within⟩

theorem advance (scanned : state.ScannedIn tokens) : state.advance.ScannedIn tokens :=
  scanned.of_reaches (Reaches.refl state).advance

theorem deeper (scanned : state.ScannedIn tokens) (nesting : Nat) :
    { state with nesting := nesting }.ScannedIn tokens :=
  ⟨scanned.scanned.deeper nesting, scanned.within⟩

end State.ScannedIn

namespace Node

variable {tokens : List Lexed} {statement : Stmt} {values : List Expr} {blocks : List Block}

theorem every_ofValues : ∀ child ∈ ofValues values, child.2.Every (LinedUpIn tokens) :=
  forall_ofValues _ fun value _ => every_expression (fun _ => trivial) value

/-- A statement whose lists of statements are those of its blocks. -/
theorem linedUpIn_of_blocks (children : statement.children = ofValues values ++ ofBlocks blocks)
    (linedUp : ∀ body ∈ blocks, (Node.block body).Every (LinedUpIn tokens)) :
    (Node.statement statement).Every (LinedUpIn tokens) := by
  refine every_of_children trivial ?_
  rw [Node.children, children]
  exact List.forall_mem_append.2 ⟨every_ofValues, forall_ofBlocks _ linedUp⟩

/-- A statement without lists of statements. -/
theorem linedUpIn_of_values (children : statement.children = ofValues values) :
    (Node.statement statement).Every (LinedUpIn tokens) :=
  @linedUpIn_of_blocks _ _ values [] (children.trans (List.append_nil _).symm) (by simp)

end Node

namespace Production

variable {α : Type} {tokens : List Lexed} {node : α → Node}

/-- What is read without diagnostics is lined up among the tokens of the script, in all its parts. -/
def LinesUp (tokens : List Lexed) (production : Production α) (node : α → Node) : Prop :=
  ∀ (state after : State) (value : α), state.ScannedIn tokens → after.sink = Sink.empty →
    production state = .ok value after → (node value).Every (Node.LinedUpIn tokens)

theorem linesUp_tooDeep : LinesUp tokens tooDeep node := fun _ _ _ _ _ read => nomatch read

theorem LinesUp.deeper {production : Production α} (linesUp : LinesUp tokens production node) :
    LinesUp tokens (deeper production) node := by
  intro state after value scanned clean read
  obtain ⟨inside, readInside, rfl⟩ := deeper_ok_iff.1 read
  exact linesUp _ inside value (scanned.deeper _) clean readInside

theorem LinesUp.after? {production : Production α} (linesUp : LinesUp tokens production node)
    {kind : Kind} {state after : State} {value? : Option α} (scanned : state.ScannedIn tokens)
    (clean : after.sink = Sink.empty) (read : after? kind production state = .ok value? after) :
    ∀ value ∈ value?, (node value).Every (Node.LinedUpIn tokens) := by
  obtain ⟨_, value, readValue, rfl⟩ | ⟨_, rfl, _⟩ := after?_ok_iff.1 read
  · rintro _ ⟨⟩
    exact linesUp _ _ _ scanned.advance clean readValue
  · simp

/-- What is read one level further in without diagnostics is lined up. -/
structure LevelLinesUp (tokens : List Lexed) (inner : Level) : Prop where
  block : LinesUp tokens inner.block .block
  conditional : LinesUp tokens inner.conditional .statement
  statement : LinesUp tokens inner.statement .statement

section

variable {inner : Level} (proceeds : LevelProceeds inner) (linesUp : LevelLinesUp tokens inner)

include linesUp in
theorem linesUp_alternative : LinesUp tokens (alternative inner) .statement := by
  intro state after statement scanned clean read
  obtain ⟨_, readConditional⟩ | ⟨_, body, readBody, rfl⟩ := alternative_ok_iff.1 read
  · exact linesUp.conditional _ _ _ scanned clean readConditional
  · have block := linesUp.block _ _ _ scanned clean readBody
    exact @Node.linedUpIn_of_blocks _ _ [] _ rfl (List.forall_mem_singleton.2 block)

include proceeds linesUp in
theorem linesUp_conditionalAt : LinesUp tokens (conditionalAt inner) .statement := by
  intro state after statement scanned clean read
  obtain ⟨_, _, _, readCondition, consequence, afterBlock, readBlock, alternative?, readAlternative,
    rfl⟩ := conditionalAt_ok_iff.1 read
  have blockScanned := scanned.advance.of_reaches ((proceeds_condition proceeds).of_ok readCondition)
  have afterScanned := blockScanned.of_reaches (proceeds.block.of_ok readBlock)
  have cleanBlock := (((proceeds_alternative proceeds).after? _).of_ok
    readAlternative).sink_eq_empty clean
  have block := linesUp.block _ _ _ blockScanned cleanBlock readBlock
  have alternative := (linesUp_alternative linesUp).after? afterScanned clean readAlternative
  refine Node.every_of_children trivial ?_
  simp only [Node.children, Stmt.children, List.forall_mem_append]
  exact ⟨⟨Node.every_ofValues, Node.forall_ofBlocks _ (List.forall_mem_singleton.2 block)⟩,
    Node.forall_ofStatements _ fun statement member =>
      alternative statement (Option.mem_toList.1 member)⟩

include linesUp in
theorem linesUp_handler : LinesUp tokens (handler inner) fun read => .block read.2 := by
  intro state after read scanned clean readHandler
  obtain ⟨_, _, _, body, readBody, rfl⟩ := handler_ok_iff.1 readHandler
  exact linesUp.block _ _ _ scanned.advance.advance.advance clean readBody

include proceeds linesUp in
theorem linesUp_attempt : LinesUp tokens (attempt inner) .statement := by
  intro state after statement scanned clean read
  obtain ⟨body, afterBody, readBody, handler?, afterHandler, readHandler, finalizer?, readFinalizer,
    _, rfl⟩ := attempt_ok_iff.1 read
  have handlerProceeds := (proceeds_handler proceeds).after? (.keyword .catchKw)
  have cleanHandler := ((proceeds.block.after? _).of_ok readFinalizer).sink_eq_empty clean
  have cleanBody := (handlerProceeds.of_ok readHandler).sink_eq_empty cleanHandler
  have handlerScanned := scanned.advance.of_reaches (proceeds.block.of_ok readBody)
  have finalizerScanned := handlerScanned.of_reaches (handlerProceeds.of_ok readHandler)
  have block := linesUp.block _ _ _ scanned.advance cleanBody readBody
  have handler := (linesUp_handler linesUp).after? handlerScanned cleanHandler readHandler
  have finalizer := linesUp.block.after? finalizerScanned clean readFinalizer
  refine @Node.linedUpIn_of_blocks _ _ []
    (body :: (handler?.map Prod.snd).toList ++ finalizer?.toList) rfl ?_
  simp only [List.cons_append, List.forall_mem_cons, List.forall_mem_append, Option.mem_toList]
  refine ⟨block, fun body member => ?_, finalizer⟩
  obtain ⟨clause, isHandler, rfl⟩ := Option.map_eq_some_iff.1 member
  exact handler clause isHandler

include proceeds linesUp in
theorem linesUp_statementOf (form : StatementForm) :
    LinesUp tokens (statementOf inner form) .statement := by
  intro state after statement scanned clean read
  have onward := scanned.advance
  cases form with
  | config =>
      obtain ⟨_, entries, _, rfl⟩ := configDeclaration_ok_iff.1 read
      exact Node.linedUpIn_of_values rfl
  | tool =>
      obtain ⟨_, _, _, _, readParameters, _, _, readType, body, readBody, rfl⟩ :=
        toolDeclaration_ok_iff.1 read
      have typeScanned := onward.advance.advance.of_reaches
        ((proceeds_parameter.listOf _).of_ok readParameters)
      have block := linesUp.block _ _ _
        (typeScanned.of_reaches (proceeds_declaredType?.of_ok readType)) clean readBody
      exact @Node.linedUpIn_of_blocks _ _ [] _ rfl (List.forall_mem_singleton.2 block)
  | importNames =>
      obtain ⟨_, _, _, _, _, rfl, _⟩ := importDeclaration_ok_iff.1 read
      exact @Node.linedUpIn_of_values _ _ [] rfl
  | exported =>
      obtain ⟨declaration, readStatement, _, rfl⟩ := exportDeclaration_ok_iff.1 read
      have inside := linesUp.statement _ _ _ onward clean readStatement
      exact Node.every_of_children trivial (List.forall_mem_singleton.2 inside)
  | conditional => exact linesUp.conditional _ _ _ scanned clean read
  | whileLoop =>
      obtain ⟨_, _, readCondition, body, readBody, rfl⟩ := whileLoop_ok_iff.1 read
      have block := linesUp.block _ _ _
        (onward.of_reaches ((proceeds_condition proceeds).of_ok readCondition)) clean readBody
      exact Node.linedUpIn_of_blocks rfl (List.forall_mem_singleton.2 block)
  | forOf =>
      obtain ⟨_, _, _, _, _, readIterable, _, body, readBody, rfl⟩ := forOf_ok_iff.1 read
      have block := linesUp.block _ _ _ (onward.advance.advance.advance.of_reaches
        ((proceeds.expression _).of_ok readIterable)).advance clean readBody
      exact Node.linedUpIn_of_blocks rfl (List.forall_mem_singleton.2 block)
  | breakLoop =>
      cases read
      exact @Node.linedUpIn_of_values _ _ [] rfl
  | continueLoop =>
      cases read
      exact @Node.linedUpIn_of_values _ _ [] rfl
  | returnValue =>
      obtain ⟨_, rfl, _⟩ | ⟨_, _, _, rfl⟩ := returnValue_ok_iff.1 read <;>
        exact Node.linedUpIn_of_values rfl
  | throwValue =>
      obtain ⟨_, _, _, rfl⟩ := throwValue_ok_iff.1 read
      exact Node.linedUpIn_of_values rfl
  | attempt => exact linesUp_attempt proceeds linesUp state after statement scanned clean read
  | reserved => cases read

include proceeds linesUp in
theorem linesUp_statement : LinesUp tokens (Production.statement inner) .statement := by
  intro state after statement scanned clean read
  rw [statement_run] at read
  split at read
  · exact linesUp_statementOf proceeds linesUp _ state after statement scanned clean read
  · split at read
    · obtain ⟨_, _, _, _, _, _, _, rfl⟩ := assignment_ok_iff.1 read
      exact Node.linedUpIn_of_values rfl
    · obtain ⟨_, _, rfl⟩ := expressionStatement_ok_iff.1 read
      exact Node.linedUpIn_of_values rfl

end

/-- All parts of the statements of a succession are lined up. -/
theorem Succession.linesUp {inBlock : Bool} {statement : Production Stmt}
    (linesUp : LinesUp tokens statement .statement) (proceeds : statement.Proceeds)
    {state final : State} {list : List Stmt}
    (succession : Succession inBlock statement state list final) (scanned : state.ScannedIn tokens)
    (clean : final.sink = Sink.empty) :
    ∀ statement ∈ list, (Node.statement statement).Every (Node.LinedUpIn tokens) := by
  induction succession with
  | nil => simp
  | cons _ _ read _ rest inductionHypothesis =>
      have cleanAfter := (rest.reaches proceeds).sink_eq_empty clean
      exact List.forall_mem_cons.2 ⟨linesUp _ _ _ scanned cleanAfter read,
        inductionHypothesis (scanned.of_reaches (proceeds.of_ok read)) clean⟩

theorem linesUp_blockAt {room : Nat} (linesUp : LevelLinesUp tokens (Level.withRoom room)) :
    LinesUp tokens (blockAt (Level.withRoom room)) .block := by
  intro state after body scanned clean read
  obtain ⟨opens, list, before, readList, closes, rfl, rfl⟩ := blockAt_ok_iff.1 read
  have proceeds := proceeds_statement_withRoom room
  have cleanBefore := (State.Reaches.refl before).advance.sink_eq_empty clean
  have succession := succession_of_statementsWithin proceeds (consumes_statement_withRoom room)
    scanned.advance.scanned (Nat.le_refl _) readList cleanBefore
  have statements := succession.linesUp
    (linesUp_statement (levelProceeds_withRoom room) linesUp) proceeds scanned.advance cleanBefore
  refine Node.every_of_children ?_ (Node.forall_ofStatements _ statements)
  obtain ⟨opening, aheadOpening, isOpening⟩ := scanned.scanned.exists_current (by simp [opens])
  obtain ⟨inside, aheadInside, linedUp⟩ := succession.linedUp scanned.advance.scanned
  have beforeScanned := scanned.advance.scanned.of_reaches (succession.reaches proceeds)
  obtain ⟨closing, aheadClosing, isClosing⟩ := beforeScanned.exists_current (by simp [closes])
  obtain ⟨earlier, split⟩ := scanned.within
  refine ⟨earlier, opening, inside, closing, before.advance.upcoming, ?_, isOpening, ?_,
    aheadClosing ▸ linedUp⟩
  · rw [← split, aheadOpening, aheadInside, aheadClosing]
  · rw [isClosing]
    exact closes

/-- At every level of nesting, what is read without diagnostics is lined up. -/
theorem levelLinesUp_withRoom (room : Nat) : LevelLinesUp tokens (Level.withRoom room) := by
  induction room with
  | zero => exact ⟨linesUp_tooDeep, linesUp_tooDeep, linesUp_tooDeep⟩
  | succ room inductionHypothesis =>
      have proceeds := levelProceeds_withRoom room
      exact ⟨(linesUp_blockAt inductionHypothesis).deeper,
        (linesUp_conditionalAt proceeds inductionHypothesis).deeper,
        (linesUp_statement proceeds inductionHypothesis).deeper⟩

end Production

/-- Every list of statements of a script without diagnostics is lined up among its tokens. -/
theorem parse_linedUp {source : String} (clean : (parse source).2.entries = []) :
    (Node.program (parse source).1).Every
      (Node.LinedUpIn (Cursor.ofSource source).scan.tokens) := by
  obtain ⟨final, succession, cleanFinal, ended⟩ := parse_succession clean
  have scanned := State.scanned_ofSource source
  have statements := succession.linesUp
    (Production.linesUp_statement (Production.levelProceeds_withRoom maxNesting)
      (Production.levelLinesUp_withRoom maxNesting))
    (Production.proceeds_statement_withRoom maxNesting) ⟨scanned, List.suffix_rfl⟩ cleanFinal
  obtain ⟨tokens, ahead, linedUp⟩ := succession.linedUp scanned
  rw [ended, List.append_nil] at ahead
  rw [ended, ← ahead] at linedUp
  exact Node.every_of_children linedUp (Node.forall_ofStatements _ statements)

end AgentScript
