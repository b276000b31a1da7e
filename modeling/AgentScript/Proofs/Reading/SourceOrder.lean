import AgentScript.Proofs.Reading.Gathering
import AgentScript.Proofs.Reading.Lines
import AgentScript.Proofs.Reading.Rounds
import AgentScript.Proofs.Tree.Entries

/-!
Contract: a tree keeps tokens of the script it is read from, in source order.

Owns:
- that every form of the grammar keeps only tokens that are passed for it, one statement for each form
  and from them the statement for every level of nesting;
- lists of statements read in rounds, whatever is skipped between the statements that are kept;
- the statement for whole scripts, with or without diagnostics.

A left operand is read before the operator that it stands under, and a repeated key takes a later
value to the place of an earlier one. Therefore nothing is said of the order in which the parts of a
statement keep their tokens, only that all of them are passed while it is read.
-/

set_option autoImplicit false

namespace AgentScript

namespace Production

/-- What is read one level further in keeps only tokens that are passed for it. -/
structure LevelGathers (inner : Level) : Prop where
  expression : ∀ power, (inner.expression power).Gathers fun among value =>
    (Node.expression value).KeptAmong among
  block : inner.block.Gathers fun among body => (Node.block body).KeptAmong among
  conditional : inner.conditional.Gathers fun among statement =>
    (Node.statement statement).KeptAmong among
  statement : inner.statement.Gathers fun among statement =>
    (Node.statement statement).KeptAmong among

/-! ## Expressions -/

theorem keptAmong_tokenOperand? {token : Token} {value : Expr} {among : Token → Prop}
    (stands : tokenOperand? token = some value) (known : among token) :
    (Node.expression value).KeptAmong among := by
  have leaf : value.ownTokens = [token] ∧ value.children = [] := by
    unfold tokenOperand? wordOperand at stands
    split at stands
    · obtain ⟨number, _, rfl⟩ := Option.map_eq_some_iff.1 stands
      exact ⟨rfl, rfl⟩
    · cases stands
      exact ⟨rfl, rfl⟩
    · cases stands
      exact ⟨rfl, rfl⟩
    · split_ifs at stands <;> cases stands <;> exact ⟨rfl, rfl⟩
  refine Node.keptAmong_expression ?_ ?_
  · rw [leaf.1]
    exact List.forall_mem_singleton.2 known
  · simp [leaf.2]

section

variable {inner : Level} (proceeds : LevelProceeds inner) (consumes : LevelConsumes inner)
  (gathers : LevelGathers inner)

include gathers in
theorem gathers_grouping :
    (grouping inner).Gathers fun among value => (Node.expression value).KeptAmong among := by
  intro state after value ordered read
  obtain ⟨_, before, readValue, _, rfl⟩ := grouping_ok_iff.1 read
  exact (gathers.expression _ _ _ _ ordered.advance readValue).widen
    (State.Reaches.refl state).advance (State.Reaches.refl before).advance

include proceeds consumes gathers in
theorem gathers_expressionList (closing : Kind) :
    (expressionList inner closing).Gathers fun among values =>
      ∀ value ∈ values, (Node.expression value).KeptAmong among :=
  (gathers.expression .default).listOf (proceeds.expression _) (consumes.expression _)
    (widens_node _) _

include proceeds gathers in
/-- The values of entries. Of repeated keys only the last value is kept, and it too was passed. -/
theorem gathers_entries {key : Production String} (proceedsKey : key.Proceeds) (listing : Listing) :
    (listOf listing (keyed inner key)).Gathers fun among pairs =>
      ∀ entry ∈ Entries.ofPairs pairs, (Node.expression entry.2).KeptAmong among := by
  have keyedGathers : (keyed inner key).Gathers fun among pair =>
      (Node.expression pair.2).KeptAmong among := by
    intro state after pair ordered read
    obtain ⟨before, readKey, _, readValue⟩ := keyed_ok_iff.1 read
    have course := proceedsKey.of_ok readKey
    exact (gathers.expression _ _ _ _ (ordered.of_reaches course).advance readValue).widen
      course.advance (.refl after)
  intro state after pairs ordered read entry member
  exact keyedGathers.listOf (proceeds_keyed proceeds proceedsKey)
    (consumes_keyed proceeds proceedsKey) (widens_node fun pair : String × Expr => .expression pair.2)
    listing _ _ _ ordered read entry (Entries.mem_of_mem_ofPairs member)

include proceeds consumes gathers in
theorem gathers_operand :
    (operand inner).Gathers fun among value => (Node.expression value).KeptAmong among := by
  intro state after value ordered read
  have isToken := (consumes_operand proceeds consumes).token ordered.scanned read
  have here (course : state.advance.Reaches after) :=
    ordered.scanned.passes_current isToken course
  have onward := (State.Reaches.refl state).advance
  rw [operand_run] at read
  split at read
  · obtain ⟨stands, rfl⟩ := primary_ok_iff.1 read
    exact keptAmong_tokenOperand? stands (here (.refl _))
  · obtain ⟨operand, readOperand, rfl⟩ := unary_ok_iff.1 read
    have own := here ((proceeds.expression _).of_ok readOperand)
    have kept := (gathers.expression _ _ _ _ ordered.advance readOperand).widen onward (.refl _)
    exact Node.keptAmong_expression (List.forall_mem_singleton.2 own)
      (List.forall_mem_singleton.2 kept)
  · exact gathers_grouping gathers state after value ordered read
  · obtain ⟨elements, readElements, rfl⟩ := arrayLiteral_ok_iff.1 read
    have own := here ((proceeds_expressionList proceeds _).of_ok readElements)
    have kept := gathers_expressionList proceeds consumes gathers _ _ _ _ ordered.advance readElements
    exact Node.keptAmong_expression (List.forall_mem_singleton.2 own)
      (List.forall_mem_map.2 fun element member => (kept element member).widen onward (.refl _))
  · obtain ⟨pairs, readPairs, rfl⟩ := objectLiteral_ok_iff.1 read
    have own := here (((proceeds_keyed proceeds proceeds_objectKey).listOf _).of_ok readPairs)
    have kept := gathers_entries proceeds gathers proceeds_objectKey _ _ _ _ ordered.advance readPairs
    exact Node.keptAmong_expression (List.forall_mem_singleton.2 own)
      (List.forall_mem_map.2 fun entry member => (kept entry member).widen onward (.refl _))
  · cases read

include proceeds consumes gathers in
/-- What continues an expression adds its operator and what is read after that to the tokens of the
left side, which were passed before. -/
theorem gathers_continuation {start state after : State} {left value : Expr}
    (toHere : start.Reaches state) (ordered : state.Ordered)
    (read : continuation inner left state = .ok value after)
    (kept : (Node.expression left).KeptAmong (start.Passes state)) :
    (Node.expression value).KeptAmong (start.Passes after) := by
  have beyond (course : state.advance.Reaches after) : state.Reaches after :=
    (State.Reaches.refl state).advance.trans course
  have leftKept (course : state.advance.Reaches after) := kept.widen (.refl start) (beyond course)
  have isToken {form : InfixForm} (found : state.kind.infixForm? = some form) :
      state.kind ≠ .endOfInput := by
    intro ended
    rw [ended] at found
    cases found
  have here {form : InfixForm} (found : state.kind.infixForm? = some form)
      (course : state.advance.Reaches after) : start.Passes after state.current :=
    (ordered.scanned.passes_current (isToken found) course).widen toHere (.refl after)
  have onward := toHere.advance
  rw [continuation_run] at read
  split at read
  · next found =>
      obtain ⟨right, readRight, rfl⟩ := pipe_ok_iff.1 read
      have course := (proceeds.expression _).of_ok readRight
      have rightKept := (gathers.expression _ _ _ _ ordered.advance readRight).widen onward (.refl _)
      exact Node.keptAmong_expression (List.forall_mem_singleton.2 (here found course))
        (List.forall_mem_cons.2 ⟨leftKept course, List.forall_mem_singleton.2 rightKept⟩)
  · next found =>
      obtain ⟨right, readRight, rfl⟩ := binary_ok_iff.1 read
      have course := (proceeds.expression _).of_ok readRight
      have rightKept := (gathers.expression _ _ _ _ ordered.advance readRight).widen onward (.refl _)
      exact Node.keptAmong_expression (List.forall_mem_singleton.2 (here found course))
        (List.forall_mem_cons.2 ⟨leftKept course, List.forall_mem_singleton.2 rightKept⟩)
  · next found =>
      obtain ⟨arguments, readArguments, rfl⟩ := call_ok_iff.1 read
      have course := (proceeds_expressionList proceeds _).of_ok readArguments
      have argumentsKept :=
        gathers_expressionList proceeds consumes gathers _ _ _ _ ordered.advance readArguments
      exact Node.keptAmong_expression (List.forall_mem_singleton.2 (here found course))
        (List.forall_mem_cons.2 ⟨leftKept course, List.forall_mem_map.2 fun argument member =>
          (argumentsKept argument member).widen onward (.refl _)⟩)
  · next found =>
      obtain ⟨names, rfl, rfl⟩ := member_ok_iff.1 read
      have property : start.Passes state.advance.advance state.advance.current :=
        (ordered.advance.scanned.passes_current (fun ended => by
          rw [ended] at names
          cases names) (.refl _)).widen onward (.refl _)
      have course := (State.Reaches.refl state.advance).advance
      exact Node.keptAmong_expression
        (List.forall_mem_cons.2 ⟨here found course, List.forall_mem_singleton.2 property⟩)
        (List.forall_mem_singleton.2 (leftKept course))
  · next found =>
      obtain ⟨position, before, readPosition, _, rfl, rfl⟩ := index_ok_iff.1 read
      have course := ((proceeds.expression _).of_ok readPosition).advance
      have positionKept := (gathers.expression _ _ _ _ ordered.advance readPosition).widen onward
        (State.Reaches.refl before).advance
      exact Node.keptAmong_expression (List.forall_mem_singleton.2 (here found course))
        (List.forall_mem_cons.2 ⟨leftKept course, List.forall_mem_singleton.2 positionKept⟩)
  · cases read
    exact kept

include proceeds consumes gathers in
theorem gathers_expressionAt (power : BindingPower) :
    (expressionAt inner power).Gathers fun among value =>
      (Node.expression value).KeptAmong among := by
  intro state after value ordered read
  obtain ⟨left, middle, readLeft, readRest⟩ := expressionAt_ok_iff.1 read
  have proceedsRound := proceeds_continuation proceeds
  have toMiddle := (proceeds_operand proceeds).of_ok readLeft
  have middleOrdered := ordered.of_reaches toMiddle
  have iterated := (iterateWhile_ok_iff proceedsRound (continuation_consumes proceeds power)
    middleOrdered.scanned).1 readRest
  have leftKept := gathers_operand proceeds consumes gathers _ _ _ ordered readLeft
  -- along the rounds, the left side keeps what is passed since the start of the whole expression
  clear read readRest readLeft
  induction iterated with
  | stop => exact leftKept
  | round _ readRound _ inductionHypothesis =>
      have course := (proceedsRound _).of_ok readRound
      exact inductionHypothesis (toMiddle.trans course) (middleOrdered.of_reaches course)
        (gathers_continuation proceeds consumes gathers toMiddle middleOrdered readRound leftKept)

/-! ## Declarations -/

theorem gathers_parameter : Production.parameter.Gathers fun among read => among read.name := by
  intro state after read ordered readParameter
  obtain ⟨name, _, readType, rfl⟩ := parameter_ok_iff.1 readParameter
  exact ordered.scanned.passes_current (by simp [name]) (proceeds_declaredType?.of_ok readType)

theorem gathers_furtherName : furtherName.Gathers fun among name => among name := by
  intro state after name ordered read
  obtain ⟨identifier, rfl, rfl⟩ := furtherName_ok_iff.1 read
  exact (ordered.advance.scanned.passes_current (by simp [identifier]) (.refl _)).widen
    (State.Reaches.refl state).advance (.refl _)

theorem gathers_importedNames :
    importedNames.Gathers fun among read => ∀ name ∈ read.1, among name := by
  intro state after read ordered readNames
  obtain ⟨_, names, readBraced, rfl⟩ | ⟨identifier, rfl, rfl⟩ := importedNames_ok_iff.1 readNames
  · obtain ⟨_, identifier, rest, before, readRest, _, rfl, rfl⟩ := bracedNames_ok_iff.1 readBraced
    have course := (Proceeds.manyWhile proceeds_furtherName _).of_ok readRest
    have atEnd : before.Reaches (if before.kind = .comma then before.advance else before).advance := by
      split_ifs
      · exact (State.Reaches.refl before).advance.advance
      · exact (State.Reaches.refl before).advance
    have onward := (State.Reaches.refl state).advance
    have restKept := gathers_furtherName.manyWhile proceeds_furtherName consumes_furtherName
      (fun _ _ _ included => included _) moreNames _ _ _ ordered.advance.advance readRest
    refine List.forall_mem_cons.2 ⟨?_, fun name member => ?_⟩
    · exact (ordered.advance.scanned.passes_current (by simp [identifier])
        (course.trans atEnd)).widen onward (.refl _)
    · exact (restKept name member).widen onward.advance atEnd
  · exact List.forall_mem_singleton.2
      (ordered.scanned.passes_current (by simp [identifier]) (.refl _))

/-! ## Statements -/

section

variable {state after : State} {statement : Stmt} (ordered : state.Ordered)
  (isToken : state.kind ≠ .endOfInput)

include proceeds gathers ordered isToken in
theorem gathers_configDeclaration (read : configDeclaration inner state = .ok statement after) :
    (Node.statement statement).KeptAmong (state.Passes after) := by
  obtain ⟨identifier, entries, readBody, rfl⟩ := configDeclaration_ok_iff.1 read
  have course := (proceeds_configBody proceeds).of_ok readBody
  obtain ⟨_, pairs, readPairs, rfl⟩ := configBody_ok_iff.1 readBody
  have onward := (State.Reaches.refl state).advance
  have name := (ordered.advance.scanned.passes_current (by simp [identifier]) course).widen onward
    (.refl _)
  have kept := gathers_entries proceeds gathers proceeds_configKey _ _ _ _
    ordered.advance.advance.advance readPairs
  exact Node.keptAmong_statement
    (ordered.scanned.passes_current isToken ((State.Reaches.refl _).advance.trans course))
    (List.forall_mem_singleton.2 name)
    (Node.forall_ofValues _ (List.forall_mem_map.2 fun entry member =>
      (kept entry member).widen onward.advance.advance (.refl _)))

include proceeds gathers ordered isToken in
theorem gathers_toolDeclaration (read : toolDeclaration inner state = .ok statement after) :
    (Node.statement statement).KeptAmong (state.Passes after) := by
  obtain ⟨identifier, _, parameters, afterParameters, readParameters, type?, afterType, readType, body,
    readBody, rfl⟩ := toolDeclaration_ok_iff.1 read
  have toParameters := (proceeds_parameter.listOf parameterListing).of_ok readParameters
  have fromParameters := (proceeds_declaredType?.of_ok readType).trans
    (proceeds.block.of_ok readBody)
  have toBody := toParameters.trans (proceeds_declaredType?.of_ok readType)
  have course := (State.Reaches.refl state.advance.advance).advance.trans
    (toParameters.trans fromParameters)
  have onward := (State.Reaches.refl state).advance
  have name := (ordered.advance.scanned.passes_current (by simp [identifier]) course).widen onward
    (.refl _)
  have parametersKept := gathers_parameter.listOf proceeds_parameter consumes_parameter
    (fun _ _ _ included => included _) parameterListing _ _ _ ordered.advance.advance.advance
    readParameters
  have bodyKept := gathers.block _ _ _ (ordered.advance.advance.advance.of_reaches toBody) readBody
  refine Node.keptAmong_statement
    (ordered.scanned.passes_current isToken ((State.Reaches.refl _).advance.trans course))
    (List.forall_mem_cons.2 ⟨name, List.forall_mem_map.2 fun parameter member => ?_⟩)
    (Node.keptAmong_ofBlock (bodyKept.widen (onward.advance.advance.trans toBody) (.refl _)))
  exact (parametersKept parameter member).widen onward.advance.advance fromParameters

include ordered isToken in
theorem gathers_importDeclaration (read : importDeclaration state = .ok statement after) :
    (Node.statement statement).KeptAmong (state.Passes after) := by
  obtain ⟨names, before, readNames, _, _, rfl, rfl⟩ := importDeclaration_ok_iff.1 read
  have course := proceeds_importedNames.of_ok readNames
  have atEnd := (State.Reaches.refl before).advance.advance
  have kept := gathers_importedNames _ _ _ ordered.advance readNames
  exact Node.keptAmong_statement (ordered.scanned.passes_current isToken (course.trans atEnd))
    (fun name member => (kept name member).widen (State.Reaches.refl state).advance atEnd) nofun

include gathers in
theorem gathers_alternative :
    (alternative inner).Gathers fun among statement =>
      (Node.statement statement).KeptAmong among := by
  intro state after statement ordered read
  obtain ⟨_, readConditional⟩ | ⟨_, body, readBody, rfl⟩ := alternative_ok_iff.1 read
  · exact gathers.conditional _ _ _ ordered readConditional
  · have kept := gathers.block _ _ _ ordered readBody
    have brace := kept.tokens body.brace
      ⟨0, .block body, .here _, List.mem_singleton_self _⟩
    exact Node.keptAmong_statement brace nofun (Node.keptAmong_ofBlock kept)

include proceeds gathers in
theorem gathers_conditionalAt :
    (conditionalAt inner).Gathers fun among statement =>
      (Node.statement statement).KeptAmong among := by
  intro state after statement ordered read
  obtain ⟨isIf, value, afterCondition, readCondition, consequence, afterBlock, readBlock,
    alternative?, readAlternative, rfl⟩ := conditionalAt_ok_iff.1 read
  have toBlock := (proceeds_condition proceeds).of_ok readCondition
  have passBlock := proceeds.block.of_ok readBlock
  have passAlternative := ((proceeds_alternative proceeds).after? _).of_ok readAlternative
  have onward := (State.Reaches.refl state).advance
  have blockOrdered := ordered.advance.of_reaches toBlock
  have valueKept := (gathers_grouping gathers _ _ _ ordered.advance readCondition).widen onward
    (passBlock.trans passAlternative)
  have blockKept := (gathers.block _ _ _ blockOrdered readBlock).widen (onward.trans toBlock)
    passAlternative
  have alternativeKept := (gathers_alternative gathers).after? (widens_node _) _ _ _ _
    (blockOrdered.of_reaches passBlock) readAlternative
  refine Node.keptAmong_statement (ordered.scanned.passes_current (by simp [isIf])
    (toBlock.trans (passBlock.trans passAlternative))) nofun ?_
  simp only [Stmt.children, List.forall_mem_append]
  refine ⟨⟨Node.keptAmong_ofValue valueKept, Node.keptAmong_ofBlock blockKept⟩,
    Node.forall_ofStatements _ fun alternative member => ?_⟩
  exact (alternativeKept alternative (Option.mem_toList.1 member)).widen
    (onward.trans (toBlock.trans passBlock)) (.refl _)

include proceeds gathers in
theorem gathers_handler :
    (handler inner).Gathers fun among read =>
      among read.1 ∧ (Node.block read.2).KeptAmong among := by
  intro state after read ordered readHandler
  obtain ⟨_, identifier, _, body, readBody, rfl⟩ := handler_ok_iff.1 readHandler
  have course := (State.Reaches.refl state.advance.advance).advance.trans
    (proceeds.block.of_ok readBody)
  have onward := (State.Reaches.refl state).advance
  have name := (ordered.advance.scanned.passes_current (by simp [identifier]) course).widen onward
    (.refl _)
  exact ⟨name, (gathers.block _ _ _ ordered.advance.advance.advance readBody).widen
    onward.advance.advance (.refl _)⟩

include proceeds gathers ordered isToken in
theorem gathers_attempt (read : attempt inner state = .ok statement after) :
    (Node.statement statement).KeptAmong (state.Passes after) := by
  obtain ⟨body, afterBody, readBody, handler?, afterHandler, readHandler, finalizer?, readFinalizer,
    _, rfl⟩ := attempt_ok_iff.1 read
  have passBody := proceeds.block.of_ok readBody
  have passHandler := ((proceeds_handler proceeds).after? _).of_ok readHandler
  have passFinalizer := (proceeds.block.after? _).of_ok readFinalizer
  have onward := (State.Reaches.refl state).advance
  have handlerOrdered := ordered.advance.of_reaches passBody
  have widensHandler : Widens fun among (read : Token × Block) =>
      among read.1 ∧ (Node.block read.2).KeptAmong among :=
    fun _ _ read included kept => ⟨included _ kept.1, kept.2.mono included⟩
  have bodyKept := (gathers.block _ _ _ ordered.advance readBody).widen onward
    (passHandler.trans passFinalizer)
  have handlerKept := (gathers_handler proceeds gathers).after? widensHandler _ _ _ _
    handlerOrdered readHandler
  have finalizerKept := gathers.block.after? (widens_node _) _ _ _ _
    (handlerOrdered.of_reaches passHandler) readFinalizer
  refine Node.keptAmong_statement (ordered.scanned.passes_current isToken
    (passBody.trans (passHandler.trans passFinalizer))) (fun name member => ?_) ?_
  · obtain ⟨clause, isHandler, rfl⟩ := Option.map_eq_some_iff.1 (Option.mem_toList.1 member)
    exact (handlerKept clause isHandler).1.widen (onward.trans passBody) passFinalizer
  · refine Node.forall_ofBlocks _ ?_
    simp only [List.cons_append, List.forall_mem_cons, List.forall_mem_append, Option.mem_toList]
    refine ⟨bodyKept, fun block member => ?_, fun block member => ?_⟩
    · obtain ⟨clause, isHandler, rfl⟩ := Option.map_eq_some_iff.1 member
      exact (handlerKept clause isHandler).2.widen (onward.trans passBody) passFinalizer
    · exact (finalizerKept block member).widen (onward.trans (passBody.trans passHandler)) (.refl _)

include proceeds gathers ordered isToken in
theorem gathers_statementOf {form : StatementForm}
    (read : statementOf inner form state = .ok statement after) :
    (Node.statement statement).KeptAmong (state.Passes after) := by
  have here (course : state.advance.Reaches after) :=
    ordered.scanned.passes_current isToken course
  have onward := (State.Reaches.refl state).advance
  cases form with
  | config => exact gathers_configDeclaration proceeds gathers ordered isToken read
  | tool => exact gathers_toolDeclaration proceeds gathers ordered isToken read
  | importNames => exact gathers_importDeclaration ordered isToken read
  | exported =>
      obtain ⟨exported, readStatement, _, rfl⟩ := exportDeclaration_ok_iff.1 read
      have kept := (gathers.statement _ _ _ ordered.advance readStatement).widen onward (.refl _)
      exact Node.keptAmong_statement (here (proceeds.statement.of_ok readStatement)) nofun
        (List.forall_mem_singleton.2 kept)
  | conditional => exact gathers.conditional _ _ _ ordered read
  | whileLoop =>
      obtain ⟨value, before, readCondition, body, readBody, rfl⟩ := whileLoop_ok_iff.1 read
      have toBody := (proceeds_condition proceeds).of_ok readCondition
      have passBody := proceeds.block.of_ok readBody
      have valueKept := gathers_grouping gathers _ _ _ ordered.advance readCondition
      have bodyKept := gathers.block _ _ _ (ordered.advance.of_reaches toBody) readBody
      exact Node.keptAmong_statement (here (toBody.trans passBody)) nofun
        (List.forall_mem_append.2 ⟨Node.keptAmong_ofValue (valueKept.widen onward passBody),
          Node.keptAmong_ofBlock (bodyKept.widen (onward.trans toBody) (.refl _))⟩)
  | forOf =>
      obtain ⟨_, identifier, _, value, before, readIterable, _, body, readBody, rfl⟩ :=
        forOf_ok_iff.1 read
      have toName := (State.Reaches.refl state.advance).advance
      have toIterable := (State.Reaches.refl state.advance.advance).advance.advance
      have passIterable := (proceeds.expression _).of_ok readIterable
      have passBody := (State.Reaches.refl before).advance.trans (proceeds.block.of_ok readBody)
      have iterableOrdered := ordered.advance.advance.advance.advance
      have name := (ordered.advance.advance.scanned.passes_current (by simp [identifier])
        ((State.Reaches.refl _).advance.trans (passIterable.trans passBody))).widen
          (onward.trans toName) (.refl _)
      have valueKept := (gathers.expression _ _ _ _ iterableOrdered readIterable).widen
        (onward.trans (toName.trans toIterable)) passBody
      have bodyKept := (gathers.block _ _ _ (iterableOrdered.of_reaches passIterable).advance
        readBody).widen (onward.trans (toName.trans (toIterable.trans passIterable.advance)))
          (.refl _)
      exact Node.keptAmong_statement
        (here (toName.trans (toIterable.trans (passIterable.trans passBody))))
        (List.forall_mem_singleton.2 name)
        (List.forall_mem_append.2 ⟨Node.keptAmong_ofValue valueKept,
          Node.keptAmong_ofBlock bodyKept⟩)
  | breakLoop =>
      cases read
      exact Node.keptAmong_statement (here (.refl _)) nofun nofun
  | continueLoop =>
      cases read
      exact Node.keptAmong_statement (here (.refl _)) nofun nofun
  | returnValue =>
      obtain ⟨_, rfl, rfl⟩ | ⟨_, value, readValue, rfl⟩ := returnValue_ok_iff.1 read
      · exact Node.keptAmong_statement (here (.refl _)) nofun nofun
      · have kept := (gathers.expression _ _ _ _ ordered.advance readValue).widen onward (.refl _)
        exact Node.keptAmong_statement (here ((proceeds.expression _).of_ok readValue)) nofun
          (Node.keptAmong_ofValue kept)
  | throwValue =>
      obtain ⟨_, value, readValue, rfl⟩ := throwValue_ok_iff.1 read
      have kept := (gathers.expression _ _ _ _ ordered.advance readValue).widen onward (.refl _)
      exact Node.keptAmong_statement (here ((proceeds.expression _).of_ok readValue)) nofun
        (Node.keptAmong_ofValue kept)
  | attempt => exact gathers_attempt proceeds gathers ordered isToken read
  | reserved => cases read

end

include proceeds consumes gathers in
theorem gathers_statement :
    (Production.statement inner).Gathers fun among statement =>
      (Node.statement statement).KeptAmong among := by
  intro state after statement ordered read
  have isToken := (consumes_statement proceeds consumes).token ordered.scanned read
  have onward := (State.Reaches.refl state).advance
  rw [statement_run] at read
  split at read
  · exact gathers_statementOf proceeds gathers ordered isToken read
  · split at read
    · obtain ⟨_, type?, before, readType, _, value, readValue, rfl⟩ := assignment_ok_iff.1 read
      have toValue := (proceeds_declaredType?.of_ok readType).advance
      have kept := (gathers.expression _ _ _ _ (ordered.advance.of_reaches toValue) readValue).widen
        (onward.trans toValue) (.refl _)
      have own := ordered.scanned.passes_current isToken
        (toValue.trans ((proceeds.expression _).of_ok readValue))
      exact Node.keptAmong_statement own (List.forall_mem_singleton.2 own)
        (Node.keptAmong_ofValue kept)
    · obtain ⟨value, readValue, rfl⟩ := expressionStatement_ok_iff.1 read
      have kept := gathers.expression _ _ _ _ ordered readValue
      have own := State.passes_current_of_lt ((proceeds.expression _).of_ok readValue)
        (consumes.expression _ _ _ _ ordered.scanned readValue)
      exact Node.keptAmong_statement own nofun (Node.keptAmong_ofValue kept)

end

/-! ## Lists of statements -/

/-- Statements that are read in rounds keep tokens passed in these rounds, and are in source order:
each is read where the one before it ends, or later. -/
theorem Rounds.gathers {inBlock : Bool} {room : Nat} {state final : State} {list : List Stmt}
    (gathers : LevelGathers (Level.withRoom room))
    (rounds : Rounds inBlock (Production.statement (Level.withRoom room)) state list final)
    (ordered : state.Ordered) :
    (∀ statement ∈ list, (Node.statement statement).KeptAmong (state.Passes final)) ∧
      StatementsInOrder list := by
  have proceeds := proceeds_statement_withRoom room
  have consumes := consumes_statement_withRoom room
  induction rounds with
  | ends => exact ⟨by simp, ⟨.nil, by simp, .nil⟩⟩
  | @semicolon state final list _ _ inductionHypothesis =>
      have course := (State.Reaches.report (state.faultHere .semicolonSeparator) (.refl state)).advance
      obtain ⟨kept, inOrder⟩ := inductionHypothesis (ordered.of_reaches course)
      exact ⟨fun statement member => (kept statement member).widen course (.refl final), inOrder⟩
  | @failed state failed final diagnostic list read _ inductionHypothesis =>
      have toFailed := proceeds state
      rw [read] at toFailed
      have course := (toFailed.report diagnostic).trans
        (State.Reaches.recover state (failed.report_sink_ne_empty diagnostic))
      obtain ⟨kept, inOrder⟩ := inductionHypothesis (ordered.of_reaches course)
      exact ⟨fun statement member => (kept statement member).widen course (.refl final), inOrder⟩
  | @kept state after final first rest read rounds inductionHypothesis =>
      have toAfter := proceeds.of_ok read
      have separated := State.Reaches.checkSeparated inBlock after
      obtain ⟨restKept, restInOrder⟩ :=
        inductionHypothesis (ordered.of_reaches (toAfter.trans separated))
      have firstKept := gathers_statement (levelProceeds_withRoom room) (levelConsumes_withRoom room)
        gathers _ _ _ ordered read
      have firstToken := token_of_statement read
      have ownOf (statement : Stmt) : (Node.statement statement).Keeps statement.token :=
        ⟨0, _, .here _, List.mem_cons_self⟩
      -- the statements after the first keep only tokens that come after it
      have apart : ∀ second ∈ rest, ∀ token, (Node.statement first).Keeps token →
          token.position.Before second.token.position := by
        intro second member token keeps
        have later := ((restKept second member).tokens _ (ownOf second)).widen separated (.refl final)
        exact ordered.before (firstKept.tokens token keeps) later
      refine ⟨List.forall_mem_cons.2 ⟨?_, fun statement member => ?_⟩, ?_, ?_, ?_⟩
      · exact firstKept.widen (.refl state) (separated.trans (rounds.reaches proceeds))
      · exact (restKept statement member).widen (toAfter.trans separated) (.refl final)
      · exact List.pairwise_cons.2
          ⟨fun second member => apart second member _ (ownOf first), restInOrder.increasing⟩
      · refine List.forall_mem_cons.2 ⟨fun token keeps => ?_, restInOrder.within⟩
        rw [firstToken]
        exact ordered.current_le (firstKept.tokens token keeps)
      · exact List.pairwise_cons.2 ⟨apart, restInOrder.apart⟩

theorem gathers_blockAt {room : Nat} (gathers : LevelGathers (Level.withRoom room)) :
    (blockAt (Level.withRoom room)).Gathers fun among body => (Node.block body).KeptAmong among := by
  intro state after body ordered read
  obtain ⟨opens, list, before, readList, _, rfl, rfl⟩ := blockAt_ok_iff.1 read
  have proceeds := proceeds_statement_withRoom room
  have rounds := @statementsWithin_rounds true _ proceeds (consumes_statement_withRoom room) _ _
    ordered.advance.scanned (Nat.le_refl _)
  rw [readList] at rounds
  obtain ⟨kept, inOrder⟩ := rounds.gathers gathers ordered.advance
  have atEnd := (State.Reaches.refl before).advance
  have brace := ordered.scanned.passes_current (by simp [opens])
    ((rounds.reaches proceeds).trans atEnd)
  exact Node.keptAmong_of_children (List.forall_mem_singleton.2 brace) inOrder
    (Node.forall_ofStatements _ fun statement member =>
      (kept statement member).widen (State.Reaches.refl state).advance atEnd)

/-- At every level of nesting, what is read keeps only tokens that are passed for it. -/
theorem levelGathers_withRoom (room : Nat) : LevelGathers (Level.withRoom room) := by
  induction room with
  | zero =>
      exact ⟨fun _ => gathers_tooDeep _, gathers_tooDeep _, gathers_tooDeep _, gathers_tooDeep _⟩
  | succ room inductionHypothesis =>
      have proceeds := levelProceeds_withRoom room
      have consumes := levelConsumes_withRoom room
      exact ⟨fun power => (gathers_expressionAt proceeds consumes inductionHypothesis power).deeper,
        (gathers_blockAt inductionHypothesis).deeper,
        (gathers_conditionalAt proceeds inductionHypothesis).deeper,
        (gathers_statement proceeds consumes inductionHypothesis).deeper⟩

end Production

/-- Whatever is wrong with a script, every token that its program keeps anywhere is a token of the
script; and the program and each of its blocks have their statements in source order, with all tokens
of a statement from its own place on and before the place of the next. -/
theorem parse_inSourceOrder (source : String) :
    (∀ token, (Node.program (parse source).1).Keeps token → token ∈ (tokenize source).1) ∧
      (Node.program (parse source).1).Every Node.InSourceOrder := by
  have ordered := State.ordered_ofSource source
  obtain ⟨kept, inOrder⟩ := (Production.readProgram_rounds ordered.scanned).gathers
    (Production.levelGathers_withRoom _) ordered
  have whole : (Node.program (parse source).1).KeptAmong
      ((State.ofSource source).Passes (State.ofSource source).readProgram.2) :=
    Node.keptAmong_of_children nofun inOrder (Node.forall_ofStatements _ kept)
  refine ⟨fun token keeps => ?_, whole.order⟩
  have member := (whole.tokens token keeps).mem
  rw [tokenize, Scan.allTokens, List.map_append]
  exact List.mem_append_left _ member

end AgentScript
