import AgentScript.Proofs.Reading.Progress.Productions
import AgentScript.Proofs.Token.Forms
import AgentScript.Proofs.Tree.Entries
import AgentScript.Proofs.Tree.Lawful

/-!
Contract: every tree that reading gives is well formed, whatever else is wrong with the script.

Owns:
- productions all of whose values have a property;
- one statement for each form of the grammar, and from them the statement for every level of
  nesting;
- the statement for whole scripts, also where reading resumed after an error.
-/

set_option autoImplicit false

namespace AgentScript

theorem State.Scanned.current_is {state : State} {kind : Kind} (scanned : state.Scanned)
    (kind_eq : state.kind = kind) (token : kind ≠ .endOfInput) : state.current.Is kind :=
  ⟨kind_eq, scanned.current_wellSpelled (kind_eq ▸ token)⟩

namespace Production

variable {α β : Type} {good : α → Prop}

/-- Every value that a production reads has the property. -/
def Builds (production : Production α) (good : α → Prop) : Prop :=
  ∀ (state after : State) (value : α), state.Scanned → production state = .ok value after →
    good value

theorem Builds.deeper {production : Production α} (builds : production.Builds good) :
    (deeper production).Builds good := by
  intro state after value scanned read
  obtain ⟨inside, readInside, _⟩ := deeper_ok_iff.1 read
  exact builds _ inside value (scanned.deeper _) readInside

theorem builds_tooDeep : (tooDeep : Production α).Builds good := fun _ _ _ _ read => nomatch read

theorem Builds.after? {production : Production α} (builds : production.Builds good) (kind : Kind) :
    (after? kind production).Builds fun read => ∀ value ∈ read, good value := by
  intro state after value scanned read
  obtain ⟨_, first, readFirst, rfl⟩ | ⟨_, rfl, _⟩ := after?_ok_iff.1 read
  · rintro _ ⟨⟩
    exact builds _ _ _ scanned.advance readFirst
  · simp

theorem builds_iterateWhile {continues : State → Bool} {round : α → Production α}
    (proceeds : ∀ value, (round value).Proceeds)
    (builds : ∀ value, good value → (round value).Builds good) {value : α} (start : good value) :
    (iterateWhile continues round value).Builds good := by
  have within : ∀ (bound : List Lexed) (value : α), good value →
      (iterateWithin continues round bound value).Builds good := by
    intro bound
    induction bound with
    | nil =>
        rintro value start state after _ scanned ⟨⟩
        exact start
    | cons _ bound inductionHypothesis =>
        intro value start state after result scanned read
        rw [iterateWithin, get_bind, ite_run] at read
        split at read
        · obtain ⟨next, middle, readRound, readRest⟩ := bind_ok_iff.1 read
          exact inductionHypothesis next (builds value start state middle next scanned readRound)
            middle after result (scanned.of_reaches ((proceeds value).of_ok readRound)) readRest
        · cases read
          exact start
  exact fun state => within (state.ending :: state.upcoming) value start state

theorem Builds.manyWhile {item : Production α} (proceeds : item.Proceeds)
    (builds : item.Builds good) (continues : State → Bool) :
    (manyWhile continues item).Builds fun items => ∀ value ∈ items, good value := by
  have within : ∀ bound : List Lexed,
      (manyWithin continues item bound).Builds fun items => ∀ value ∈ items, good value := by
    intro bound
    induction bound with
    | nil =>
        rintro state after _ scanned ⟨⟩
        simp
    | cons _ bound inductionHypothesis =>
        intro state after items scanned read
        rw [manyWithin, get_bind, ite_run] at read
        split at read
        · obtain ⟨first, middle, readItem, readRest⟩ := bind_ok_iff.1 read
          obtain ⟨rest, readMore, rfl⟩ := bind_pure_ok_iff.1 readRest
          have goodRest := inductionHypothesis middle after rest
            (scanned.of_reaches (proceeds.of_ok readItem)) readMore
          have goodFirst := builds state middle first scanned readItem
          simpa using ⟨goodFirst, goodRest⟩
        · cases read
          simp
  exact fun state => within (state.ending :: state.upcoming) state

theorem Builds.listOf {item : Production α} (proceeds : item.Proceeds) (builds : item.Builds good)
    (listing : Listing) :
    (listOf listing item).Builds fun items => ∀ value ∈ items, good value := by
  intro state after items scanned read
  rw [listOf_eq] at read
  obtain ⟨_, before, readItems, readClosing⟩ := bind_ok_iff.1 read
  obtain ⟨_, ⟨⟩⟩ := expect_bind_ok_iff.1 readClosing
  refine Builds.manyWhile (proceeds.listItem listing) ?_ _ state before _ scanned readItems
  intro start middle value startScanned readItem
  obtain ⟨first, ended, readFirst, readEnd⟩ := bind_ok_iff.1 readItem
  obtain ⟨_, _, _, ⟨⟩⟩ := bind_ok_iff.1 readEnd
  exact builds start ended _ startScanned readFirst

/-! ## Types -/

theorem builds_typeExpr (power : BindingPower) : (typeExpr power).Builds TypeExpr.WellFormed := by
  intro state after type scanned read
  obtain ⟨name, middle, readName, readSuffixes⟩ := bind_ok_iff.1 read
  have course := proceeds_typeName.of_ok readName
  obtain ⟨names, rfl, _⟩ := typeName_ok_iff.1 readName
  have token : state.kind ≠ .endOfInput := by
    intro ended
    rw [ended] at names
    exact absurd names (by decide)
  have start : (TypeExpr.named state.current.value).WellFormed :=
    ⟨state.kind, names, scanned.current_wellSpelled token⟩
  refine builds_iterateWhile proceeds_arraySuffix ?_ start middle after type
    (scanned.of_reaches course) readSuffixes
  intro element goodElement _ _ _ _ readSuffix
  obtain ⟨_, _, rfl, _⟩ := arraySuffix_ok_iff.1 readSuffix
  exact goodElement

theorem builds_declaredType? :
    declaredType?.Builds fun type? => ∀ type ∈ type?, type.WellFormed :=
  (builds_typeExpr .default).after? .colon

theorem builds_parameter : parameter.Builds Parameter.WellFormed := by
  intro state after value scanned read
  obtain ⟨identifier, type?, readType, rfl⟩ := parameter_ok_iff.1 read
  exact ⟨scanned.current_is identifier (by decide),
    builds_declaredType? _ _ _ scanned.advance readType⟩

/-! ## Expressions -/

/-- What is read one level further in is well formed. -/
structure LevelBuilds (inner : Level) : Prop where
  expression : ∀ power, (inner.expression power).Builds Expr.WellFormed
  block : inner.block.Builds fun body => (Stmt.block body).WellFormed
  conditional : inner.conditional.Builds fun statement =>
    statement.WellFormed ∧ statement.isAlternative = true ∧ statement.isBlock = false
  statement : inner.statement.Builds fun statement =>
    statement.WellFormed ∧ statement.isBlock = false

theorem wordOperand_wellFormed {token : Token} (name : token.Is .identifier) :
    (wordOperand token).WellFormed := by
  unfold wordOperand
  split_ifs with isTrue isFalse isNull
  · exact .boolean name isTrue
  · exact .boolean name isFalse
  · exact .null name isNull
  · exact .identifier name (by simp [IsValueWord, isTrue, isFalse, isNull])

theorem tokenOperand?_wellFormed {token : Token} {value : Expr}
    (form : token.kind.operandForm? = some .primary) (wellSpelled : token.WellSpelled)
    (found : tokenOperand? token = some value) : value.WellFormed := by
  unfold tokenOperand? at found
  cases kind : token.kind with
  | number =>
      rw [kind] at found
      obtain ⟨decimal, value, rfl⟩ := Option.map_eq_some_iff.1 found
      exact .number ⟨kind, wellSpelled⟩ value
  | identifier =>
      rw [kind] at found
      cases found
      exact wordOperand_wellFormed ⟨kind, wellSpelled⟩
  | string =>
      rw [kind] at found
      cases found
      exact .string ⟨kind, wellSpelled⟩
  | template =>
      rw [kind] at found
      cases found
      exact .template ⟨kind, wellSpelled⟩
  | _ =>
      rw [kind] at form
      cases form

section

variable {inner : Level} (proceeds : LevelProceeds inner) (builds : LevelBuilds inner)

include proceeds builds in
theorem builds_expressionList (closing : Kind) :
    (expressionList inner closing).Builds fun values => ∀ value ∈ values, value.WellFormed :=
  (builds.expression .default).listOf (proceeds.expression .default) _

include builds in
theorem builds_grouping : (grouping inner).Builds Expr.WellFormed := by
  intro state after value scanned read
  obtain ⟨_, before, readValue, _⟩ := grouping_ok_iff.1 read
  exact builds.expression .default _ before value scanned.advance readValue

include builds in
theorem builds_keyed {key : Production String} (proceedsKey : key.Proceeds)
    (goodKey : String → Prop) (buildsKey : key.Builds goodKey) :
    (keyed inner key).Builds fun pair => goodKey pair.1 ∧ pair.2.WellFormed := by
  intro state after pair scanned read
  obtain ⟨before, readKey, _, readValue⟩ := keyed_ok_iff.1 read
  exact ⟨buildsKey _ _ _ scanned readKey, builds.expression .default _ _ _
    (scanned.of_reaches (proceedsKey.of_ok readKey)).advance readValue⟩

include proceeds builds in
theorem builds_operand : (operand inner).Builds Expr.WellFormed := by
  intro state after value scanned read
  rw [operand_run] at read
  have token : state.kind ≠ .endOfInput := by
    intro ended
    rw [ended] at read
    cases read
  have spelled := scanned.current_wellSpelled token
  split at read
  · next form =>
      obtain ⟨found, _⟩ := primary_ok_iff.1 read
      exact tokenOperand?_wellFormed form spelled found
  · next form =>
      obtain ⟨operand, readOperand, rfl⟩ := unary_ok_iff.1 read
      exact .unary form spelled (builds.expression _ _ _ _ scanned.advance readOperand)
  · exact builds_grouping builds state after value scanned read
  · next form =>
      obtain ⟨elements, readElements, rfl⟩ := arrayLiteral_ok_iff.1 read
      have bracket := Kind.operandForm?_eq_array_iff.1 form
      exact .array (scanned.current_is bracket (by decide))
        (builds_expressionList proceeds builds _ _ _ _ scanned.advance readElements)
  · next form =>
      obtain ⟨pairs, readPairs, rfl⟩ := objectLiteral_ok_iff.1 read
      have brace := Kind.operandForm?_eq_object_iff.1 form
      have goodPairs := (builds_keyed builds proceeds_objectKey (fun _ => True)
        fun _ _ _ _ _ => trivial).listOf
          (proceeds_keyed proceeds proceeds_objectKey) _ _ _ _ scanned.advance readPairs
      exact .object (scanned.current_is brace (by decide)) (Entries.nodup_keys_ofPairs pairs)
        fun entry member => (goodPairs entry (Entries.mem_of_mem_ofPairs member)).2
  · cases read

include proceeds builds in
theorem builds_continuation {left : Expr} (goodLeft : left.WellFormed) :
    (continuation inner left).Builds Expr.WellFormed := by
  intro state after value scanned read
  rw [continuation_run] at read
  by_cases token : state.kind = .endOfInput
  · rw [token] at read
    cases read
    exact goodLeft
  have spelled := scanned.current_wellSpelled token
  split at read
  · next form =>
      obtain ⟨right, readRight, rfl⟩ := pipe_ok_iff.1 read
      have sign := Kind.infixForm?_eq_pipe_iff.1 form
      exact .pipe ⟨sign, spelled⟩ goodLeft (builds.expression _ _ _ _ scanned.advance readRight)
  · next form =>
      obtain ⟨right, readRight, rfl⟩ := binary_ok_iff.1 read
      exact .binary form spelled goodLeft (builds.expression _ _ _ _ scanned.advance readRight)
  · next form =>
      obtain ⟨arguments, readArguments, rfl⟩ := call_ok_iff.1 read
      have paren := Kind.infixForm?_eq_call_iff.1 form
      exact .call ⟨paren, spelled⟩ goodLeft
        (builds_expressionList proceeds builds _ _ _ _ scanned.advance readArguments)
  · next form =>
      obtain ⟨names, rfl, _⟩ := member_ok_iff.1 read
      have dot := Kind.infixForm?_eq_member_iff.1 form
      have property : state.advance.kind ≠ .endOfInput := by
        intro ended
        rw [ended] at names
        exact absurd names (by decide)
      exact .member ⟨dot, spelled⟩ names (scanned.advance.current_wellSpelled property) goodLeft
  · next form =>
      obtain ⟨position, before, readPosition, _, rfl, _⟩ := index_ok_iff.1 read
      have bracket := Kind.infixForm?_eq_index_iff.1 form
      exact .index ⟨bracket, spelled⟩ goodLeft
        (builds.expression _ _ _ _ scanned.advance readPosition)
  · cases read
    exact goodLeft

include proceeds builds in
theorem builds_expressionAt (power : BindingPower) :
    (expressionAt inner power).Builds Expr.WellFormed := by
  intro state after value scanned read
  obtain ⟨left, middle, readLeft, readRest⟩ := expressionAt_ok_iff.1 read
  exact builds_iterateWhile (proceeds_continuation proceeds)
    (fun _ => builds_continuation proceeds builds)
    (builds_operand proceeds builds state middle left scanned readLeft) middle after value
    (scanned.of_reaches ((proceeds_operand proceeds).of_ok readLeft)) readRest

end

/-! ## Statements -/

theorem builds_configKey : configKey.Builds IsMemberName := by
  intro state after key scanned read
  obtain ⟨names, rfl, _⟩ := configKey_ok_iff.1 read
  have token : state.kind ≠ .endOfInput := by
    intro ended
    rw [ended] at names
    exact absurd names (by decide)
  exact ⟨state.kind, names, scanned.current_wellSpelled token⟩

theorem builds_furtherName : furtherName.Builds (Token.Is .identifier) := by
  intro state after name scanned read
  obtain ⟨identifier, rfl, _⟩ := furtherName_ok_iff.1 read
  exact scanned.advance.current_is identifier (by decide)

/-- The names of an import: at least one, and exactly one without brackets. -/
theorem builds_importedNames :
    importedNames.Builds fun read => read.1 ≠ [] ∧ (∀ name ∈ read.1, name.Is .identifier) ∧
      (read.2 = false → read.1.length = 1) := by
  intro state after read scanned readNames
  obtain ⟨_, names, readBraced, rfl⟩ | ⟨identifier, rfl, _⟩ := importedNames_ok_iff.1 readNames
  · obtain ⟨_, identifier, rest, before, readRest, _, rfl, _⟩ := bracedNames_ok_iff.1 readBraced
    have goodFirst := scanned.advance.current_is identifier (by decide)
    have goodRest := builds_furtherName.manyWhile proceeds_furtherName _ _ _ _
      scanned.advance.advance readRest
    exact ⟨by simp, by simpa using ⟨goodFirst, goodRest⟩, by simp⟩
  · have goodName := scanned.current_is identifier (by decide)
    exact ⟨by simp, by simpa using goodName, by simp⟩

section

variable {inner : Level} (proceeds : LevelProceeds inner) (builds : LevelBuilds inner)

include proceeds builds in
theorem builds_configBody :
    (configBody inner).Builds fun entries => (Entries.keys entries).Nodup ∧
      (∀ entry ∈ entries, IsMemberName entry.1) ∧ ∀ entry ∈ entries, entry.2.WellFormed := by
  intro state after entries scanned read
  obtain ⟨_, pairs, readPairs, rfl⟩ := configBody_ok_iff.1 read
  have goodPairs := (builds_keyed builds proceeds_configKey _ builds_configKey).listOf
    (proceeds_keyed proceeds proceeds_configKey) _ _ _ _ scanned.advance readPairs
  have goodEntries := fun entry member => goodPairs entry (Entries.mem_of_mem_ofPairs member)
  exact ⟨Entries.nodup_keys_ofPairs pairs, fun entry member => (goodEntries entry member).1,
    fun entry member => (goodEntries entry member).2⟩

include builds in
theorem builds_alternative : (alternative inner).Builds fun statement =>
    statement.WellFormed ∧ statement.isAlternative = true := by
  intro state after statement scanned read
  obtain ⟨_, readConditional⟩ | ⟨_, body, readBody, rfl⟩ := alternative_ok_iff.1 read
  · have good := builds.conditional _ _ _ scanned readConditional
    exact ⟨good.1, good.2.1⟩
  · exact ⟨builds.block _ _ _ scanned readBody, rfl⟩

include proceeds builds in
theorem builds_conditionalAt : (conditionalAt inner).Builds fun statement =>
    statement.WellFormed ∧ statement.isAlternative = true ∧ statement.isBlock = false := by
  intro state after statement scanned read
  obtain ⟨keyword, value, afterCondition, readCondition, consequence, afterBlock, readBlock,
    alternative?, readAlternative, rfl⟩ := conditionalAt_ok_iff.1 read
  have afterScanned := scanned.advance.of_reaches
    ((proceeds_condition proceeds).of_ok readCondition)
  have blockScanned := afterScanned.of_reaches (proceeds.block.of_ok readBlock)
  have goodAlternative := (builds_alternative builds).after? _ _ _ _ blockScanned readAlternative
  exact ⟨.conditional (scanned.current_is keyword (by decide))
    (builds_grouping builds _ _ _ scanned.advance readCondition)
    (builds.block _ _ _ afterScanned readBlock)
    (fun alternative member => (goodAlternative alternative member).1)
    (fun alternative member => (goodAlternative alternative member).2), rfl, rfl⟩

include builds in
theorem builds_handler : (handler inner).Builds fun read =>
    read.1.Is .identifier ∧ (Stmt.block read.2).WellFormed := by
  intro state after read scanned readHandler
  obtain ⟨_, identifier, _, body, readBody, rfl⟩ := handler_ok_iff.1 readHandler
  exact ⟨scanned.advance.current_is identifier (by decide),
    builds.block _ _ _ scanned.advance.advance.advance readBody⟩

include proceeds builds in
theorem builds_statementOf {form : StatementForm} {state after : State} {statement : Stmt}
    (scanned : state.Scanned) (starts : state.kind.statementForm? = some form)
    (read : statementOf inner form state = .ok statement after) :
    statement.WellFormed ∧ statement.isBlock = false := by
  have keyword {only : Keyword} (onlyWord : Keyword.ofForm? form = some only) :
      state.current.Is (.keyword only) :=
    scanned.current_is (Kind.eq_of_statementForm? starts onlyWord) (by simp)
  have onward := scanned.advance
  cases form with
  | config =>
      obtain ⟨identifier, entries, readBody, rfl⟩ := configDeclaration_ok_iff.1 read
      have good := builds_configBody proceeds builds _ _ _ onward.advance readBody
      have spelled := scanned.current_wellSpelled (by
        intro ended
        rw [ended] at starts
        cases starts)
      exact ⟨.config starts spelled rfl (onward.current_is identifier (by decide)) good.1 good.2.1
        good.2.2, rfl⟩
  | tool =>
      obtain ⟨identifier, _, parameters, afterParameters, readParameters, type?, afterType,
        readType, body, readBody, rfl⟩ := toolDeclaration_ok_iff.1 read
      have parametersScanned := onward.advance.advance.of_reaches
        ((proceeds_parameter.listOf _).of_ok readParameters)
      have typeScanned := parametersScanned.of_reaches (proceeds_declaredType?.of_ok readType)
      exact ⟨.tool (keyword rfl) (onward.current_is identifier (by decide))
        (builds_parameter.listOf proceeds_parameter _ _ _ _ onward.advance.advance readParameters)
        (builds_declaredType? _ _ _ parametersScanned readType)
        (builds.block _ _ _ typeScanned readBody), rfl⟩
  | importNames =>
      obtain ⟨names, before, readNames, _, _, rfl, _⟩ := importDeclaration_ok_iff.1 read
      obtain ⟨nonempty, goodNames, single⟩ := builds_importedNames _ _ _ onward readNames
      exact ⟨.importNames (keyword rfl) nonempty goodNames single, rfl⟩
  | exported =>
      obtain ⟨exported, readStatement, exportable, rfl⟩ := exportDeclaration_ok_iff.1 read
      exact ⟨.exported (keyword rfl) exportable
        (builds.statement _ _ _ onward readStatement).1, rfl⟩
  | conditional =>
      have good := builds.conditional _ _ _ scanned read
      exact ⟨good.1, good.2.2⟩
  | whileLoop =>
      obtain ⟨value, before, readCondition, body, readBody, rfl⟩ := whileLoop_ok_iff.1 read
      have bodyScanned := onward.of_reaches ((proceeds_condition proceeds).of_ok readCondition)
      exact ⟨.whileLoop (keyword rfl) (builds_grouping builds _ _ _ onward readCondition)
        (builds.block _ _ _ bodyScanned readBody), rfl⟩
  | forOf =>
      obtain ⟨_, identifier, _, value, before, readIterable, _, body, readBody, rfl⟩ :=
        forOf_ok_iff.1 read
      have iterableScanned := onward.advance.advance.advance
      have bodyScanned := (iterableScanned.of_reaches
        ((proceeds.expression _).of_ok readIterable)).advance
      exact ⟨.forOf (keyword rfl) (onward.advance.current_is identifier (by decide))
        (builds.expression _ _ _ _ iterableScanned readIterable)
        (builds.block _ _ _ bodyScanned readBody), rfl⟩
  | breakLoop =>
      cases read
      exact ⟨.breakLoop (keyword rfl), rfl⟩
  | continueLoop =>
      cases read
      exact ⟨.continueLoop (keyword rfl), rfl⟩
  | returnValue =>
      obtain ⟨_, rfl, _⟩ | ⟨_, value, readValue, rfl⟩ := returnValue_ok_iff.1 read
      · exact ⟨.returnValue (keyword rfl) (by simp), rfl⟩
      · have good := builds.expression _ _ _ _ onward readValue
        exact ⟨.returnValue (keyword rfl) (by simpa using good), rfl⟩
  | throwValue =>
      obtain ⟨_, value, readValue, rfl⟩ := throwValue_ok_iff.1 read
      exact ⟨.throwValue (keyword rfl) (builds.expression _ _ _ _ onward readValue), rfl⟩
  | attempt =>
      obtain ⟨body, afterBody, readBody, handler?, afterHandler, readHandler, finalizer?,
        readFinalizer, clause, rfl⟩ := attempt_ok_iff.1 read
      have handlerScanned := onward.of_reaches (proceeds.block.of_ok readBody)
      have finalizerScanned := handlerScanned.of_reaches
        (((proceeds_handler proceeds).after? _).of_ok readHandler)
      have goodHandler := (builds_handler builds).after? _ _ _ _ handlerScanned readHandler
      exact ⟨.attempt (keyword rfl) (builds.block _ _ _ onward readBody)
        (fun handler member => (goodHandler handler member).1)
        (fun handler member => (goodHandler handler member).2)
        (builds.block.after? _ _ _ _ finalizerScanned readFinalizer) clause, rfl⟩
  | reserved => cases read

include proceeds builds in
theorem builds_statement : (Production.statement inner).Builds fun statement =>
    statement.WellFormed ∧ statement.isBlock = false := by
  intro state after statement scanned read
  rw [statement_run] at read
  split at read
  · next starts => exact builds_statementOf proceeds builds scanned starts read
  · split at read
    · obtain ⟨identifier, type?, before, readType, _, value, readValue, rfl⟩ :=
        assignment_ok_iff.1 read
      have valueScanned := (scanned.advance.of_reaches
        (proceeds_declaredType?.of_ok readType)).advance
      exact ⟨.assignment (scanned.current_is identifier (by decide))
        (builds_declaredType? _ _ _ scanned.advance readType)
        (builds.expression _ _ _ _ valueScanned readValue), rfl⟩
    · obtain ⟨value, readValue, rfl⟩ := expressionStatement_ok_iff.1 read
      exact ⟨.expression (builds.expression _ _ _ _ scanned readValue), rfl⟩

/-- The statements of a list are well formed, also of a list with statements left out. -/
theorem statementsWithin_builds {statement : Production Stmt} {good : Stmt → Prop}
    (proceeds : statement.Proceeds) (builds : statement.Builds good) (inBlock : Bool)
    (bound : List Lexed) (state : State) (scanned : state.Scanned) :
    ∀ read ∈ (statementsWithin inBlock statement bound state).1, good read := by
  induction bound generalizing state with
  | nil => simp [statementsWithin]
  | cons _ bound inductionHypothesis =>
      unfold statementsWithin
      split
      · simp
      · split
        · exact inductionHypothesis _ (scanned.of_reaches (.advance (.report _ (.refl _))))
        · split
          · next first after read =>
              have goodRest := inductionHypothesis (checkSeparated inBlock after)
                (scanned.of_reaches ((proceeds.of_ok read).trans
                  (State.Reaches.checkSeparated inBlock after)))
              have goodFirst := builds state after first scanned read
              simpa using ⟨goodFirst, goodRest⟩
          · next diagnostic failed read =>
              have course := proceeds state
              rw [read] at course
              exact inductionHypothesis _ (scanned.of_reaches
                (course.trans ((State.Reaches.report diagnostic (.refl failed)).trans
                  (State.Reaches.recover state (failed.report_sink_ne_empty _)))))

include proceeds builds in
theorem builds_blockAt : (blockAt inner).Builds fun body => (Stmt.block body).WellFormed := by
  intro state after body scanned read
  obtain ⟨brace, list, before, readList, _, rfl, _⟩ := blockAt_ok_iff.1 read
  have good := statementsWithin_builds (proceeds_statement proceeds)
    (builds_statement proceeds builds) true state.advance.upcoming state.advance scanned.advance
  rw [readList] at good
  exact .block (scanned.current_is brace (by decide)) (fun statement member =>
    (good statement member).1) (fun statement member => (good statement member).2)

end

/-- At every level of nesting, what is read is well formed. -/
theorem levelBuilds_withRoom (room : Nat) : LevelBuilds (Level.withRoom room) := by
  induction room with
  | zero => exact ⟨fun _ => builds_tooDeep, builds_tooDeep, builds_tooDeep, builds_tooDeep⟩
  | succ room inductionHypothesis =>
      have proceeds := levelProceeds_withRoom room
      exact ⟨fun power => (builds_expressionAt proceeds inductionHypothesis power).deeper,
        (builds_blockAt proceeds inductionHypothesis).deeper,
        (builds_conditionalAt proceeds inductionHypothesis).deeper,
        (builds_statement proceeds inductionHypothesis).deeper⟩

end Production

/-- The program that a script holds is well formed, whether or not the script has diagnostics. -/
theorem parse_wellFormed (source : String) : (parse source).1.WellFormed := by
  have good := Production.statementsWithin_builds
    (Production.proceeds_statement (Production.levelProceeds_withRoom _))
    (Production.builds_statement (Production.levelProceeds_withRoom _)
      (Production.levelBuilds_withRoom (State.ofSource source).room))
    false (State.ofSource source).upcoming _ (State.scanned_ofSource source)
  exact ⟨fun statement member => (good statement member).1,
    fun statement member => (good statement member).2⟩

/-- Whatever is wrong with a script, every part of its program is lawful. -/
theorem parse_lawful (source : String) : (Node.program (parse source).1).Every Node.Lawful :=
  (show (Node.program (parse source).1).WellFormed from parse_wellFormed source).every_lawful

end AgentScript
