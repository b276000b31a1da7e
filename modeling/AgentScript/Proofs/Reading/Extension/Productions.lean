import AgentScript.Proofs.Reading.Extension

/-!
Contract: every form of the grammar is read the same when a sequel follows the script.

Owns: one statement for each form that is read without diagnostics, and from them the statement for
every level of nesting and for the statements of a script.
-/

set_option autoImplicit false

namespace AgentScript.Production

section

variable {sequel : Sequel}

/-! ## Types -/

theorem extendsWithin_typeExpr (power : BindingPower) : (typeExpr power).ExtendsWithin sequel := by
  intro state after type precedes clean token read
  obtain ⟨name, middle, readName, readSuffixes⟩ := bind_ok_iff.1 read
  have middlePrecedes := precedes.of_reaches (proceeds_typeName.of_ok readName)
  have consume : RoundsConsume (continuesType power) arraySuffix :=
    fun state after value next scanned _ read =>
      consumes_arraySuffix value state after next scanned read
  have suffixes := (iterateWhile_ok_iff proceeds_arraySuffix consume middlePrecedes.scanned).1
    readSuffixes
  have course := suffixes.reaches proceeds_arraySuffix
  have stateToken := precedes.scanned.token_of_reaches
    ((proceeds_typeName.of_ok readName).trans course) token
  have nameSame : typeName (state.extended sequel) = .ok name (middle.extended sequel) := by
    obtain ⟨names, rfl, rfl⟩ := typeName_ok_iff.1 readName
    obtain ⟨kind, current, onward⟩ := precedes.sees rfl stateToken
    exact typeName_ok_iff.2 ⟨by rw [kind, names], by rw [current], onward⟩
  refine bind_ok_iff.2 ⟨name, middle.extended sequel, nameSame, ?_⟩
  refine (iterateWhile_ok_iff proceeds_arraySuffix consume middlePrecedes.scanned_extended).2
    (suffixes.extended proceeds_arraySuffix ?_ ?_ middlePrecedes clean)
  · intro state precedes course
    unfold continuesType
    rw [precedes.kind_extended (precedes.scanned.token_of_reaches course token)]
  · intro element next state middle precedes _ _ read
    obtain ⟨opens, closes, rfl, rfl⟩ := arraySuffix_ok_iff.1 read
    obtain ⟨kind, _, onward⟩ := precedes.sees opens (by simp)
    obtain ⟨closing, _, last⟩ := precedes.advance.sees closes (by simp)
    exact arraySuffix_ok_iff.2 ⟨kind, by rw [onward, closing], rfl, by rw [onward, last]⟩

theorem extendsWithin_declaredType? : declaredType?.ExtendsWithin sequel := by
  intro state after type? precedes clean token read
  exact extends_after? rfl precedes (fun type read =>
    extendsWithin_typeExpr .default _ _ type precedes.advance clean token read) read

theorem extendsWithin_parameter : parameter.ExtendsWithin sequel := by
  intro state after read precedes clean token run
  obtain ⟨identifier, type?, readType, rfl⟩ := parameter_ok_iff.1 run
  obtain ⟨kind, current, onward⟩ := precedes.sees identifier (by simp)
  refine parameter_ok_iff.2 ⟨kind, type?, ?_, by rw [current]⟩
  rw [onward]
  exact extendsWithin_declaredType? _ _ _ precedes.advance clean token readType

/-! ## Expressions -/

/-- What is read one level further in without diagnostics is read the same when the sequel follows.
-/
structure LevelExtends (sequel : Sequel) (inner : Level) : Prop where
  expression : ∀ power, (inner.expression power).Extends sequel
  block : inner.block.Extends sequel
  conditional : inner.conditional.Extends sequel
  statement : inner.statement.ExtendsLeft sequel

theorem extends_objectKey : objectKey.Extends sequel := by
  intro state after key precedes clean read
  obtain ⟨isKey, same, rfl⟩ := objectKey_ok_iff.1 read
  have token : state.kind ≠ .endOfInput := by rcases isKey with kind | kind <;> simp [kind]
  obtain ⟨kind, current, onward⟩ := precedes.sees rfl token
  exact objectKey_ok_iff.2 ⟨kind ▸ isKey, by rw [current, same], onward⟩

theorem extends_configKey : configKey.Extends sequel := by
  intro state after key precedes clean read
  obtain ⟨names, same, rfl⟩ := configKey_ok_iff.1 read
  obtain ⟨kind, current, onward⟩ := precedes.sees rfl (Printed.isToken_of_namesMember names).2.1
  exact configKey_ok_iff.2 ⟨kind ▸ names, by rw [current, same], onward⟩

section

variable {inner : Level} (proceeds : LevelProceeds inner) (consumes : LevelConsumes inner)
  (same : LevelExtends sequel inner)

include proceeds same in
theorem extends_grouping : (grouping inner).Extends sequel := by
  intro state after value precedes clean read
  obtain ⟨opens, before, readValue, closes, rfl⟩ := grouping_ok_iff.1 read
  have cleanBefore := (State.Reaches.refl before).advance.sink_eq_empty clean
  have beforePrecedes := precedes.advance.of_reaches ((proceeds.expression _).of_ok readValue)
  obtain ⟨kind, _, onward⟩ := precedes.sees opens (by simp)
  obtain ⟨closing, _, last⟩ := beforePrecedes.sees closes (by simp)
  refine grouping_ok_iff.2 ⟨kind, before.extended sequel, ?_, closing, last⟩
  rw [onward]
  exact same.expression _ _ _ _ precedes.advance cleanBefore readValue

include proceeds consumes same in
theorem extends_expressionList {closing : Kind} (token : closing ≠ .endOfInput) :
    (expressionList inner closing).Extends sequel :=
  extends_listOf (proceeds.expression _) (consumes.expression _) (same.expression _).within token

include proceeds same in
theorem extends_keyed {key : Production String} (proceedsKey : key.Proceeds)
    (sameKey : key.Extends sequel) : (keyed inner key).Extends sequel := by
  intro state after pair precedes clean read
  obtain ⟨before, readKey, colon, readValue⟩ := keyed_ok_iff.1 read
  have cleanBefore := ((State.Reaches.refl before).advance.trans
    ((proceeds.expression _).of_ok readValue)).sink_eq_empty clean
  have beforePrecedes := precedes.of_reaches (proceedsKey.of_ok readKey)
  obtain ⟨kind, _, onward⟩ := beforePrecedes.sees colon (by simp)
  refine keyed_ok_iff.2 ⟨before.extended sequel, sameKey _ _ _ precedes cleanBefore readKey, kind, ?_⟩
  rw [onward]
  exact same.expression _ _ _ _ beforePrecedes.advance clean readValue

include proceeds same in
theorem extends_entries {key : Production String} (proceedsKey : key.Proceeds)
    (sameKey : key.Extends sequel) {listing : Listing} (token : listing.closing ≠ .endOfInput) :
    (listOf listing (keyed inner key)).Extends sequel :=
  extends_listOf (proceeds_keyed proceeds proceedsKey) (consumes_keyed proceeds proceedsKey)
    (extends_keyed proceeds same proceedsKey sameKey).within token

include proceeds consumes same in
theorem extends_operand : (operand inner).Extends sequel := by
  intro state after value precedes clean read
  have token : state.kind ≠ .endOfInput := by
    intro ended
    rw [operand_run, ended] at read
    cases read
  obtain ⟨kind, current, onward⟩ := precedes.sees rfl token
  rw [operand_run] at read ⊢
  rw [kind]
  split at read
  · obtain ⟨stands, rfl⟩ := primary_ok_iff.1 read
    exact primary_ok_iff.2 ⟨by rw [current, stands], onward⟩
  · obtain ⟨operand, readOperand, rfl⟩ := unary_ok_iff.1 read
    refine unary_ok_iff.2 ⟨operand, ?_, by rw [current]⟩
    rw [onward]
    exact same.expression _ _ _ _ precedes.advance clean readOperand
  · exact extends_grouping proceeds same _ _ _ precedes clean read
  · obtain ⟨elements, readElements, rfl⟩ := arrayLiteral_ok_iff.1 read
    refine arrayLiteral_ok_iff.2 ⟨elements, ?_, by rw [current]⟩
    rw [onward]
    exact extends_expressionList proceeds consumes same (by simp) _ _ _ precedes.advance clean
      readElements
  · obtain ⟨pairs, readPairs, rfl⟩ := objectLiteral_ok_iff.1 read
    refine objectLiteral_ok_iff.2 ⟨pairs, ?_, by rw [current]⟩
    rw [onward]
    exact extends_entries proceeds same proceeds_objectKey extends_objectKey (by decide) _ _ _
      precedes.advance clean readPairs
  · cases read

include proceeds consumes same in
theorem extends_continuation {left : Expr} {state after : State} {value : Expr}
    (precedes : state.Precedes sequel) (clean : after.sink = Sink.empty)
    (token : state.kind ≠ .endOfInput) (read : continuation inner left state = .ok value after) :
    continuation inner left (state.extended sequel) = .ok value (after.extended sequel) := by
  obtain ⟨kind, current, onward⟩ := precedes.sees rfl token
  rw [continuation_run] at read ⊢
  rw [kind, precedes.power_extended]
  split at read
  · obtain ⟨right, readRight, rfl⟩ := pipe_ok_iff.1 read
    refine pipe_ok_iff.2 ⟨right, ?_, by rw [current]⟩
    rw [onward]
    exact same.expression _ _ _ _ precedes.advance clean readRight
  · obtain ⟨right, readRight, rfl⟩ := binary_ok_iff.1 read
    refine binary_ok_iff.2 ⟨right, ?_, by rw [current]⟩
    rw [onward]
    exact same.expression _ _ _ _ precedes.advance clean readRight
  · obtain ⟨arguments, readArguments, rfl⟩ := call_ok_iff.1 read
    refine call_ok_iff.2 ⟨arguments, ?_, by rw [current]⟩
    rw [onward]
    exact extends_expressionList proceeds consumes same (by simp) _ _ _ precedes.advance clean
      readArguments
  · obtain ⟨names, rfl, rfl⟩ := member_ok_iff.1 read
    obtain ⟨nameKind, name, last⟩ :=
      precedes.advance.sees rfl (Printed.isToken_of_namesMember names).2.1
    exact member_ok_iff.2 ⟨by rw [onward, nameKind, names], by rw [current, onward, name],
      by rw [onward, last]⟩
  · obtain ⟨position, before, readPosition, closes, rfl, rfl⟩ := index_ok_iff.1 read
    have cleanBefore := (State.Reaches.refl before).advance.sink_eq_empty clean
    have beforePrecedes := precedes.advance.of_reaches ((proceeds.expression _).of_ok readPosition)
    obtain ⟨closing, _, last⟩ := beforePrecedes.sees closes (by simp)
    refine index_ok_iff.2 ⟨position, before.extended sequel, ?_, closing, by rw [current], last⟩
    rw [onward]
    exact same.expression _ _ _ _ precedes.advance cleanBefore readPosition
  · cases read
    rfl

include proceeds consumes same in
theorem extends_expressionAt (power : BindingPower) : (expressionAt inner power).Extends sequel := by
  intro state after value precedes clean read
  obtain ⟨left, middle, readLeft, readRest⟩ := expressionAt_ok_iff.1 read
  have middlePrecedes := precedes.of_reaches ((proceeds_operand proceeds).of_ok readLeft)
  have rounds := continuation_consumes proceeds power
  have rest := (iterateWhile_ok_iff (proceeds_continuation proceeds) rounds
    middlePrecedes.scanned).1 readRest
  have cleanMiddle := (rest.reaches (proceeds_continuation proceeds)).sink_eq_empty clean
  refine expressionAt_ok_iff.2 ⟨left, middle.extended sequel,
    extends_operand proceeds consumes same _ _ _ precedes cleanMiddle readLeft, ?_⟩
  refine (iterateWhile_ok_iff (proceeds_continuation proceeds) rounds
    middlePrecedes.scanned_extended).2
      (rest.extended (proceeds_continuation proceeds) ?_ ?_ middlePrecedes clean)
  · intro state precedes _
    rw [precedes.power_extended]
  · intro left next state middle precedes clean goesOn read
    refine extends_continuation proceeds consumes same precedes clean (fun ended => ?_) read
    obtain ⟨form, found⟩ := exists_infixForm? (of_decide_eq_true goesOn)
    rw [ended] at found
    cases found

/-! ## Declarations -/

include proceeds same in
theorem extends_configDeclaration {state after : State} {value : Stmt}
    (precedes : state.Precedes sequel) (clean : after.sink = Sink.empty)
    (token : state.kind ≠ .endOfInput) (read : configDeclaration inner state = .ok value after) :
    configDeclaration inner (state.extended sequel) = .ok value (after.extended sequel) := by
  obtain ⟨identifier, entries, readBody, rfl⟩ := configDeclaration_ok_iff.1 read
  obtain ⟨opens, pairs, readPairs, rfl⟩ := configBody_ok_iff.1 readBody
  obtain ⟨_, keyword, onward⟩ := precedes.sees rfl token
  obtain ⟨kind, name, next⟩ := precedes.advance.sees identifier (by simp)
  obtain ⟨opening, _, inside⟩ := precedes.advance.advance.sees opens (by simp)
  refine configDeclaration_ok_iff.2 ⟨by rw [onward, kind], _, configBody_ok_iff.2
    ⟨by rw [onward, next, opening], pairs, ?_, rfl⟩, by rw [keyword, onward, name]⟩
  rw [onward, next, inside]
  exact extends_entries proceeds same proceeds_configKey extends_configKey (by decide) _ _ _
    precedes.advance.advance.advance clean readPairs

include proceeds consumes same in
theorem extends_toolDeclaration {state after : State} {value : Stmt}
    (precedes : state.Precedes sequel) (clean : after.sink = Sink.empty)
    (token : state.kind ≠ .endOfInput) (read : toolDeclaration inner state = .ok value after) :
    toolDeclaration inner (state.extended sequel) = .ok value (after.extended sequel) := by
  obtain ⟨identifier, opens, parameters, afterParameters, readParameters, type?, afterType, readType,
    body, readBody, rfl⟩ := toolDeclaration_ok_iff.1 read
  have cleanType := (proceeds.block.of_ok readBody).sink_eq_empty clean
  have cleanParameters := (proceeds_declaredType?.of_ok readType).sink_eq_empty cleanType
  have insidePrecedes := precedes.advance.advance.advance
  have parametersPrecedes := insidePrecedes.of_reaches
    ((proceeds_parameter.listOf _).of_ok readParameters)
  have typePrecedes := parametersPrecedes.of_reaches (proceeds_declaredType?.of_ok readType)
  have typeToken := consumes.block.token typePrecedes.scanned readBody
  obtain ⟨_, keyword, onward⟩ := precedes.sees rfl token
  obtain ⟨kind, name, next⟩ := precedes.advance.sees identifier (by simp)
  obtain ⟨opening, _, inside⟩ := precedes.advance.advance.sees opens (by simp)
  refine toolDeclaration_ok_iff.2 ⟨by rw [onward, kind], by rw [onward, next, opening], parameters,
    afterParameters.extended sequel, ?_, type?, afterType.extended sequel,
    extendsWithin_declaredType? _ _ _ parametersPrecedes cleanType typeToken readType, body,
    same.block _ _ _ typePrecedes clean readBody, by rw [keyword, onward, name]⟩
  rw [onward, next, inside]
  exact extends_listOf proceeds_parameter consumes_parameter extendsWithin_parameter (by decide)
    _ _ _ insidePrecedes cleanParameters readParameters

omit same proceeds consumes in
/-- The names of an import after the first, up to before the closing bracket. -/
theorem furtherNames_extended {state after : State} {names : List Token}
    (precedes : state.Precedes sequel)
    (closes : (if after.kind = .comma then after.advance else after).kind = .closeCurly)
    (repeated : Repeated moreNames furtherName state names after) :
    Repeated moreNames furtherName (state.extended sequel) names (after.extended sequel) := by
  induction repeated with
  | @stop state stops =>
      refine .stop ?_
      unfold moreNames at stops ⊢
      by_cases comma : state.kind = .comma
      · rw [if_pos comma] at closes
        obtain ⟨kind, _, _⟩ := precedes.sees comma (by simp)
        obtain ⟨closing, _, _⟩ := precedes.advance.sees closes (by simp)
        have next : (state.extended sequel).peek.kind = .closeCurly := by
          rw [precedes.peek_extended (by simp [comma])]
          exact closing
        simp [next]
      · rw [if_neg comma] at closes
        obtain ⟨kind, _, _⟩ := precedes.sees closes (by simp)
        simp [kind]
  | @item state middle after first rest goesOn read _ inductionHypothesis =>
      obtain ⟨identifier, rfl, rfl⟩ := furtherName_ok_iff.1 read
      have comma : state.kind = .comma := by
        rw [moreNames, Bool.and_eq_true, decide_eq_true_eq] at goesOn
        exact goesOn.1
      obtain ⟨kind, _, onward⟩ := precedes.sees comma (by simp)
      obtain ⟨nameKind, name, last⟩ := precedes.advance.sees identifier (by simp)
      have next : (state.extended sequel).peek.kind = .identifier := by
        rw [precedes.peek_extended (by simp [comma])]
        exact nameKind
      refine .item (by simp [moreNames, kind, next])
        (furtherName_ok_iff.2 ⟨by rw [onward, nameKind], by rw [onward, name], by rw [onward, last]⟩)
        (inductionHypothesis precedes.advance.advance closes)

omit same proceeds consumes in
/-- The bracket past a comma is that of the script, and so is the comma if there is one. -/
theorem pastComma_extended {state : State} (precedes : state.Precedes sequel)
    (closes : (if state.kind = .comma then state.advance else state).kind = .closeCurly) :
    (if (state.extended sequel).kind = .comma then (state.extended sequel).advance
      else state.extended sequel) =
        (if state.kind = .comma then state.advance else state).extended sequel ∧
      (if state.kind = .comma then state.advance else state).Precedes sequel := by
  by_cases comma : state.kind = .comma
  · obtain ⟨commaKind, _, past⟩ := precedes.sees comma (by simp)
    rw [if_pos comma, if_pos commaKind]
    exact ⟨past, precedes.advance⟩
  · rw [if_neg comma] at closes ⊢
    obtain ⟨closing, _, _⟩ := precedes.sees closes (by simp)
    rw [if_neg (by simp [closing])]
    exact ⟨rfl, precedes⟩

omit same proceeds consumes in
theorem extends_importedNames {state after : State} {read : List Token × Bool}
    (precedes : state.Precedes sequel) (run : importedNames state = .ok read after) :
    importedNames (state.extended sequel) = .ok read (after.extended sequel) := by
  obtain ⟨opens, names, readNames, rfl⟩ | ⟨identifier, rfl, rfl⟩ := importedNames_ok_iff.1 run
  · obtain ⟨_, identifier, rest, before, readRest, closes, rfl, rfl⟩ := bracedNames_ok_iff.1 readNames
    have restPrecedes := precedes.advance.advance
    have proceedsRest := proceeds_furtherName.manyWhile moreNames
    have beforePrecedes := restPrecedes.of_reaches (proceedsRest.of_ok readRest)
    obtain ⟨pastComma, pastPrecedes⟩ := pastComma_extended beforePrecedes closes
    obtain ⟨kind, _, onward⟩ := precedes.sees opens (by simp)
    obtain ⟨nameKind, name, next⟩ := precedes.advance.sees identifier (by simp)
    obtain ⟨closing, _, past⟩ := pastPrecedes.sees closes (by simp)
    have restSame : manyWhile moreNames furtherName (state.extended sequel).advance.advance =
        .ok rest (before.extended sequel) := by
      rw [onward, next]
      have repeated :=
        (manyWhile_ok_iff proceeds_furtherName consumes_furtherName restPrecedes.scanned).1 readRest
      exact (manyWhile_ok_iff proceeds_furtherName consumes_furtherName
        restPrecedes.scanned_extended).2 (furtherNames_extended restPrecedes closes repeated)
    refine importedNames_ok_iff.2 (.inl ⟨kind, _, bracedNames_ok_iff.2 ⟨kind, ?_,
      rest, before.extended sequel, restSame, ?_, by rw [onward, name], ?_⟩, rfl⟩)
    · rw [onward, nameKind]
    · rw [pastComma, closing]
    · rw [pastComma, past]
  · obtain ⟨kind, name, onward⟩ := precedes.sees identifier (by simp)
    exact importedNames_ok_iff.2 (.inr ⟨kind, by rw [name], onward⟩)

omit same proceeds consumes in
theorem extends_importDeclaration {state after : State} {value : Stmt}
    (precedes : state.Precedes sequel) (token : state.kind ≠ .endOfInput)
    (read : importDeclaration state = .ok value after) :
    importDeclaration (state.extended sequel) = .ok value (after.extended sequel) := by
  obtain ⟨names, before, readNames, isFrom, isSource, rfl, rfl⟩ := importDeclaration_ok_iff.1 read
  have beforePrecedes := precedes.advance.of_reaches (proceeds_importedNames.of_ok readNames)
  obtain ⟨_, keyword, onward⟩ := precedes.sees rfl token
  obtain ⟨fromKind, _, next⟩ := beforePrecedes.sees isFrom (by simp)
  obtain ⟨sourceKind, source, last⟩ := beforePrecedes.advance.sees isSource (by simp)
  refine importDeclaration_ok_iff.2 ⟨names, before.extended sequel, ?_, fromKind,
    by rw [next, sourceKind], by rw [keyword, next, source], by rw [next, last]⟩
  rw [onward]
  exact extends_importedNames precedes.advance readNames

/-! ## Statements -/

include consumes same in
theorem extends_alternative : (alternative inner).Extends sequel := by
  intro state after statement precedes clean read
  obtain ⟨isIf, readConditional⟩ | ⟨noIf, body, readBody, rfl⟩ := alternative_ok_iff.1 read
  · exact alternative_ok_iff.2 (.inl ⟨(precedes.sees isIf (by simp)).1,
      same.conditional _ _ _ precedes clean readConditional⟩)
  · have token := consumes.block.token precedes.scanned readBody
    exact alternative_ok_iff.2 (.inr ⟨precedes.kind_extended token ▸ noIf, body,
      same.block _ _ _ precedes clean readBody, rfl⟩)

include proceeds consumes same in
theorem extends_conditionalAt : (conditionalAt inner).Extends sequel := by
  intro state after statement precedes clean read
  obtain ⟨isIf, condition, afterCondition, readCondition, consequence, afterBlock, readBlock,
    alternative?, readAlternative, rfl⟩ := conditionalAt_ok_iff.1 read
  have proceedsElse := (proceeds_alternative proceeds).after? (.keyword .elseKw)
  have cleanBlock := (proceedsElse.of_ok readAlternative).sink_eq_empty clean
  have cleanCondition := (proceeds.block.of_ok readBlock).sink_eq_empty cleanBlock
  have conditionPrecedes := precedes.advance.of_reaches
    ((proceeds_grouping proceeds).of_ok readCondition)
  have blockPrecedes := conditionPrecedes.of_reaches (proceeds.block.of_ok readBlock)
  obtain ⟨kind, keyword, onward⟩ := precedes.sees isIf (by simp)
  refine conditionalAt_ok_iff.2 ⟨kind, condition, afterCondition.extended sequel, ?_, consequence,
    afterBlock.extended sequel, same.block _ _ _ conditionPrecedes cleanBlock readBlock, alternative?,
    ?_, by rw [keyword]⟩
  · rw [onward]
    exact extends_grouping proceeds same _ _ _ precedes.advance cleanCondition readCondition
  · exact extends_after? rfl blockPrecedes (fun other read =>
      extends_alternative consumes same _ _ other blockPrecedes.advance clean read) readAlternative

include proceeds same in
theorem extends_whileLoop {state after : State} {value : Stmt} (precedes : state.Precedes sequel)
    (clean : after.sink = Sink.empty) (token : state.kind ≠ .endOfInput)
    (read : whileLoop inner state = .ok value after) :
    whileLoop inner (state.extended sequel) = .ok value (after.extended sequel) := by
  obtain ⟨condition, before, readCondition, body, readBody, rfl⟩ := whileLoop_ok_iff.1 read
  have cleanBefore := (proceeds.block.of_ok readBody).sink_eq_empty clean
  have beforePrecedes := precedes.advance.of_reaches ((proceeds_grouping proceeds).of_ok readCondition)
  obtain ⟨_, keyword, onward⟩ := precedes.sees rfl token
  refine whileLoop_ok_iff.2 ⟨condition, before.extended sequel, ?_, body,
    same.block _ _ _ beforePrecedes clean readBody, by rw [keyword]⟩
  rw [onward]
  exact extends_grouping proceeds same _ _ _ precedes.advance cleanBefore readCondition

include proceeds same in
theorem extends_forOf {state after : State} {value : Stmt} (precedes : state.Precedes sequel)
    (clean : after.sink = Sink.empty) (token : state.kind ≠ .endOfInput)
    (read : forOf inner state = .ok value after) :
    forOf inner (state.extended sequel) = .ok value (after.extended sequel) := by
  obtain ⟨opens, identifier, isOf, iterable, before, readIterable, closes, body, readBody, rfl⟩ :=
    forOf_ok_iff.1 read
  have insidePrecedes := precedes.advance.advance.advance.advance
  have beforePrecedes := insidePrecedes.of_reaches ((proceeds.expression _).of_ok readIterable)
  have cleanBefore := ((State.Reaches.refl before).advance.trans
    (proceeds.block.of_ok readBody)).sink_eq_empty clean
  obtain ⟨_, keyword, first⟩ := precedes.sees rfl token
  obtain ⟨opening, _, second⟩ := precedes.advance.sees opens (by simp)
  obtain ⟨nameKind, name, third⟩ := precedes.advance.advance.sees identifier (by simp)
  obtain ⟨ofKind, _, fourth⟩ := precedes.advance.advance.advance.sees isOf (by simp)
  obtain ⟨closing, _, last⟩ := beforePrecedes.sees closes (by simp)
  refine forOf_ok_iff.2 ⟨by rw [first, opening], by rw [first, second, nameKind],
    by rw [first, second, third, ofKind], iterable, before.extended sequel, ?_, closing, body, ?_,
    by rw [keyword, first, second, name]⟩
  · rw [first, second, third, fourth]
    exact same.expression _ _ _ _ insidePrecedes cleanBefore readIterable
  · rw [last]
    exact same.block _ _ _ beforePrecedes.advance clean readBody

include same in
theorem extends_handler : (handler inner).Extends sequel := by
  intro state after read precedes clean run
  obtain ⟨opens, identifier, closes, body, readBody, rfl⟩ := handler_ok_iff.1 run
  obtain ⟨opening, _, first⟩ := precedes.sees opens (by simp)
  obtain ⟨nameKind, name, second⟩ := precedes.advance.sees identifier (by simp)
  obtain ⟨closing, _, third⟩ := precedes.advance.advance.sees closes (by simp)
  refine handler_ok_iff.2 ⟨opening, by rw [first, nameKind], by rw [first, second, closing], body, ?_,
    by rw [first, name]⟩
  rw [first, second, third]
  exact same.block _ _ _ precedes.advance.advance.advance clean readBody

include proceeds same in
theorem extends_attempt {state after : State} {value : Stmt} (precedes : state.Precedes sequel)
    (clean : after.sink = Sink.empty) (token : state.kind ≠ .endOfInput)
    (read : attempt inner state = .ok value after) :
    attempt inner (state.extended sequel) = .ok value (after.extended sequel) := by
  obtain ⟨body, afterBody, readBody, handler?, afterHandler, readHandler, finalizer?, readFinalizer,
    clause, rfl⟩ := attempt_ok_iff.1 read
  have proceedsHandler := (proceeds_handler proceeds).after? (.keyword .catchKw)
  have cleanHandler := ((proceeds.block.after? _).of_ok readFinalizer).sink_eq_empty clean
  have cleanBody := (proceedsHandler.of_ok readHandler).sink_eq_empty cleanHandler
  have bodyPrecedes := precedes.advance.of_reaches (proceeds.block.of_ok readBody)
  have handlerPrecedes := bodyPrecedes.of_reaches (proceedsHandler.of_ok readHandler)
  obtain ⟨_, keyword, onward⟩ := precedes.sees rfl token
  refine attempt_ok_iff.2 ⟨body, afterBody.extended sequel, ?_, handler?,
    afterHandler.extended sequel, ?_, finalizer?, ?_, clause, by rw [keyword]⟩
  · rw [onward]
    exact same.block _ _ _ precedes.advance cleanBody readBody
  · exact extends_after? rfl bodyPrecedes (fun other read =>
      extends_handler same _ _ other bodyPrecedes.advance cleanHandler read) readHandler
  · exact extends_after? rfl handlerPrecedes (fun other read =>
      same.block _ _ other handlerPrecedes.advance clean read) readFinalizer

omit same proceeds consumes in
/-- What is exported is no return. -/
theorem isBareReturn_of_isExportable {statement : Stmt} (exportable : statement.isExportable = true) :
    statement.isBareReturn = false := by
  cases statement with
  | returnValue => cases exportable
  | _ => rfl

omit same proceeds consumes in
/-- Before the end of a statement there is a token. -/
theorem token_of_goesOn {state : State} (goesOn : state.atStatementEnd = false) :
    state.kind ≠ .endOfInput := by
  intro ended
  simp [State.atStatementEnd, ended] at goesOn

include proceeds consumes same in
theorem extends_statementOf {form : StatementForm} {state after : State} {value : Stmt}
    (precedes : state.Precedes sequel) (clean : after.sink = Sink.empty)
    (leaves : after.kind ≠ .endOfInput ∨ sequel.Leaves value) (token : state.kind ≠ .endOfInput)
    (read : statementOf inner form state = .ok value after) :
    statementOf inner form (state.extended sequel) = .ok value (after.extended sequel) := by
  obtain ⟨_, keyword, onward⟩ := precedes.sees rfl token
  have seen (goesOn : state.advance.atStatementEnd = false) :
      (state.advance.extended sequel).atStatementEnd = false :=
    (precedes.advance.atStatementEnd_extended (.inl (token_of_goesOn goesOn))).trans goesOn
  cases form with
  | config => exact extends_configDeclaration proceeds same precedes clean token read
  | tool => exact extends_toolDeclaration proceeds consumes same precedes clean token read
  | importNames => exact extends_importDeclaration precedes token read
  | exported =>
      obtain ⟨statement, readStatement, exportable, rfl⟩ := exportDeclaration_ok_iff.1 read
      refine exportDeclaration_ok_iff.2 ⟨statement, ?_, exportable, by rw [keyword]⟩
      rw [onward]
      exact same.statement _ _ _ precedes.advance clean
        (.inr (.inr (isBareReturn_of_isExportable exportable))) readStatement
  | conditional => exact same.conditional _ _ _ precedes clean read
  | whileLoop => exact extends_whileLoop proceeds same precedes clean token read
  | forOf => exact extends_forOf proceeds same precedes clean token read
  | breakLoop =>
      cases read
      rw [← onward, ← keyword]
      rfl
  | continueLoop =>
      cases read
      rw [← onward, ← keyword]
      rfl
  | returnValue =>
      obtain ⟨ended, rfl, rfl⟩ | ⟨goesOn, result, readValue, rfl⟩ := returnValue_ok_iff.1 read
      · -- a return without a value is the one statement that the sequel may go on with
        have ends : state.advance.kind ≠ .endOfInput ∨ sequel.EndsStatements :=
          leaves.imp_right fun left => left.resolve_right (by simp [Stmt.isBareReturn])
        exact returnValue_ok_iff.2 (.inl ⟨by rw [onward,
          precedes.advance.atStatementEnd_extended ends, ended], by rw [keyword], onward⟩)
      · refine returnValue_ok_iff.2
          (.inr ⟨by rw [onward, seen goesOn], result, ?_, by rw [keyword]⟩)
        rw [onward]
        exact same.expression _ _ _ _ precedes.advance clean readValue
  | throwValue =>
      obtain ⟨goesOn, thrown, readValue, rfl⟩ := throwValue_ok_iff.1 read
      refine throwValue_ok_iff.2 ⟨by rw [onward, seen goesOn], thrown, ?_, by rw [keyword]⟩
      rw [onward]
      exact same.expression _ _ _ _ precedes.advance clean readValue
  | attempt => exact extends_attempt proceeds same precedes clean token read
  | reserved => cases read

omit same proceeds consumes in
/-- The first two tokens tell whether an assignment is ahead, and no sequel starts with the sign of
one. -/
theorem startsAssignment_extended {state : State} (precedes : state.Precedes sequel)
    (token : state.kind ≠ .endOfInput) :
    startsAssignment (state.extended sequel) = startsAssignment state := by
  have sign {kind : Kind} (continues : kind.continuesStatement = true) :
      (state.extended sequel).peek.kind = kind ↔ state.peek.kind = kind := by
    rw [precedes.peek_extended token, State.peek_eq_current_advance]
    exact precedes.advance.kind_extended_iff continues
  unfold startsAssignment
  rw [precedes.kind_extended token]
  simp only [sign (show Kind.assign.continuesStatement = true from rfl),
    sign (show Kind.colon.continuesStatement = true from rfl)]

include proceeds consumes same in
theorem extends_statement : (Production.statement inner).ExtendsLeft sequel := by
  intro state after value precedes clean leaves read
  have token := (consumes_statement proceeds consumes).token precedes.scanned read
  obtain ⟨kind, current, onward⟩ := precedes.sees rfl token
  rw [statement_run] at read ⊢
  rw [kind, startsAssignment_extended precedes token]
  split at read
  · exact extends_statementOf proceeds consumes same precedes clean leaves token read
  · split_ifs at read ⊢ with isAssignment
    · obtain ⟨identifier, type?, before, readType, isAssign, result, readValue, rfl⟩ :=
        assignment_ok_iff.1 read
      have cleanBefore := ((State.Reaches.refl before).advance.trans
        ((proceeds.expression _).of_ok readValue)).sink_eq_empty clean
      have beforePrecedes := precedes.advance.of_reaches (proceeds_declaredType?.of_ok readType)
      obtain ⟨assign, _, past⟩ := beforePrecedes.sees isAssign (by simp)
      refine assignment_ok_iff.2 ⟨kind.trans identifier, type?, before.extended sequel, ?_, assign,
        result, ?_, by rw [current]⟩
      · rw [onward]
        exact extendsWithin_declaredType? _ _ _ precedes.advance cleanBefore (by simp [isAssign])
          readType
      · rw [past]
        exact same.expression _ _ _ _ beforePrecedes.advance clean readValue
    · obtain ⟨result, readValue, rfl⟩ := expressionStatement_ok_iff.1 read
      exact expressionStatement_ok_iff.2
        ⟨result, same.expression _ _ _ _ precedes clean readValue, by rw [current]⟩

/-! ## Lists of statements -/

omit same proceeds consumes in
theorem checkSeparated_extended {inBlock : Bool} {state : State} (precedes : state.Precedes sequel)
    (seen : state.kind ≠ .endOfInput ∨ sequel.EndsStatements)
    (separated : endsStatements inBlock state.kind = true ∨ state.onNewLine = true) :
    checkSeparated inBlock (state.extended sequel) = state.extended sequel := by
  unfold checkSeparated
  refine if_pos ?_
  by_cases ended : state.kind = .endOfInput
  · rcases precedes.ends_extended_of_end ended (seen.resolve_left (absurd ended)) with semicolon | fresh
    · simp [semicolon]
    · simp [fresh]
  · rw [precedes.kind_extended ended, precedes.onNewLine_extended ended]
    rcases separated with ends | fresh
    · simp [ends]
    · simp [fresh]

end

variable {inBlock : Bool} {statement : Production Stmt} {state final : State} {list : List Stmt}

theorem Succession.length_le (proceeds : statement.Proceeds) (consumes : statement.Consumes)
    (succession : Succession inBlock statement state list final) (scanned : state.Scanned) :
    list.length ≤ state.upcoming.length := by
  induction succession with
  | nil => exact Nat.zero_le _
  | cons _ _ read _ _ inductionHypothesis =>
      have passes := consumes _ _ _ scanned read
      have rest := inductionHypothesis (scanned.of_reaches (proceeds.of_ok read))
      rw [List.length_cons]
      omega

/-- The state after a list of statements, the last of which has to be separated from what follows. -/
def separatedAfter (inBlock : Bool) : List Stmt → State → State
  | [], state => state
  | _ :: _, state => checkSeparated inBlock state

theorem reaches_separatedAfter (inBlock : Bool) (list : List Stmt) (state : State) :
    state.Reaches (separatedAfter inBlock list state) := by
  cases list with
  | nil => exact .refl state
  | cons => exact .checkSeparated inBlock state

theorem separatedAfter_of_ne_nil {list : List Stmt} (nonempty : list ≠ []) (state : State) :
    separatedAfter inBlock list state = checkSeparated inBlock state := by
  cases list with
  | nil => exact absurd rfl nonempty
  | cons => rfl

theorem separatedAfter_eq {list : List Stmt} {state : State}
    (separated : checkSeparated inBlock state = state) : separatedAfter inBlock list state = state := by
  cases list with
  | nil => rfl
  | cons => exact separated

/-- Statements that follow one another in the script are read first, and then what follows them. -/
theorem Succession.statementsWithin_extended (proceeds : statement.Proceeds)
    (same : statement.ExtendsLeft sequel)
    (succession : Succession inBlock statement state list final) (precedes : state.Precedes sequel)
    (clean : final.sink = Sink.empty)
    (leaves : ∀ last ∈ list.getLast?, final.kind ≠ .endOfInput ∨ sequel.Leaves last)
    (bound : List Lexed) (enough : list.length ≤ bound.length) :
    statementsWithin inBlock statement bound (state.extended sequel) =
      let onward := statementsWithin inBlock statement (bound.drop list.length)
        (separatedAfter inBlock list (final.extended sequel))
      (list ++ onward.1, onward.2) := by
  induction succession generalizing bound with
  | nil => rfl
  | @cons state after final first rest isOpen noSemicolon read separated succession
      inductionHypothesis =>
      cases bound with
      | nil => cases enough
      | cons _ bound =>
          have cleanAfter := (succession.reaches proceeds).sink_eq_empty clean
          have afterPrecedes := precedes.of_reaches (proceeds.of_ok read)
          have kind := precedes.kind_extended (token_of_not_endsStatements isOpen)
          rw [statementsWithin, if_neg (by simp [kind, isOpen]), if_neg (by rwa [kind])]
          -- only after the last statement does the sequel decide whether a separator is missing
          cases succession with
          | nil =>
              rw [same _ _ _ precedes cleanAfter (leaves first rfl) read]
              rfl
          | cons isOpenAfter =>
              have tokenAfter := token_of_not_endsStatements isOpenAfter
              have onward := inductionHypothesis afterPrecedes clean leaves bound
                (Nat.le_of_succ_le_succ enough)
              rw [same _ _ _ precedes cleanAfter (.inl tokenAfter) read]
              simp only [checkSeparated_extended afterPrecedes (.inl tokenAfter) separated, onward,
                List.length_cons, List.drop_succ_cons, List.cons_append]
              rfl

theorem extends_blockAt {inner : Level} (proceeds : LevelProceeds inner)
    (consumes : LevelConsumes inner) (same : LevelExtends sequel inner) :
    (blockAt inner).Extends sequel := by
  intro state after body precedes clean read
  obtain ⟨opens, list, before, readList, closes, rfl, rfl⟩ := blockAt_ok_iff.1 read
  have proceedsOne := proceeds_statement proceeds
  have consumesOne := consumes_statement proceeds consumes
  have cleanBefore := (State.Reaches.refl before).advance.sink_eq_empty clean
  have succession := succession_of_statementsWithin proceedsOne consumesOne precedes.advance.scanned
    (Nat.le_refl _) readList cleanBefore
  have beforePrecedes := precedes.advance.of_reaches (succession.reaches proceedsOne)
  have token : before.kind ≠ .endOfInput := by simp [closes]
  obtain ⟨kind, current, onward⟩ := precedes.sees opens (by simp)
  obtain ⟨closing, _, last⟩ := beforePrecedes.sees closes (by simp)
  refine blockAt_ok_iff.2 ⟨kind, list, before.extended sequel, ?_, closing, by rw [current], last⟩
  have enough : list.length ≤ (state.advance.extended sequel).upcoming.length := by
    refine Nat.le_trans (succession.length_le proceedsOne consumesOne precedes.advance.scanned) ?_
    exact (List.sublist_append_left _ sequel.tokens).length_le
  have ends : endsStatements true (before.extended sequel).kind = true := by rw [closing]; rfl
  rw [onward, succession.statementsWithin_extended proceedsOne
    (extends_statement proceeds consumes same) precedes.advance cleanBefore
    (fun _ _ => .inl token) _ enough,
    separatedAfter_eq (checkSeparated_extended beforePrecedes (.inl token) (.inl succession.ends)),
    statementsWithin_of_ends ends]
  simp only [List.append_nil]

/-- At every level of nesting, what is read is read the same when the sequel follows. -/
theorem levelExtends_withRoom (sequel : Sequel) (room : Nat) :
    LevelExtends sequel (Level.withRoom room) := by
  induction room with
  | zero => exact ⟨fun _ => extends_tooDeep, extends_tooDeep, extends_tooDeep,
        extends_tooDeep.left⟩
  | succ room inductionHypothesis =>
      have proceeds := levelProceeds_withRoom room
      have consumes := levelConsumes_withRoom room
      exact ⟨fun power => (extends_expressionAt proceeds consumes inductionHypothesis power).deeper,
        (extends_blockAt proceeds consumes inductionHypothesis).deeper,
        (extends_conditionalAt proceeds consumes inductionHypothesis).deeper,
        (extends_statement proceeds consumes inductionHypothesis).deeper⟩

end

end AgentScript.Production
