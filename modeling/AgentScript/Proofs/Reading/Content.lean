import AgentScript.Proofs.Reading.Kept
import AgentScript.Proofs.Reading.WellFormed

/-!
Contract: what is read without diagnostics has the values of the tokens passed for it.

Owns:
- productions that keep the values of the tokens they pass;
- one statement for each form of the grammar, and from them the statement for every level of
  nesting;
- the statement for whole scripts.
-/

set_option autoImplicit false

namespace AgentScript.Production

variable {α : Type}

/-- What is read without diagnostics has the values of the tokens passed for it. -/
def KeepsContent (production : Production α) (content : α → List String) : Prop :=
  ∀ (state after : State) (value : α), state.Scanned → after.sink = Sink.empty →
    production state = .ok value after → state.Keeps after (content value)

theorem keepsContent_tooDeep (content : α → List String) :
    (tooDeep : Production α).KeepsContent content := fun _ _ _ _ _ read => nomatch read

section

variable {production : Production α} {content : α → List String}

theorem KeepsContent.deeper (keeps : production.KeepsContent content) :
    (deeper production).KeepsContent content := by
  intro state after value scanned clean read
  obtain ⟨inside, readInside, rfl⟩ := deeper_ok_iff.1 read
  exact keeps { state with nesting := state.nesting + 1 } inside value (scanned.deeper _) clean
    readInside

/-- A part that may stand after a token of its own. -/
theorem KeepsContent.after? (keeps : production.KeepsContent content) {kind : Kind} {text : String}
    (only : kind.fixedText? = some text) (isPlain : kind.isBracket = false)
    (inForms : kind.inForms = true) (isContent : kind.isContent = true) :
    (after? kind production).KeepsContent fun read =>
      (read.map fun value => text :: content value).getD [] := by
  intro state after value scanned clean read
  obtain ⟨here, first, readFirst, rfl⟩ | ⟨_, rfl, rfl⟩ := after?_ok_iff.1 read
  · have keyword := State.Keeps.fixed scanned here only isPlain inForms isContent
    exact keyword.trans (keeps _ _ _ scanned.advance clean readFirst)
  · exact .refl state

theorem keepsContent_iterated {continues : State → Bool} {round : α → Production α}
    (proceeds : ∀ value, (round value).Proceeds) {start state after : State} {value result : α}
    (each : ∀ (value next : α) (state after : State), state.Scanned → after.sink = Sink.empty →
      continues state = true → round value state = .ok next after →
      start.Keeps state (content value) → start.Keeps after (content next))
    (iterated : Iterated continues round value state result after) (scanned : state.Scanned)
    (clean : after.sink = Sink.empty) (keeps : start.Keeps state (content value)) :
    start.Keeps after (content result) := by
  induction iterated with
  | stop => exact keeps
  | round goesOn read rest inductionHypothesis =>
      have cleanMiddle := (rest.reaches proceeds).sink_eq_empty clean
      exact inductionHypothesis (scanned.of_reaches ((proceeds _).of_ok read)) clean
        (each _ _ _ _ scanned cleanMiddle goesOn read keeps)

theorem keeps_endItem {listing : Listing} {state after : State} (scanned : state.Scanned)
    (ended : endItem listing state = .ok () after) : state.Keeps after [] := by
  obtain ⟨comma, rfl⟩ | ⟨_, rfl, _⟩ := endItem_ok_iff.1 ended
  · exact .comma scanned comma
  · exact .refl state

theorem Listed.reaches {listing : Listing} {item : Production α} (proceeds : item.Proceeds)
    {state after : State} {items : List α} (listed : Listed listing item state items after) :
    state.Reaches after := by
  induction listed with
  | nil => exact .refl _
  | cons _ read ended _ inductionHypothesis =>
      exact (proceeds.of_ok read).trans (((proceeds_endItem listing).of_ok ended).trans
        inductionHypothesis)

/-- The items of a list, with commas between them left out. -/
theorem keepsContent_listed (keeps : production.KeepsContent content) (proceeds : production.Proceeds)
    {listing : Listing} {state after : State} {items : List α}
    (listed : Listed listing production state items after) (scanned : state.Scanned)
    (clean : after.sink = Sink.empty) : state.Keeps after (items.flatMap content) := by
  induction listed with
  | nil => exact .refl _
  | cons _ read ended rest inductionHypothesis =>
      have middleScanned := scanned.of_reaches (proceeds.of_ok read)
      have ending := (proceeds_endItem listing).of_ok ended
      have cleanMiddle := (ending.trans (rest.reaches proceeds)).sink_eq_empty clean
      have first := keeps _ _ _ scanned cleanMiddle read
      have restKept := inductionHypothesis (middleScanned.of_reaches ending) clean
      exact first.trans ((keeps_endItem middleScanned ended).trans restKept)

end

/-! ## Types -/

theorem keepsContent_typeExpr (power : BindingPower) :
    (typeExpr power).KeepsContent TypeExpr.content := by
  intro state after type scanned clean read
  obtain ⟨name, middle, readName, readSuffixes⟩ := bind_ok_iff.1 read
  have middleScanned := scanned.of_reaches (proceeds_typeName.of_ok readName)
  obtain ⟨names, rfl, rfl⟩ := typeName_ok_iff.1 readName
  have namesMember := Kind.namesMember_of_namesType names
  have nameKept : state.Keeps state.advance (TypeExpr.named state.current.value).content :=
    State.Keeps.passed scanned (isBracket_of_namesMember namesMember)
      (Kind.inForms_of_namesMember namesMember) (isContent_of_namesMember namesMember)
  have consume : RoundsConsume (continuesType power) arraySuffix :=
    fun state after value next scanned _ read =>
      consumes_arraySuffix value state after next scanned read
  refine keepsContent_iterated proceeds_arraySuffix ?_
    ((iterateWhile_ok_iff proceeds_arraySuffix consume middleScanned).1 readSuffixes) middleScanned
    clean nameKept
  intro element next middle after middleScanned _ _ readSuffix kept
  obtain ⟨opens, closes, rfl, rfl⟩ := arraySuffix_ok_iff.1 readSuffix
  exact kept.trans (State.Keeps.inBrackets middleScanned middleScanned.advance opens closes
    (.refl _))

theorem keepsContent_declaredType? : declaredType?.KeepsContent contentOfType := by
  intro state after type? scanned clean read
  have kept := (keepsContent_typeExpr .default).after? rfl rfl rfl rfl state after
    type? scanned clean read
  cases type? <;> exact kept

theorem keepsContent_parameter : Production.parameter.KeepsContent Parameter.content := by
  intro state after parameter scanned clean read
  obtain ⟨identifier, type?, readType, rfl⟩ := parameter_ok_iff.1 read
  exact (State.Keeps.name scanned identifier).trans
    (keepsContent_declaredType? _ _ _ scanned.advance clean readType)

/-! ## Expressions -/

/-- What is read one level further in without diagnostics has the values of its tokens. -/
structure LevelKeeps (inner : Level) : Prop where
  expression : ∀ power, (inner.expression power).KeepsContent Expr.content
  block : inner.block.KeepsContent Block.content
  conditional : inner.conditional.KeepsContent Stmt.content
  statement : inner.statement.KeepsContent Stmt.content

/-- What holds of a key that is read: it is one token, and no bracket. -/
def ReadsKey (key : Production String) : Prop :=
  ∀ (state after : State) (text : String), key state = .ok text after →
    state.kind.isBracket = false ∧ state.kind.isContent = true ∧ state.kind.inForms = true ∧
      state.current.value = text ∧ state.advance = after

theorem readsKey_objectKey : ReadsKey objectKey := by
  intro state after text read
  obtain ⟨isKey, same, onward⟩ := objectKey_ok_iff.1 read
  rcases isKey with kind | kind <;> rw [kind] <;> exact ⟨rfl, rfl, rfl, same, onward⟩

theorem readsKey_configKey : ReadsKey configKey := by
  intro state after text read
  obtain ⟨names, same, onward⟩ := configKey_ok_iff.1 read
  exact ⟨isBracket_of_namesMember names, isContent_of_namesMember names,
    Kind.inForms_of_namesMember names, same, onward⟩

section

variable {inner : Level} (proceeds : LevelProceeds inner) (consumes : LevelConsumes inner)
  (keeps : LevelKeeps inner)

include proceeds keeps in
theorem keepsContent_grouping : (grouping inner).KeepsContent Expr.content := by
  intro state after value scanned clean read
  obtain ⟨opens, before, readValue, closes, rfl⟩ := grouping_ok_iff.1 read
  have course := (proceeds.expression _).of_ok readValue
  have cleanBefore := (State.Reaches.refl before).advance.sink_eq_empty clean
  exact .inParens scanned (scanned.advance.of_reaches course) opens closes
    (keeps.expression _ _ _ _ scanned.advance cleanBefore readValue)

include proceeds consumes keeps in
/-- Expressions up to a closing bracket, without that bracket. -/
theorem keepsContent_expressionList {closing : Kind} {state after : State} {exprs : List Expr}
    (scanned : state.Scanned) (clean : after.sink = Sink.empty)
    (read : expressionList inner closing state = .ok exprs after) :
    ∃ before, state.Keeps before (contentOfExprs exprs) ∧ before.Scanned ∧ before.kind = closing ∧
      before.advance = after := by
  obtain ⟨before, listed, rfl⟩ :=
    (listOf_ok_iff (proceeds.expression _) (consumes.expression _) scanned).1 read
  have cleanBefore := (State.Reaches.refl before).advance.sink_eq_empty clean
  have kept := keepsContent_listed (keeps.expression .default) (proceeds.expression _) listed scanned
    cleanBefore
  rw [← contentOfExprs_eq_flatMap] at kept
  exact ⟨before, kept, scanned.of_reaches (listed.reaches (proceeds.expression _)), listed.kind_eq,
    rfl⟩

include proceeds keeps in
/-- Keys with their values, up to the closing bracket. Repeated keys are seen among the tokens. -/
theorem keeps_entries {key : Production String} (isKey : ReadsKey key)
    (proceedsKey : key.Proceeds) {listing : Listing} {state after : State}
    {pairs : List (String × Expr)} (listed : Listed listing (keyed inner key) state pairs after)
    (scanned : state.Scanned) (clean : after.sink = Sink.empty) :
    ∃ used, state.upcoming.map Lexed.token = used ++ after.upcoming.map Lexed.token ∧
      HasKeys used (Entries.keys pairs) ∧ (∀ token ∈ used, token.kind.inForms = true) ∧
      (¬ RepeatsKey used → contentOf used = contentOfEntries pairs) := by
  have proceedsItem := proceeds_keyed proceeds proceedsKey
  induction listed with
  | nil => exact ⟨[], rfl, .nil .nil, by simp, fun _ => rfl⟩
  | @cons state middle next after pair rest _ read ended listed inductionHypothesis =>
      obtain ⟨afterKey, readKey, colon, readValue⟩ := keyed_ok_iff.1 read
      obtain ⟨isPlain, isContent, inForms, same, rfl⟩ := isKey _ _ _ readKey
      have middleScanned := scanned.of_reaches (proceedsItem.of_ok read)
      have ending := (proceeds_endItem listing).of_ok ended
      have cleanMiddle := (ending.trans (listed.reaches proceedsItem)).sink_eq_empty clean
      have valueKept := (keeps.expression _ _ _ _ scanned.advance.advance cleanMiddle readValue).trans
        (keeps_endItem middleScanned ended)
      obtain ⟨usedRest, aheadRest, hasKeys, formsRest, sameRest⟩ :=
        inductionHypothesis (middleScanned.of_reaches ending) clean
      obtain ⟨usedValue, aheadValue, balanced, formsValue, sameValue⟩ := valueKept
      have token := Kind.ne_endOfInput_of_inForms inForms
      have colonForms : state.advance.kind.inForms = true := by
        rw [colon]
        rfl
      have colonToken := Kind.ne_endOfInput_of_inForms colonForms
      refine ⟨state.current :: state.advance.current :: (usedValue ++ usedRest), ?_, ?_, ?_, ?_⟩
      · rw [State.Keeps.ahead_eq scanned token, State.Keeps.ahead_eq scanned.advance colonToken,
          aheadValue, aheadRest]
        simp
      · have keys : Entries.keys (pair :: rest) = state.current.value :: Entries.keys rest := by
          rw [same]
          rfl
        rw [keys]
        exact .cons isPlain colon balanced hasKeys
      · exact List.forall_mem_cons.2 ⟨inForms, List.forall_mem_cons.2 ⟨colonForms,
          List.forall_mem_append.2 ⟨formsValue, formsRest⟩⟩⟩
      · intro distinct
        have noValue : ¬ RepeatsKey usedValue := fun repeats =>
          distinct (repeats.within [state.current, state.advance.current] usedRest)
        have noRest : ¬ RepeatsKey usedRest := fun repeats => by
          have whole := repeats.within (state.current :: state.advance.current :: usedValue) []
          rw [List.append_nil, List.cons_append, List.cons_append] at whole
          exact distinct whole
        have colonKind : state.advance.current.kind = .colon := colon
        have colonText := scanned.advance.current_value colon rfl
        rw [contentOf_cons, contentOf_cons, contentOf_append, sameValue noValue, sameRest noRest,
          ← State.kind, isContent, colonKind, colonText, same]
        simp [contentOfEntries, Kind.isContent]

include proceeds keeps in
/-- Keys with their values in curly brackets. Of repeated keys only the last value is kept. -/
theorem keeps_bracedEntries {key : Production String} (isKey : ReadsKey key)
    (proceedsKey : key.Proceeds) {listing : Listing} (closes : listing.closing = .closeCurly)
    {state after : State} {pairs : List (String × Expr)} (opens : state.kind = .openCurly)
    (scanned : state.Scanned) (clean : after.sink = Sink.empty)
    (read : listOf listing (keyed inner key) state.advance = .ok pairs after) :
    state.Keeps after ("\x7b" :: contentOfEntries (Entries.ofPairs pairs) ++ ["\x7d"]) := by
  have proceedsItem := proceeds_keyed proceeds proceedsKey
  obtain ⟨before, listed, rfl⟩ := (listOf_ok_iff proceedsItem (consumes_keyed proceeds proceedsKey)
    scanned.advance).1 read
  have cleanBefore := (State.Reaches.refl before).advance.sink_eq_empty clean
  have beforeScanned := scanned.advance.of_reaches (listed.reaches proceedsItem)
  have closing : before.kind = .closeCurly := listed.kind_eq.trans closes
  obtain ⟨used, ahead, hasKeys, forms, same⟩ :=
    keeps_entries proceeds keeps isKey proceedsKey listed scanned.advance cleanBefore
  have kept : state.advance.Keeps before (contentOfEntries pairs) :=
    ⟨used, ahead, hasKeys.balanced, forms, same⟩
  by_cases distinct : (Entries.keys pairs).Nodup
  · rw [Entries.ofPairs_of_nodup distinct]
    exact .inCurly scanned beforeScanned opens closing kept
  · -- a repeated key stands between these brackets
    obtain ⟨first, second, value, differ, isFirst, isSecond⟩ := hasKeys.exists_repeated distinct
    obtain ⟨whole, aheadWhole, balanced, formsWhole, _⟩ :=
      State.Keeps.inCurly scanned beforeScanned opens closing kept
    refine ⟨whole, aheadWhole, balanced, formsWhole, fun noRepeat => absurd ?_ noRepeat⟩
    have whole_eq : whole = state.current :: (used ++ [before.current]) := by
      have token : state.kind ≠ .endOfInput := by simp [opens]
      have beforeToken : before.kind ≠ .endOfInput := by simp [closing]
      rw [State.Keeps.ahead_eq scanned token, ahead, State.Keeps.ahead_eq beforeScanned beforeToken]
        at aheadWhole
      have cancel : whole ++ before.advance.upcoming.map Lexed.token =
          state.current :: (used ++ [before.current]) ++ before.advance.upcoming.map Lexed.token := by
        rw [← aheadWhole]
        simp
      exact List.append_cancel_right cancel
    exact ⟨[], state.current, used, before.current, [], first, second, value, whole_eq, opens, closing,
      hasKeys.balanced, differ, isFirst, isSecond⟩

theorem content_of_tokenOperand? {token : Token} {value : Expr}
    (stands : tokenOperand? token = some value) : value.content = [token.value] := by
  unfold tokenOperand? wordOperand at stands
  split at stands
  · obtain ⟨number, _, rfl⟩ := Option.map_eq_some_iff.1 stands
    rfl
  · cases stands
    rfl
  · cases stands
    rfl
  · split_ifs at stands with isTrue isFalse isNull <;> cases stands <;> simp [Expr.content, *]

include proceeds consumes keeps in
theorem keepsContent_operand : (operand inner).KeepsContent Expr.content := by
  intro state after value scanned clean read
  rw [operand_run] at read
  split at read
  · next form =>
      obtain ⟨stands, rfl⟩ := primary_ok_iff.1 read
      rw [content_of_tokenOperand? stands]
      have isPrimary : state.kind.isBracket = false ∧ state.kind.isContent = true ∧
          state.kind.inForms = true := by
        cases kind : state.kind <;> rw [kind] at form <;> cases form <;> exact ⟨rfl, rfl, rfl⟩
      exact .passed scanned isPrimary.1 isPrimary.2.2 isPrimary.2.1
  · next form =>
      obtain ⟨operand, readOperand, rfl⟩ := unary_ok_iff.1 read
      have isUnary : state.kind.isBracket = false ∧ state.kind.inForms = true := by
        cases kind : state.kind <;> rw [kind] at form <;> cases form <;> exact ⟨rfl, rfl⟩
      exact (State.Keeps.passed scanned isUnary.1 isUnary.2 (isContent_of_unary form)).trans
        (keeps.expression _ _ _ _ scanned.advance clean readOperand)
  · exact keepsContent_grouping proceeds keeps state after value scanned clean read
  · next form =>
      obtain ⟨elements, readElements, rfl⟩ := arrayLiteral_ok_iff.1 read
      obtain ⟨before, kept, beforeScanned, closes, rfl⟩ :=
        keepsContent_expressionList proceeds consumes keeps scanned.advance clean readElements
      exact .inBrackets scanned beforeScanned (Kind.operandForm?_eq_array_iff.1 form) closes kept
  · next form =>
      obtain ⟨pairs, readPairs, rfl⟩ := objectLiteral_ok_iff.1 read
      exact keeps_bracedEntries proceeds keeps readsKey_objectKey proceeds_objectKey rfl
        (Kind.operandForm?_eq_object_iff.1 form) scanned clean readPairs
  · cases read

include proceeds consumes keeps in
/-- A form that continues an expression has the values of the expression before those of its own
tokens. -/
theorem keepsContent_continuation {start state after : State} {left value : Expr}
    (scanned : state.Scanned) (clean : after.sink = Sink.empty)
    (read : continuation inner left state = .ok value after)
    (kept : start.Keeps state left.content) : start.Keeps after value.content := by
  rw [continuation_run] at read
  split at read
  · next form =>
      obtain ⟨right, readRight, rfl⟩ := pipe_ok_iff.1 read
      have sign := State.Keeps.fixed scanned (Kind.infixForm?_eq_pipe_iff.1 form) rfl rfl rfl rfl
      have rightKept := keeps.expression _ _ _ _ scanned.advance clean readRight
      have whole := (kept.trans sign).trans rightKept
      simpa [Expr.content] using whole
  · next form =>
      obtain ⟨right, readRight, rfl⟩ := binary_ok_iff.1 read
      have isOperator : state.kind.isBracket = false ∧ state.kind.inForms = true := by
        cases kind : state.kind <;> rw [kind] at form <;> cases form <;> exact ⟨rfl, rfl⟩
      have sign := State.Keeps.passed scanned isOperator.1 isOperator.2 (isContent_of_binary form)
      have rightKept := keeps.expression _ _ _ _ scanned.advance clean readRight
      have whole := (kept.trans sign).trans rightKept
      simpa [Expr.content] using whole
  · next form =>
      obtain ⟨arguments, readArguments, rfl⟩ := call_ok_iff.1 read
      obtain ⟨before, argumentsKept, beforeScanned, closes, rfl⟩ :=
        keepsContent_expressionList proceeds consumes keeps scanned.advance clean readArguments
      exact kept.trans (.inParens scanned beforeScanned (Kind.infixForm?_eq_call_iff.1 form) closes
        argumentsKept)
  · next form =>
      obtain ⟨names, rfl, rfl⟩ := member_ok_iff.1 read
      have dot := State.Keeps.fixed scanned (Kind.infixForm?_eq_member_iff.1 form) rfl rfl rfl rfl
      have property := State.Keeps.passed scanned.advance (isBracket_of_namesMember names)
        (Kind.inForms_of_namesMember names) (isContent_of_namesMember names)
      have whole := (kept.trans dot).trans property
      simpa [Expr.content] using whole
  · next form =>
      obtain ⟨position, before, readPosition, closes, rfl, rfl⟩ := index_ok_iff.1 read
      have cleanBefore := (State.Reaches.refl before).advance.sink_eq_empty clean
      have beforeScanned := scanned.advance.of_reaches ((proceeds.expression _).of_ok readPosition)
      have whole := kept.trans (.inBrackets scanned beforeScanned
        (Kind.infixForm?_eq_index_iff.1 form) closes
        (keeps.expression _ _ _ _ scanned.advance cleanBefore readPosition))
      simpa [Expr.content] using whole
  · cases read
    exact kept

include proceeds consumes keeps in
theorem keepsContent_expressionAt (power : BindingPower) :
    (expressionAt inner power).KeepsContent Expr.content := by
  intro state after value scanned clean read
  obtain ⟨left, middle, readLeft, readRest⟩ := expressionAt_ok_iff.1 read
  have middleScanned := scanned.of_reaches ((proceeds_operand proceeds).of_ok readLeft)
  have cleanMiddle := ((Proceeds.iterateWhile (proceeds_continuation proceeds) _ _).of_ok
    readRest).sink_eq_empty clean
  refine keepsContent_iterated (proceeds_continuation proceeds) ?_
    ((iterateWhile_ok_iff (proceeds_continuation proceeds) (continuation_consumes proceeds power)
      middleScanned).1 readRest) middleScanned clean
    (keepsContent_operand proceeds consumes keeps _ _ _ scanned cleanMiddle readLeft)
  intro left next state after scanned clean _ read kept
  exact keepsContent_continuation proceeds consumes keeps scanned clean read kept

/-! ## Statements -/

include proceeds keeps in
theorem keepsContent_configDeclaration {state after : State} {value : Stmt} (scanned : state.Scanned)
    (clean : after.sink = Sink.empty) (isConfig : state.kind.statementForm? = some .config)
    (read : configDeclaration inner state = .ok value after) : state.Keeps after value.content := by
  obtain ⟨identifier, entries, readBody, rfl⟩ := configDeclaration_ok_iff.1 read
  obtain ⟨opens, pairs, readPairs, rfl⟩ := configBody_ok_iff.1 readBody
  obtain ⟨word, isWord, _⟩ := Kind.statementForm?_eq_some_iff.1 isConfig
  have keyword := State.Keeps.passed scanned (by rw [isWord]; rfl) (by rw [isWord]; rfl)
    (by rw [isWord]; rfl)
  have name := State.Keeps.name scanned.advance identifier
  have body := keeps_bracedEntries proceeds keeps readsKey_configKey proceeds_configKey rfl opens
    scanned.advance.advance clean readPairs
  have whole := (keyword.trans name).trans body
  simpa [Stmt.content] using whole

include proceeds keeps in
theorem keepsContent_toolDeclaration {state after : State} {value : Stmt} (scanned : state.Scanned)
    (clean : after.sink = Sink.empty) (isTool : state.kind = .keyword .toolKw)
    (read : toolDeclaration inner state = .ok value after) : state.Keeps after value.content := by
  obtain ⟨identifier, opens, parameters, afterParameters, readParameters, type?, afterType, readType,
    body, readBody, rfl⟩ := toolDeclaration_ok_iff.1 read
  obtain ⟨before, listed, rfl⟩ := (listOf_ok_iff proceeds_parameter consumes_parameter
    scanned.advance.advance.advance).1 readParameters
  have cleanType := (proceeds.block.of_ok readBody).sink_eq_empty clean
  have cleanClosing := (proceeds_declaredType?.of_ok readType).sink_eq_empty cleanType
  have cleanBefore := (State.Reaches.refl before).advance.sink_eq_empty cleanClosing
  have beforeScanned := scanned.advance.advance.advance.of_reaches (listed.reaches proceeds_parameter)
  have typeScanned := beforeScanned.advance.of_reaches (proceeds_declaredType?.of_ok readType)
  have keyword := State.Keeps.fixed scanned isTool rfl rfl rfl rfl
  have name := State.Keeps.name scanned.advance identifier
  have list := State.Keeps.inParens scanned.advance.advance beforeScanned opens listed.kind_eq
    (keepsContent_listed keepsContent_parameter proceeds_parameter listed
      scanned.advance.advance.advance cleanBefore)
  have type := keepsContent_declaredType? _ _ _ beforeScanned.advance cleanType readType
  have block := keeps.block _ _ _ typeScanned clean readBody
  have whole := (((keyword.trans name).trans list).trans type).trans block
  simpa [Stmt.content, Keyword.word] using whole

/-- The names of an import after the first, without their commas. -/
theorem keeps_furtherNames {state after : State} {names : List Token} (scanned : state.Scanned)
    (repeated : Repeated moreNames furtherName state names after) :
    state.Keeps after (names.map Token.value) := by
  induction repeated with
  | stop => exact .refl _
  | @item state middle after first rest goesOn read _ inductionHypothesis =>
      obtain ⟨identifier, rfl, rfl⟩ := furtherName_ok_iff.1 read
      have comma : state.kind = .comma := by
        rw [moreNames, Bool.and_eq_true, decide_eq_true_eq] at goesOn
        exact goesOn.1
      have name := State.Keeps.name scanned.advance identifier
      exact (State.Keeps.comma scanned comma).trans
        (name.trans (inductionHypothesis scanned.advance.advance))

theorem keepsContent_importedNames {state after : State} {read : List Token × Bool}
    (scanned : state.Scanned) (run : importedNames state = .ok read after) :
    state.Keeps after (contentOfNames read.1 read.2) := by
  obtain ⟨opens, names, readNames, rfl⟩ | ⟨identifier, rfl, rfl⟩ := importedNames_ok_iff.1 run
  · obtain ⟨_, identifier, rest, before, readRest, closes, rfl, rfl⟩ := bracedNames_ok_iff.1 readNames
    have restScanned := scanned.advance.advance
    have repeated :=
      (manyWhile_ok_iff proceeds_furtherName consumes_furtherName restScanned).1 readRest
    have beforeScanned := restScanned.of_reaches
      ((proceeds_furtherName.manyWhile moreNames).of_ok readRest)
    have names := (State.Keeps.name scanned.advance identifier).trans
      (keeps_furtherNames restScanned repeated)
    by_cases comma : before.kind = .comma
    · rw [if_pos comma] at closes ⊢
      have whole := State.Keeps.inCurly scanned beforeScanned.advance opens closes
        (names.trans (.comma beforeScanned comma))
      simpa [contentOfNames] using whole
    · rw [if_neg comma] at closes ⊢
      have whole := State.Keeps.inCurly scanned beforeScanned opens closes names
      simpa [contentOfNames] using whole
  · exact .name scanned identifier

theorem keepsContent_importDeclaration {state after : State} {value : Stmt}
    (scanned : state.Scanned) (isImport : state.kind = .keyword .importKw)
    (read : importDeclaration state = .ok value after) : state.Keeps after value.content := by
  obtain ⟨names, before, readNames, isFrom, isSource, rfl, rfl⟩ := importDeclaration_ok_iff.1 read
  have beforeScanned := scanned.advance.of_reaches (proceeds_importedNames.of_ok readNames)
  have keyword := State.Keeps.fixed scanned isImport rfl rfl rfl rfl
  have list := keepsContent_importedNames scanned.advance readNames
  have fromWord := State.Keeps.fixed beforeScanned isFrom rfl rfl rfl rfl
  have source := State.Keeps.passed beforeScanned.advance (by rw [isSource]; rfl)
    (by rw [isSource]; rfl) (by rw [isSource]; rfl)
  have whole := ((keyword.trans list).trans fromWord).trans source
  simpa [Stmt.content, Keyword.word] using whole

include keeps in
theorem keepsContent_alternative : (alternative inner).KeepsContent Stmt.content := by
  intro state after value scanned clean read
  obtain ⟨_, readConditional⟩ | ⟨_, body, readBody, rfl⟩ := alternative_ok_iff.1 read
  · exact keeps.conditional _ _ _ scanned clean readConditional
  · exact keeps.block _ _ _ scanned clean readBody

include proceeds keeps in
theorem keepsContent_conditionalAt : (conditionalAt inner).KeepsContent Stmt.content := by
  intro state after value scanned clean read
  obtain ⟨isIf, condition, afterCondition, readCondition, consequence, afterBlock, readBlock,
    alternative?, readAlternative, rfl⟩ := conditionalAt_ok_iff.1 read
  have proceedsElse := (proceeds_alternative proceeds).after? (.keyword .elseKw)
  have cleanBlock := (proceedsElse.of_ok readAlternative).sink_eq_empty clean
  have cleanCondition := (proceeds.block.of_ok readBlock).sink_eq_empty cleanBlock
  have conditionScanned := scanned.advance.of_reaches
    ((proceeds_grouping proceeds).of_ok readCondition)
  have blockScanned := conditionScanned.of_reaches (proceeds.block.of_ok readBlock)
  have keyword := State.Keeps.fixed scanned isIf rfl rfl rfl rfl
  have conditionKept := keepsContent_grouping proceeds keeps _ _ _ scanned.advance cleanCondition
    readCondition
  have block := keeps.block _ _ _ conditionScanned cleanBlock readBlock
  have other := (keepsContent_alternative keeps).after? rfl rfl rfl rfl _ _ _ blockScanned clean
    readAlternative
  have whole := ((keyword.trans conditionKept).trans block).trans other
  cases alternative? <;> simpa [Stmt.content, Keyword.word] using whole

include keeps in
theorem keepsContent_handler :
    (handler inner).KeepsContent fun read => read.1.value :: read.2.content := by
  intro state after read scanned clean run
  obtain ⟨opens, identifier, closes, body, readBody, rfl⟩ := handler_ok_iff.1 run
  have name := State.Keeps.inParens scanned scanned.advance.advance opens closes
    (.name scanned.advance identifier)
  exact name.trans (keeps.block _ _ _ scanned.advance.advance.advance clean readBody)

include proceeds keeps in
theorem keepsContent_attempt {state after : State} {value : Stmt} (scanned : state.Scanned)
    (clean : after.sink = Sink.empty) (isTry : state.kind = .keyword .tryKw)
    (read : attempt inner state = .ok value after) : state.Keeps after value.content := by
  obtain ⟨body, afterBody, readBody, handler?, afterHandler, readHandler, finalizer?, readFinalizer,
    _, rfl⟩ := attempt_ok_iff.1 read
  have proceedsHandler := (proceeds_handler proceeds).after? (.keyword .catchKw)
  have cleanHandler := ((proceeds.block.after? _).of_ok readFinalizer).sink_eq_empty clean
  have cleanBody := (proceedsHandler.of_ok readHandler).sink_eq_empty cleanHandler
  have bodyScanned := scanned.advance.of_reaches (proceeds.block.of_ok readBody)
  have handlerScanned := bodyScanned.of_reaches (proceedsHandler.of_ok readHandler)
  have keyword := State.Keeps.fixed scanned isTry rfl rfl rfl rfl
  have block := keeps.block _ _ _ scanned.advance cleanBody readBody
  have handler := (keepsContent_handler keeps).after? rfl rfl rfl rfl _ _ _ bodyScanned cleanHandler
    readHandler
  have finalizer := keeps.block.after? rfl rfl rfl rfl _ _ _ handlerScanned clean readFinalizer
  have whole := ((keyword.trans block).trans handler).trans finalizer
  cases handler? <;> cases finalizer? <;>
    simpa [Stmt.content, contentOfHandler, contentOfFinalizer, Keyword.word] using whole

include proceeds keeps in
theorem keepsContent_statementOf {form : StatementForm} {state after : State} {value : Stmt}
    (scanned : state.Scanned) (clean : after.sink = Sink.empty)
    (starts : state.kind.statementForm? = some form)
    (read : statementOf inner form state = .ok value after) : state.Keeps after value.content := by
  have keyword {word : Keyword} (only : Keyword.ofForm? form = some word) :=
    State.Keeps.fixed scanned (Kind.eq_of_statementForm? starts only) rfl rfl rfl rfl
  have onward := scanned.advance
  cases form with
  | config => exact keepsContent_configDeclaration proceeds keeps scanned clean starts read
  | tool =>
      exact keepsContent_toolDeclaration proceeds keeps scanned clean
        (Kind.eq_of_statementForm? starts rfl) read
  | importNames =>
      exact keepsContent_importDeclaration scanned (Kind.eq_of_statementForm? starts rfl) read
  | exported =>
      obtain ⟨statement, readStatement, _, rfl⟩ := exportDeclaration_ok_iff.1 read
      exact (keyword rfl).trans (keeps.statement _ _ _ onward clean readStatement)
  | conditional => exact keeps.conditional _ _ _ scanned clean read
  | whileLoop =>
      obtain ⟨condition, before, readCondition, body, readBody, rfl⟩ := whileLoop_ok_iff.1 read
      have cleanBefore := (proceeds.block.of_ok readBody).sink_eq_empty clean
      have beforeScanned := onward.of_reaches ((proceeds_grouping proceeds).of_ok readCondition)
      have whole := ((keyword rfl).trans (keepsContent_grouping proceeds keeps _ _ _ onward cleanBefore
        readCondition)).trans (keeps.block _ _ _ beforeScanned clean readBody)
      simpa [Stmt.content, Keyword.word] using whole
  | forOf =>
      obtain ⟨opens, identifier, isOf, iterable, before, readIterable, closes, body, readBody, rfl⟩ :=
        forOf_ok_iff.1 read
      have inside := onward.advance.advance.advance
      have beforeScanned := inside.of_reaches ((proceeds.expression _).of_ok readIterable)
      have cleanBefore := ((State.Reaches.refl before).advance.trans
        (proceeds.block.of_ok readBody)).sink_eq_empty clean
      have name := State.Keeps.name onward.advance identifier
      have ofWord := State.Keeps.fixed onward.advance.advance isOf rfl rfl rfl rfl
      have value := keeps.expression _ _ _ _ inside cleanBefore readIterable
      have head := State.Keeps.inParens onward beforeScanned opens closes
        ((name.trans ofWord).trans value)
      have whole := ((keyword rfl).trans head).trans
        (keeps.block _ _ _ beforeScanned.advance clean readBody)
      simpa [Stmt.content, Keyword.word] using whole
  | breakLoop =>
      cases read
      exact keyword rfl
  | continueLoop =>
      cases read
      exact keyword rfl
  | returnValue =>
      obtain ⟨_, rfl, rfl⟩ | ⟨_, value, readValue, rfl⟩ := returnValue_ok_iff.1 read
      · exact keyword rfl
      · exact (keyword rfl).trans (keeps.expression _ _ _ _ onward clean readValue)
  | throwValue =>
      obtain ⟨_, value, readValue, rfl⟩ := throwValue_ok_iff.1 read
      exact (keyword rfl).trans (keeps.expression _ _ _ _ onward clean readValue)
  | attempt =>
      exact keepsContent_attempt proceeds keeps scanned clean (Kind.eq_of_statementForm? starts rfl)
        read
  | reserved => cases read

include proceeds keeps in
theorem keepsContent_statement : (Production.statement inner).KeepsContent Stmt.content := by
  intro state after statement scanned clean read
  rw [statement_run] at read
  split at read
  · next starts => exact keepsContent_statementOf proceeds keeps scanned clean starts read
  · split at read
    · obtain ⟨identifier, type?, before, readType, isAssign, value, readValue, rfl⟩ :=
        assignment_ok_iff.1 read
      have cleanBefore := ((State.Reaches.refl before).advance.trans
        ((proceeds.expression _).of_ok readValue)).sink_eq_empty clean
      have beforeScanned := scanned.advance.of_reaches (proceeds_declaredType?.of_ok readType)
      have name := State.Keeps.name scanned identifier
      have type := keepsContent_declaredType? _ _ _ scanned.advance cleanBefore readType
      have sign := State.Keeps.fixed beforeScanned isAssign rfl rfl rfl rfl
      have whole := ((name.trans type).trans sign).trans
        (keeps.expression _ _ _ _ beforeScanned.advance clean readValue)
      simpa [Stmt.content] using whole
    · obtain ⟨value, readValue, rfl⟩ := expressionStatement_ok_iff.1 read
      exact keeps.expression _ _ _ _ scanned clean readValue

/-- The statements of a succession have the values of the tokens passed for them. -/
theorem Succession.keepsContent {inBlock : Bool} {statement : Production Stmt}
    (keeps : statement.KeepsContent Stmt.content) (proceeds : statement.Proceeds)
    {state final : State} {list : List Stmt}
    (succession : Succession inBlock statement state list final) (scanned : state.Scanned)
    (clean : final.sink = Sink.empty) : state.Keeps final (contentOfStmts list) := by
  induction succession with
  | nil => exact .refl _
  | cons _ _ read _ rest inductionHypothesis =>
      have cleanAfter := (rest.reaches proceeds).sink_eq_empty clean
      exact (keeps _ _ _ scanned cleanAfter read).trans
        (inductionHypothesis (scanned.of_reaches (proceeds.of_ok read)) clean)

include proceeds consumes keeps in
theorem keepsContent_blockAt : (blockAt inner).KeepsContent Block.content := by
  intro state after body scanned clean read
  obtain ⟨opens, list, before, readList, closes, rfl, rfl⟩ := blockAt_ok_iff.1 read
  have proceedsOne := proceeds_statement proceeds
  have cleanBefore := (State.Reaches.refl before).advance.sink_eq_empty clean
  have succession := succession_of_statementsWithin proceedsOne
    (consumes_statement proceeds consumes) scanned.advance (Nat.le_refl _) readList cleanBefore
  exact .inCurly scanned (scanned.advance.of_reaches (succession.reaches proceedsOne)) opens closes
    (succession.keepsContent (keepsContent_statement proceeds keeps) proceedsOne scanned.advance
      cleanBefore)

end

/-- At every level of nesting, what is read without diagnostics has the values of its tokens. -/
theorem levelKeeps_withRoom (room : Nat) : LevelKeeps (Level.withRoom room) := by
  induction room with
  | zero =>
      exact ⟨fun _ => keepsContent_tooDeep _, keepsContent_tooDeep _, keepsContent_tooDeep _,
        keepsContent_tooDeep _⟩
  | succ room inductionHypothesis =>
      have proceeds := levelProceeds_withRoom room
      have consumes := levelConsumes_withRoom room
      exact ⟨
        fun power => (keepsContent_expressionAt proceeds consumes inductionHypothesis power).deeper,
        (keepsContent_blockAt proceeds consumes inductionHypothesis).deeper,
        (keepsContent_conditionalAt proceeds inductionHypothesis).deeper,
        (keepsContent_statement proceeds inductionHypothesis).deeper⟩

/-- The program of a script without diagnostics has the values of all its tokens. -/
theorem keeps_readProgram {source : String} (clean : (parse source).2.entries = []) :
    (State.ofSource source).Keeps (State.ofSource source).readProgram.2
      (contentOfStmts (parse source).1.statements) := by
  obtain ⟨succession, cleanFinal, _⟩ := succession_readProgram clean
  exact succession.keepsContent
    (keepsContent_statement (levelProceeds_withRoom maxNesting) (levelKeeps_withRoom maxNesting))
    (proceeds_statement_withRoom maxNesting) (State.scanned_ofSource source) cleanFinal

end AgentScript.Production
