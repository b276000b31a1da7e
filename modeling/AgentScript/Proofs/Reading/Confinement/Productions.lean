import AgentScript.Proofs.Reading.Confinement
import AgentScript.Proofs.Reading.Succession
import AgentScript.Proofs.Token.Forms

/-!
Contract: every production of the grammar stays in front of a border.

Owns:
- one statement for each production, given the level further in, and from them the statement for every
  level;
- that a list of statements comes to the border with no bracket open.

A production that may pass a keyword asks for a token in front of the border: there is one after a
dot, a colon, `export` or `else`, and inside curly brackets.
-/

set_option autoImplicit false

namespace AgentScript

namespace Kind

variable {kind : Kind}

theorem startsStatement_eq_false_of_operandForm? {form : OperandForm}
    (starts : kind.operandForm? = some form) : kind.startsStatement = false := by
  cases kind <;> first | rfl | cases starts

theorem startsStatement_eq_false_of_infixForm? {form : InfixForm}
    (continues : kind.infixForm? = some form) : kind.startsStatement = false := by
  cases kind <;> first | rfl | cases continues

theorem isBracket_eq_false_of_operandForm? (starts : kind.operandForm? = some .primary ∨
    kind.operandForm? = some .unary) : kind.isBracket = false := by
  cases kind <;> first | rfl | (rcases starts with starts | starts <;> cases starts)

theorem isBracket_eq_false_of_infixForm? (continues : kind.infixForm? = some .pipe ∨
    kind.infixForm? = some .binary ∨ kind.infixForm? = some .member) : kind.isBracket = false := by
  cases kind <;> first | rfl | (rcases continues with starts | starts | starts <;> cases starts)

theorem isBracket_eq_false_of_statementForm? {form : StatementForm}
    (starts : kind.statementForm? = some form) : kind.isBracket = false := by
  cases kind <;> first | rfl | cases starts

theorem isBracket_eq_false_of_namesType (names : kind.namesType = true) : kind.isBracket = false := by
  cases kind <;> first | rfl | cases names

end Kind

namespace Production

variable {α : Type} {border : Border} {state : State} {left : List Kind}

/-- A production that stays in front of the border, with the brackets open that were open before. -/
def StaysFrom (border : Border) (production : Production α) : Prop :=
  ∀ ⦃left : List Kind⦄ ⦃state : State⦄, state.Confined border → state.openBrackets = left →
    Stays border left (production state)

/-- The same, if there is a token in front of the border. -/
def StaysFromInside (border : Border) (production : Production α) : Prop :=
  ∀ ⦃left : List Kind⦄ ⦃state : State⦄, state.Confined border → state.Inside border →
    state.openBrackets = left → Stays border left (production state)

/-- What is read one level further in stays in front of the border. -/
structure LevelStays (border : Border) (inner : Level) : Prop where
  expression : ∀ power, StaysFrom border (inner.expression power)
  block : StaysFrom border inner.block
  conditional : StaysFromInside border inner.conditional
  statement : StaysFromInside border inner.statement

/-- An expected token that is neither a bracket nor the start of a statement. -/
theorem stays_plain_bind {β : Type} {kind : Kind} {expected : String} {next : Token → Production β}
    (noStatement : kind.startsStatement = false) (isPlain : kind.isBracket = false)
    (confined : state.Confined border) (brackets : state.openBrackets = left)
    (onward : state.advance.Confined border → state.advance.openBrackets = left →
      Stays border left (next state.current state.advance)) :
    Stays border left ((expectAs kind expected >>= next) state) :=
  stays_expectAs_bind confined (confined.insideAt noStatement)
    (Kind.bracketsInOrder?_of_plain isPlain) (brackets ▸ List.suffix_rfl)
    fun _ confined same _ => onward confined (same.trans brackets)

/-- An expected bracket that opens. -/
theorem stays_opening_bind {β : Type} {kind : Kind} {expected : String} {next : Token → Production β}
    (noStatement : kind.startsStatement = false) (isOpener : kind.isOpener = true)
    (confined : state.Confined border) (brackets : state.openBrackets = left)
    (onward : state.advance.Confined border → state.advance.openBrackets = kind :: left →
      Stays border left (next state.current state.advance)) :
    Stays border left ((expectAs kind expected >>= next) state) :=
  stays_expectAs_bind confined (confined.insideAt noStatement)
    (Kind.bracketsInOrder?_of_opener isOpener) (brackets ▸ List.suffix_rfl)
    fun _ confined opened _ => onward confined (brackets ▸ opened)

/-- An expected bracket that closes the one opened last. -/
theorem stays_closing_bind {β : Type} {kind opener : Kind} {expected : String}
    {next : Token → Production β} (noStatement : kind.startsStatement = false)
    (answers : kind.opener? = some opener) (confined : state.Confined border)
    (brackets : state.openBrackets = opener :: left)
    (onward : state.advance.Confined border → state.advance.openBrackets = left →
      Stays border left (next state.current state.advance)) :
    Stays border left ((expectAs kind expected >>= next) state) :=
  stays_expectAs_bind confined (confined.insideAt noStatement)
    ((Kind.bracketsInOrder?_of_closing answers).2 brackets) (brackets ▸ List.suffix_cons _ _)
    fun _ confined closed _ => onward confined closed

/-- What follows a keyword that starts a statement. -/
theorem stays_keyword_bind {next : Token → Production Stmt} (isPlain : state.kind.isBracket = false)
    (confined : state.Confined border) (inside : state.Inside border)
    (brackets : state.openBrackets = left)
    (onward : state.advance.Confined border → state.advance.openBrackets = left →
      (state.kind.admitsKeyword = true → state.advance.Inside border) →
      Stays border left (next state.current state.advance)) :
    Stays border left ((take >>= next) state) :=
  stays_take_bind confined inside (Kind.bracketsInOrder?_of_plain isPlain)
    fun confined same admits => onward confined (same.trans brackets) admits

/-! ## Types -/

theorem staysFromInside_typeName : StaysFromInside border typeName := by
  intro left state confined inside brackets
  unfold typeName
  rw [currentKind_bind]
  refine stays_ite (fun names => ?_)
    fun _ => stays_failUnexpected confined (brackets ▸ List.suffix_rfl) _
  exact stays_take_bind confined inside
    (Kind.bracketsInOrder?_of_plain (Kind.isBracket_eq_false_of_namesType names))
    fun confined same _ => stays_pure confined (same.trans brackets) _

theorem staysFrom_arraySuffix (element : TypeExpr) : StaysFrom border (arraySuffix element) :=
  fun _ _ confined brackets => stays_opening_bind rfl rfl confined brackets
    fun confined opened => stays_closing_bind rfl rfl confined opened
      fun confined closed => stays_pure confined closed _

theorem staysFromInside_typeExpr (power : BindingPower) :
    StaysFromInside border (typeExpr power) :=
  fun _ _ confined inside brackets => (staysFromInside_typeName confined inside brackets).bind_same
    fun value _ confined brackets => stays_iterateWhile
      (fun element _ confined brackets _ => staysFrom_arraySuffix element confined brackets)
      confined brackets value

theorem staysFrom_declaredType? : StaysFrom border declaredType? :=
  fun _ _ confined brackets => stays_after? confined brackets rfl rfl
    fun confined brackets admits => staysFromInside_typeExpr _ confined (admits rfl) brackets

/-! ## Expressions -/

theorem stays_primary (isPlain : state.kind.isBracket = false)
    (noStatement : state.kind.startsStatement = false) (confined : state.Confined border)
    (brackets : state.openBrackets = left) : Stays border left (primary state) := by
  unfold primary
  refine stays_take_bind confined (confined.inside_of_kind noStatement)
    (Kind.bracketsInOrder?_of_plain isPlain) fun confined same _ => ?_
  have brackets := same.trans brackets
  cases state.current.kind with
  | number =>
      simp only
      cases Decimal.ofText? state.current.value.toList with
      | none => exact stays_throw confined (brackets ▸ List.suffix_rfl) _
      | some value => exact stays_pure confined brackets _
  | _ => exact stays_pure confined brackets _

theorem staysFrom_objectKey : StaysFrom border objectKey := by
  intro left state confined brackets
  have names (noStatement : state.kind.startsStatement = false)
      (isPlain : state.kind.isBracket = false) :
      Stays border left ((do return (← take).value : Production String) state) :=
    stays_take_bind confined (confined.inside_of_kind noStatement)
      (Kind.bracketsInOrder?_of_plain isPlain)
      fun confined same _ => stays_pure confined (same.trans brackets) _
  have floor : left <:+ state.openBrackets := brackets ▸ List.suffix_rfl
  unfold objectKey
  rw [currentKind_bind]
  cases here : state.kind with
  | identifier => exact names (by rw [here]; rfl) (by rw [here]; rfl)
  | string => exact names (by rw [here]; rfl) (by rw [here]; rfl)
  | endOfInput => exact stays_failUnexpected confined floor _
  | _ => exact stays_failHere confined floor _

section

variable {inner : Level} (stays : LevelStays border inner)
include stays

theorem stays_keyed {key : Production String} (readKey : Stays border left (key state)) :
    Stays border left (keyed inner key state) :=
  readKey.bind_same fun _ _ confined brackets => stays_plain_bind rfl rfl confined brackets
    fun confined brackets => (stays.expression _ confined brackets).bind_pure _

theorem stays_unary (isPlain : state.kind.isBracket = false)
    (noStatement : state.kind.startsStatement = false) (confined : state.Confined border)
    (brackets : state.openBrackets = left) : Stays border left (unary inner state) :=
  stays_take_bind confined (confined.inside_of_kind noStatement)
    (Kind.bracketsInOrder?_of_plain isPlain)
    fun confined same _ => (stays.expression _ confined (same.trans brackets)).bind_pure _

theorem staysFrom_grouping : StaysFrom border (grouping inner) :=
  fun _ _ confined brackets => stays_opening_bind rfl rfl confined brackets
    fun confined opened => (stays.expression _ confined opened).bind (List.suffix_cons _ _)
      fun _ _ confined opened => stays_closing_bind rfl rfl confined opened
        fun confined closed => stays_pure confined closed _

theorem stays_expressionList {closing opener : Kind} (answers : closing.opener? = some opener)
    (confined : state.Confined border) (opened : state.openBrackets = opener :: left) :
    Stays border left (expressionList inner closing state) :=
  stays_listOf answers (fun _ confined opened _ => stays.expression _ confined opened) confined opened

theorem stays_arrayLiteral (here : state.kind = .openBracket) (confined : state.Confined border)
    (brackets : state.openBrackets = left) : Stays border left (arrayLiteral inner state) :=
  stays_take_bind confined (confined.insideAt rfl here)
    (Kind.bracketsInOrder?_of_opener (by rw [here]; rfl))
    fun confined opened _ => (stays_expressionList stays rfl confined
      (by rw [opened, here, brackets])).bind_pure _

theorem stays_objectLiteral (here : state.kind = .openCurly) (confined : state.Confined border)
    (brackets : state.openBrackets = left) : Stays border left (objectLiteral inner state) :=
  stays_take_bind confined (confined.insideAt rfl here)
    (Kind.bracketsInOrder?_of_opener (by rw [here]; rfl))
    fun confined opened _ => (stays_listOf rfl
      (fun _ confined opened _ => stays_keyed stays (staysFrom_objectKey confined opened)) confined
      (by rw [opened, here, brackets])).bind_pure _

theorem stays_binary (value : Expr) (power : BindingPower) (isPlain : state.kind.isBracket = false)
    (noStatement : state.kind.startsStatement = false) (confined : state.Confined border)
    (brackets : state.openBrackets = left) : Stays border left (binary inner value power state) :=
  stays_take_bind confined (confined.inside_of_kind noStatement)
    (Kind.bracketsInOrder?_of_plain isPlain)
    fun confined same _ => (stays.expression _ confined (same.trans brackets)).bind_pure _

theorem stays_pipe (value : Expr) (power : BindingPower) (isPlain : state.kind.isBracket = false)
    (noStatement : state.kind.startsStatement = false) (confined : state.Confined border)
    (brackets : state.openBrackets = left) : Stays border left (pipe inner value power state) :=
  stays_take_bind confined (confined.inside_of_kind noStatement)
    (Kind.bracketsInOrder?_of_plain isPlain)
    fun confined same _ => (stays.expression _ confined (same.trans brackets)).bind_pure _

theorem stays_call (value : Expr) (here : state.kind = .openParen) (confined : state.Confined border)
    (brackets : state.openBrackets = left) : Stays border left (call inner value state) :=
  stays_take_bind confined (confined.insideAt rfl here)
    (Kind.bracketsInOrder?_of_opener (by rw [here]; rfl))
    fun confined opened _ => (stays_expressionList stays rfl confined
      (by rw [opened, here, brackets])).bind_pure _

omit stays in
theorem stays_member (value : Expr) (here : state.kind = .dot) (confined : state.Confined border)
    (brackets : state.openBrackets = left) : Stays border left (member value state) := by
  unfold member
  refine stays_take_bind confined (confined.insideAt rfl here)
    (Kind.bracketsInOrder?_of_plain (by rw [here]; rfl)) fun confined same admits => ?_
  have brackets := same.trans brackets
  rw [currentKind_bind]
  refine stays_ite (fun names => ?_)
    fun _ => stays_failUnexpected confined (brackets ▸ List.suffix_rfl) _
  exact stays_take_bind confined (admits (by rw [here]; rfl))
    (Kind.bracketsInOrder?_of_plain (isBracket_of_namesMember names))
    fun confined same _ => stays_pure confined (same.trans brackets) _

theorem stays_index (value : Expr) (here : state.kind = .openBracket)
    (confined : state.Confined border) (brackets : state.openBrackets = left) :
    Stays border left (index inner value state) := by
  unfold index
  refine stays_take_bind confined (confined.insideAt rfl here)
    (Kind.bracketsInOrder?_of_opener (by rw [here]; rfl)) fun confined opened _ => ?_
  rw [here, brackets] at opened
  exact (stays.expression _ confined opened).bind (List.suffix_cons _ _)
    fun _ _ confined opened => stays_closing_bind rfl rfl confined opened
      fun confined closed => stays_pure confined closed _

theorem staysFrom_operand : StaysFrom border (operand inner) := by
  intro left state confined brackets
  rw [operand_run]
  split
  · next form =>
      exact stays_primary (Kind.isBracket_eq_false_of_operandForm? (.inl form))
        (Kind.startsStatement_eq_false_of_operandForm? form) confined brackets
  · next form =>
      exact stays_unary stays (Kind.isBracket_eq_false_of_operandForm? (.inr form))
        (Kind.startsStatement_eq_false_of_operandForm? form) confined brackets
  · exact staysFrom_grouping stays confined brackets
  · next form =>
      exact stays_arrayLiteral stays (Kind.operandForm?_eq_array_iff.1 form) confined brackets
  · next form =>
      exact stays_objectLiteral stays (Kind.operandForm?_eq_object_iff.1 form) confined brackets
  · exact stays_failHere confined (brackets ▸ List.suffix_rfl) _

theorem staysFrom_continuation (value : Expr) : StaysFrom border (continuation inner value) := by
  intro left state confined brackets
  rw [continuation_run]
  split
  · next form =>
      exact stays_pipe stays _ _ (Kind.isBracket_eq_false_of_infixForm? (.inl form))
        (Kind.startsStatement_eq_false_of_infixForm? form) confined brackets
  · next form =>
      exact stays_binary stays _ _ (Kind.isBracket_eq_false_of_infixForm? (.inr (.inl form)))
        (Kind.startsStatement_eq_false_of_infixForm? form) confined brackets
  · next form => exact stays_call stays _ (Kind.infixForm?_eq_call_iff.1 form) confined brackets
  · next form => exact stays_member _ (Kind.infixForm?_eq_member_iff.1 form) confined brackets
  · next form => exact stays_index stays _ (Kind.infixForm?_eq_index_iff.1 form) confined brackets
  · exact stays_pure confined brackets _

theorem staysFrom_expressionAt (power : BindingPower) : StaysFrom border (expressionAt inner power) :=
  fun _ _ confined brackets => (staysFrom_operand stays confined brackets).bind_same
    fun value _ confined brackets => stays_iterateWhile
      (fun value _ confined brackets _ => staysFrom_continuation stays value confined brackets)
      confined brackets value

/-! ## Declarations -/

omit stays in
theorem staysFromInside_configKey : StaysFromInside border configKey := by
  intro left state confined inside brackets
  have floor : left <:+ state.openBrackets := brackets ▸ List.suffix_rfl
  unfold configKey
  rw [get_bind]
  refine stays_ite (fun _ => stays_failUnexpected confined floor _) fun _ =>
    stays_ite (fun names => ?_) fun _ => stays_failHere confined floor _
  exact stays_take_bind confined inside
    (Kind.bracketsInOrder?_of_plain (isBracket_of_namesMember names))
    fun confined same _ => stays_pure confined (same.trans brackets) _

theorem staysFrom_configBody : StaysFrom border (configBody inner) :=
  fun _ _ confined brackets => stays_opening_bind rfl rfl confined brackets
    fun confined opened => (stays_listOf rfl
      (fun state confined opened _ => stays_keyed stays (staysFromInside_configKey confined
        (confined.inside_of_open (by simp [opened])) opened))
      confined opened).bind_pure _

omit stays in
theorem staysFrom_parameter : StaysFrom border parameter :=
  fun _ _ confined brackets => stays_plain_bind rfl rfl confined brackets
    fun confined brackets => (staysFrom_declaredType? confined brackets).bind_pure _

omit stays in
theorem staysFrom_importedName : StaysFrom border importedName :=
  fun _ _ confined brackets => stays_expectAs confined (confined.insideAt rfl)
    ((Kind.bracketsInOrder?_of_plain rfl).trans (congrArg some brackets))
    (brackets ▸ List.suffix_rfl)

omit stays in
theorem staysFrom_bracedNames : StaysFrom border bracedNames := by
  intro left state confined brackets
  refine stays_opening_bind rfl rfl confined brackets fun confined opened => ?_
  refine (staysFrom_importedName confined opened).bind (List.suffix_cons _ _)
    fun _ _ confined opened => ?_
  refine (stays_manyWhile (fun state confined brackets goesOn => ?_) confined opened).bind
    (List.suffix_cons _ _) fun _ _ confined opened =>
      (stays_passIf confined opened rfl rfl).bind (List.suffix_cons _ _)
        fun _ _ confined opened => stays_closing_bind rfl rfl confined opened
          fun confined closed => stays_pure confined closed _
  have comma : state.kind = .comma := by
    unfold moreNames at goesOn
    simp only [Bool.and_eq_true, decide_eq_true_eq] at goesOn
    exact goesOn.1
  exact stays_take_bind confined (confined.insideAt rfl comma)
    (Kind.bracketsInOrder?_of_plain (by rw [comma]; rfl))
    fun confined same _ => staysFrom_importedName confined (same.trans brackets)

omit stays in
theorem staysFrom_importedNames : StaysFrom border importedNames := by
  intro left state confined brackets
  unfold importedNames
  rw [currentKind_bind]
  exact stays_ite (fun _ => (staysFrom_bracedNames confined brackets).bind_pure _)
    fun _ => (staysFrom_importedName confined brackets).bind_pure _

/-! ## Statements that start with a keyword -/

section

variable (isPlain : state.kind.isBracket = false) (confined : state.Confined border)
  (inside : state.Inside border) (brackets : state.openBrackets = left)
include isPlain confined inside brackets

theorem stays_configDeclaration : Stays border left (configDeclaration inner state) :=
  stays_keyword_bind isPlain confined inside brackets fun confined brackets _ =>
    stays_plain_bind rfl rfl confined brackets fun confined brackets =>
      (staysFrom_configBody stays confined brackets).bind_pure _

theorem stays_toolDeclaration : Stays border left (toolDeclaration inner state) :=
  stays_keyword_bind isPlain confined inside brackets fun confined brackets _ =>
    stays_plain_bind rfl rfl confined brackets fun confined brackets =>
      stays_opening_bind rfl rfl confined brackets fun confined opened =>
        (stays_listOf rfl (fun _ confined opened _ => staysFrom_parameter confined opened) confined
          opened).bind_same fun _ _ confined brackets =>
            (staysFrom_declaredType? confined brackets).bind_same fun _ _ confined brackets =>
              (stays.block confined brackets).bind_pure _

omit stays in
theorem stays_importDeclaration : Stays border left (importDeclaration state) :=
  stays_keyword_bind isPlain confined inside brackets fun confined brackets _ =>
    (staysFrom_importedNames confined brackets).bind_same fun _ _ confined brackets =>
      stays_plain_bind rfl rfl confined brackets fun confined brackets =>
        stays_plain_bind rfl rfl confined brackets fun confined brackets =>
          stays_pure confined brackets _

theorem stays_exportDeclaration (isExport : state.kind = .keyword .exportKw) :
    Stays border left (exportDeclaration inner state) := by
  refine stays_keyword_bind isPlain confined inside brackets fun confined brackets admits => ?_
  rw [get_bind]
  refine (stays.statement confined (admits (by rw [isExport]; rfl)) brackets).bind_same
    fun _ _ confined brackets => ?_
  exact stays_ite (fun _ => stays_pure confined brackets _)
    fun _ => stays_throw confined (brackets ▸ List.suffix_rfl) _

theorem stays_whileLoop : Stays border left (whileLoop inner state) :=
  stays_keyword_bind isPlain confined inside brackets fun confined brackets _ =>
    (staysFrom_grouping stays confined brackets).bind_same fun _ _ confined brackets =>
      (stays.block confined brackets).bind_pure _

theorem stays_forOf : Stays border left (forOf inner state) :=
  stays_keyword_bind isPlain confined inside brackets fun confined brackets _ =>
    stays_opening_bind rfl rfl confined brackets fun confined opened => by
      have floor : left <:+ .openParen :: left := List.suffix_cons _ _
      refine stays_expectAs_bind confined (confined.insideAt rfl)
        (Kind.bracketsInOrder?_of_plain rfl) (opened ▸ floor) fun _ confined same _ => ?_
      have opened := same.trans opened
      refine stays_expectAs_bind confined (confined.insideAt rfl)
        (Kind.bracketsInOrder?_of_plain rfl) (opened ▸ floor) fun _ confined same _ => ?_
      refine (stays.expression _ confined (same.trans opened)).bind floor
        fun _ _ confined opened => stays_closing_bind rfl rfl confined opened
          fun confined brackets => (stays.block confined brackets).bind_pure _

theorem stays_returnValue : Stays border left (returnValue inner state) := by
  refine stays_keyword_bind isPlain confined inside brackets fun confined brackets _ => ?_
  rw [get_bind]
  exact stays_ite (fun _ => stays_pure confined brackets _)
    fun _ => (stays.expression _ confined brackets).bind_pure _

theorem stays_throwValue : Stays border left (throwValue inner state) := by
  refine stays_keyword_bind isPlain confined inside brackets fun confined brackets _ => ?_
  rw [get_bind]
  exact stays_ite (fun _ => stays_throw confined (brackets ▸ List.suffix_rfl) _)
    fun _ => (stays.expression _ confined brackets).bind_pure _

end

theorem staysFrom_handler : StaysFrom border (handler inner) :=
  fun _ _ confined brackets => stays_opening_bind rfl rfl confined brackets
    fun confined opened => stays_expectAs_bind confined (confined.insideAt rfl)
      (Kind.bracketsInOrder?_of_plain rfl) (opened ▸ List.suffix_cons _ _)
      fun _ confined same _ => stays_closing_bind rfl rfl confined (same.trans opened)
        fun confined brackets => (stays.block confined brackets).bind_pure _

theorem stays_attempt (isPlain : state.kind.isBracket = false) (confined : state.Confined border)
    (inside : state.Inside border) (brackets : state.openBrackets = left) :
    Stays border left (attempt inner state) :=
  stays_keyword_bind isPlain confined inside brackets fun confined brackets _ =>
    (stays.block confined brackets).bind_same fun _ _ confined brackets =>
      (stays_after? confined brackets rfl rfl fun confined brackets _ =>
        staysFrom_handler stays confined brackets).bind_same fun _ _ confined brackets =>
          (stays_after? confined brackets rfl rfl fun confined brackets _ =>
            stays.block confined brackets).bind_same fun _ _ confined brackets =>
              stays_ite (fun _ => stays_throw confined (brackets ▸ List.suffix_rfl) _)
                fun _ => stays_pure confined brackets _

theorem staysFromInside_alternative : StaysFromInside border (alternative inner) := by
  intro left state confined inside brackets
  unfold alternative
  rw [currentKind_bind]
  exact stays_ite (fun _ => stays.conditional confined inside brackets)
    fun _ => (stays.block confined brackets).bind_pure _

theorem staysFromInside_conditionalAt : StaysFromInside border (conditionalAt inner) :=
  fun _ _ confined inside brackets => stays_expectAs_bind confined (fun _ => inside)
    (Kind.bracketsInOrder?_of_plain rfl) (brackets ▸ List.suffix_rfl)
    fun _ confined same _ =>
      (staysFrom_grouping stays confined (same.trans brackets)).bind_same fun _ _ confined brackets =>
        (stays.block confined brackets).bind_same fun _ _ confined brackets =>
          (stays_after? confined brackets rfl rfl fun confined brackets admits =>
            staysFromInside_alternative stays confined (admits rfl) brackets).bind_pure _

theorem stays_statementOf {form : StatementForm} (starts : state.kind.statementForm? = some form)
    (confined : state.Confined border) (inside : state.Inside border)
    (brackets : state.openBrackets = left) : Stays border left (statementOf inner form state) := by
  have isPlain := Kind.isBracket_eq_false_of_statementForm? starts
  cases form with
  | config => exact stays_configDeclaration stays isPlain confined inside brackets
  | tool => exact stays_toolDeclaration stays isPlain confined inside brackets
  | importNames => exact stays_importDeclaration isPlain confined inside brackets
  | exported =>
      exact stays_exportDeclaration stays isPlain confined inside brackets
        (Kind.eq_of_statementForm? starts rfl)
  | conditional => exact stays.conditional confined inside brackets
  | whileLoop => exact stays_whileLoop stays isPlain confined inside brackets
  | forOf => exact stays_forOf stays isPlain confined inside brackets
  | breakLoop =>
      exact stays_keyword_bind isPlain confined inside brackets
        fun confined brackets _ => stays_pure confined brackets _
  | continueLoop =>
      exact stays_keyword_bind isPlain confined inside brackets
        fun confined brackets _ => stays_pure confined brackets _
  | returnValue => exact stays_returnValue stays isPlain confined inside brackets
  | throwValue => exact stays_throwValue stays isPlain confined inside brackets
  | attempt => exact stays_attempt stays isPlain confined inside brackets
  | reserved =>
      exact stays_keyword_bind isPlain confined inside brackets
        fun confined brackets _ => stays_throw confined (brackets ▸ List.suffix_rfl) _

theorem staysFrom_assignment : StaysFrom border (assignment inner) :=
  fun _ _ confined brackets => stays_plain_bind rfl rfl confined brackets fun confined brackets =>
    (staysFrom_declaredType? confined brackets).bind_same fun _ _ confined brackets =>
      stays_plain_bind rfl rfl confined brackets fun confined brackets =>
        (stays.expression _ confined brackets).bind_pure _

theorem staysFrom_expressionStatement : StaysFrom border (expressionStatement inner) :=
  fun _ _ confined brackets => by
    unfold expressionStatement
    rw [get_bind]
    exact (stays.expression _ confined brackets).bind_pure _

theorem staysFromInside_statement : StaysFromInside border (Production.statement inner) := by
  intro left state confined inside brackets
  rw [statement_run]
  split
  · next form starts => exact stays_statementOf stays starts confined inside brackets
  · split
    · exact staysFrom_assignment stays confined brackets
    · exact staysFrom_expressionStatement stays confined brackets

end

/-! ## Lists of statements -/

/-- Where a list of statements goes on after a statement that starts at the given state. -/
def nextStart (inBlock : Bool) (start : State) : EStateM.Result Diagnostic State Stmt → State
  | .ok _ after => checkSeparated inBlock after
  | .error diagnostic failed => recover start (failed.report diagnostic)

/-- A list of statements comes to the border with no bracket open, and goes on from there. -/
def RunsToBorder (border : Border) (statement : Production Stmt) (bound : List Lexed)
    (state : State) : Prop :=
  ∃ list final, state.Reaches final ∧ final.Confined border ∧ final.upcoming = border.rest ∧
    final.openBrackets = [] ∧
    statementsWithin false statement bound state =
      (list ++ (statementsWithin false statement final.upcoming final).1,
        (statementsWithin false statement final.upcoming final).2)

/-- What is passed on the way to the next state stands in front of what is passed from there. -/
theorem RunsToBorder.of_step {statement : Production Stmt} {bound boundNext : List Lexed}
    {next : State} (runs : RunsToBorder border statement boundNext next) (front : List Stmt)
    (course : state.Reaches next)
    (step : statementsWithin false statement bound state =
      (front ++ (statementsWithin false statement boundNext next).1,
        (statementsWithin false statement boundNext next).2)) :
    RunsToBorder border statement bound state := by
  obtain ⟨list, final, courseFinal, confined, ahead, closed, runNext⟩ := runs
  refine ⟨front ++ list, final, course.trans courseFinal, confined, ahead, closed, ?_⟩
  rw [step, runNext, List.append_assoc]

section

variable {statement : Production Stmt} (stays : StaysFromInside border statement)
  (proceeds : statement.Proceeds)
include stays proceeds

/-- After a statement of a list, and after the failure of one, the brackets are open that were open
before it. -/
theorem confined_nextStart (inBlock : Bool) {start : State}
    (home : StartsStatements start.openBrackets)
    (goesOn : start.openBrackets ≠ [] → start.kind ≠ .closeCurly)
    (confined : start.Confined border) (inside : start.Inside border) :
    (nextStart inBlock start (statement start)).Confined border ∧
      (nextStart inBlock start (statement start)).openBrackets = start.openBrackets := by
  have result := stays confined inside rfl
  have course := proceeds start
  cases read : statement start with
  | ok value after =>
      rw [read] at result
      rw [nextStart]
      obtain ⟨unchanged, _⟩ | ⟨_, reported⟩ := checkSeparated_cases inBlock after
      · rw [unchanged]
        exact result
      · rw [reported]
        exact ⟨result.1.report _, result.2⟩
  | error diagnostic failed =>
      rw [read] at result course
      exact confined_recover home inside goesOn (course.report diagnostic) confined
        (result.1.report diagnostic) result.2

omit stays proceeds in
/-- The semicolon between statements is in front of the border, as it starts no statement. -/
theorem confined_semicolon {start : State} (diagnostic : Diagnostic)
    (semicolon : start.kind = .semicolon) (confined : start.Confined border) :
    (start.report diagnostic).advance.Confined border ∧
      (start.report diagnostic).advance.openBrackets = start.openBrackets := by
  have step : (start.report diagnostic).kind.bracketsInOrder? (start.report diagnostic).openBrackets =
      some start.openBrackets := Kind.bracketsInOrder?_of_plain (by
    change start.kind.isBracket = false
    rw [semicolon]
    rfl)
  obtain ⟨confinedAfter, brackets, _⟩ := (confined.report diagnostic).advance
    (confined.insideAt rfl semicolon) step
  exact ⟨confinedAfter, brackets⟩

/-- The statements of a block. -/
theorem staysFrom_statements {outer : List Kind} (confined : state.Confined border)
    (opened : state.openBrackets = .openCurly :: outer) :
    Stays border (.openCurly :: outer) (statements true statement state) := by
  change Stays border _ (.ok (statementsWithin _ _ _ _).1 (statementsWithin _ _ _ _).2)
  generalize state.upcoming = bound
  induction bound generalizing state with
  | nil => exact ⟨confined, opened⟩
  | cons _ bound inductionHypothesis =>
      unfold statementsWithin
      by_cases ends : endsStatements true state.kind = true
      · rw [if_pos ends]
        exact ⟨confined, opened⟩
      by_cases semicolon : state.kind = .semicolon
      · rw [if_neg ends, if_pos semicolon]
        obtain ⟨confinedAfter, same⟩ := confined_semicolon
          (state.faultHere .semicolonSeparator) semicolon confined
        exact inductionHypothesis confinedAfter (same.trans opened)
      rw [if_neg ends, if_neg semicolon]
      have next := confined_nextStart stays proceeds true (.inr ⟨outer, opened⟩)
        (fun _ curly => ends (by simp [endsStatements, curly])) confined
        (confined.inside_of_open (by simp [opened]))
      cases read : statement state with
      | ok first after =>
          rw [read] at next
          exact inductionHypothesis next.1 (next.2.trans opened)
      | error diagnostic failed =>
          rw [read] at next
          exact inductionHypothesis next.1 (next.2.trans opened)

theorem runsToBorder (consumes : statement.Consumes) {bound : List Lexed}
    (scanned : state.Scanned) (confined : state.Confined border) (closed : state.openBrackets = [])
    (enough : state.upcoming.length ≤ bound.length) :
    RunsToBorder border statement bound state := by
  induction bound generalizing state with
  | nil =>
      obtain ⟨within, ahead, _⟩ := confined.ahead
      rw [ahead, List.length_append, Border.rest, List.length_cons, List.length_nil] at enough
      omega
  | cons head bound inductionHypothesis =>
      by_cases inside : state.Inside border
      · have ends : ¬ endsStatements false state.kind = true := by
          simpa [endsStatements] using confined.kind_ne_endOfInput
        have onward {next : State} (course : state.Reaches next)
            (shorter : next.upcoming.length < state.upcoming.length)
            (confinedNext : next.Confined border ∧ next.openBrackets = state.openBrackets) :
            RunsToBorder border statement bound next :=
          inductionHypothesis (scanned.of_reaches course) confinedNext.1
            (confinedNext.2.trans closed) (by
              rw [List.length_cons] at enough
              omega)
        by_cases semicolon : state.kind = .semicolon
        · have course := ((State.Reaches.refl state).report
            (state.faultHere .semicolonSeparator)).advance
          have next := confined_semicolon (state.faultHere .semicolonSeparator) semicolon confined
          have shorter := scanned.report_advance_lt confined.kind_ne_endOfInput
            (state.faultHere .semicolonSeparator)
          refine (onward course shorter next).of_step [] course ?_
          rw [statementsWithin, if_neg ends, if_pos semicolon]
          rfl
        have next := confined_nextStart stays proceeds false (.inl closed)
          (fun opened => absurd closed opened) confined inside
        have course := proceeds state
        cases read : statement state with
        | ok first after =>
            rw [read] at next course
            have separated := State.Reaches.checkSeparated false after
            have shorter := Nat.lt_of_le_of_lt separated.upcoming_length_le
              (consumes state after first scanned read)
            refine (onward (course.trans separated) shorter next).of_step [first]
              (course.trans separated) ?_
            rw [statementsWithin, if_neg ends, if_neg semicolon]
            simp only [read, List.singleton_append]
        | error diagnostic failed =>
            rw [read] at next course
            have reported := failed.report_sink_ne_empty diagnostic
            have recovered : state.Reaches (recover state (failed.report diagnostic)) :=
              (course.report diagnostic).trans (State.Reaches.recover state reported)
            have shorter := recover_lt scanned confined.kind_ne_endOfInput
              (course.report diagnostic) reported
            refine (onward recovered shorter next).of_step [] recovered ?_
            rw [statementsWithin, if_neg ends, if_neg semicolon]
            simp only [read, List.nil_append]
      · refine ⟨[], state, .refl state, confined, (confined.kind_of_not_inside inside).1, closed, ?_⟩
        rw [List.nil_append]
        exact statementsWithin_bound proceeds consumes scanned enough (Nat.le_refl _)

end

theorem staysFrom_blockAt {inner : Level} (stays : LevelStays border inner)
    (proceeds : LevelProceeds inner) : StaysFrom border (blockAt inner) :=
  fun _ _ confined brackets => stays_opening_bind rfl rfl confined brackets
    fun confined opened => (staysFrom_statements (staysFromInside_statement stays)
      (proceeds_statement proceeds) confined opened).bind (List.suffix_cons _ _)
      fun _ _ confined opened => stays_closing_bind rfl rfl confined opened
        fun confined closed => stays_pure confined closed _

theorem StaysFrom.deeper {production : Production α} (stays : StaysFrom border production) :
    StaysFrom border (Production.deeper production) :=
  fun _ _ confined brackets => Stays.deeper (stays (confined.deeper _) brackets)

theorem StaysFromInside.deeper {production : Production α}
    (stays : StaysFromInside border production) :
    StaysFromInside border (Production.deeper production) :=
  fun _ _ confined inside brackets => Stays.deeper (stays (confined.deeper _) inside brackets)

/-- Every level of nesting stays in front of the border. -/
theorem levelStays_withRoom (border : Border) (room : Nat) :
    LevelStays border (Level.withRoom room) := by
  induction room with
  | zero =>
      have tooDeep {α : Type} : StaysFrom border (tooDeep : Production α) :=
        fun _ _ confined brackets => stays_failHere confined (brackets ▸ List.suffix_rfl) _
      exact ⟨fun _ => tooDeep, tooDeep, fun _ _ confined _ => tooDeep confined,
        fun _ _ confined _ => tooDeep confined⟩
  | succ room inductionHypothesis =>
      exact ⟨fun power => (staysFrom_expressionAt inductionHypothesis power).deeper,
        (staysFrom_blockAt inductionHypothesis (levelProceeds_withRoom room)).deeper,
        (staysFromInside_conditionalAt inductionHypothesis).deeper,
        (staysFromInside_statement inductionHypothesis).deeper⟩

end Production

end AgentScript
