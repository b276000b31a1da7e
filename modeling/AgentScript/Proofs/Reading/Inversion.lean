import AgentScript.Grammar.Program
import AgentScript.Proofs.Reading.Outcome

/-!
Contract: what the success of each form of the grammar says, and what it takes.

Owns: one equivalence for each production, between its success and the success of its parts on the
states between them; and the choice that each production with several forms makes.
-/

set_option autoImplicit false

namespace AgentScript.Production

variable {state after : State}

/-! ## Types -/

theorem typeName_ok_iff {type : TypeExpr} :
    typeName state = .ok type after ↔
      state.kind.namesType = true ∧ .named state.current.value = type ∧ state.advance = after := by
  unfold typeName
  rw [currentKind_bind, ite_run]
  split
  · next names => simp [names]
  · next other => simp [other]

theorem arraySuffix_ok_iff {element type : TypeExpr} :
    arraySuffix element state = .ok type after ↔
      state.kind = .openBracket ∧ state.advance.kind = .closeBracket ∧ .array element = type ∧
        state.advance.advance = after := by
  unfold arraySuffix
  simp only [expect_bind_ok_iff, pure_run, EStateM.Result.ok.injEq]

/-! ## Expressions -/

/-- The expression that a single token stands for. -/
def tokenOperand? (token : Token) : Option Expr :=
  match token.kind with
  | .number => (Decimal.ofText? token.value.toList).map (Expr.number token)
  | .string => some (.string token)
  | .template => some (.template token)
  | _ => some (wordOperand token)

theorem primary_ok_iff {value : Expr} :
    primary state = .ok value after ↔
      tokenOperand? state.current = some value ∧ state.advance = after := by
  unfold primary tokenOperand?
  rw [take_bind]
  cases state.current.kind with
  | number =>
      simp only
      cases Decimal.ofText? state.current.value.toList <;> simp
  | _ => simp

section

variable {inner : Level} {value : Expr} {statement : Stmt}

theorem unary_ok_iff :
    unary inner state = .ok value after ↔
      ∃ operand, inner.expression .unary state.advance = .ok operand after ∧
        .unary state.current operand = value := by
  unfold unary
  rw [take_bind, bind_pure_ok_iff]

theorem grouping_ok_iff :
    grouping inner state = .ok value after ↔
      state.kind = .openParen ∧ ∃ before, inner.expression .default state.advance = .ok value before ∧
        before.kind = .closeParen ∧ before.advance = after := by
  unfold grouping
  simp only [expect_bind_ok_iff, step_ok_iff (inner.expression _),
    pure_run, EStateM.Result.ok.injEq]
  constructor
  · rintro ⟨opens, _, before, read, closes, rfl, rfl⟩
    exact ⟨opens, before, read, closes, rfl⟩
  · rintro ⟨opens, before, read, closes, rfl⟩
    exact ⟨opens, _, before, read, closes, rfl, rfl⟩

theorem arrayLiteral_ok_iff :
    arrayLiteral inner state = .ok value after ↔
      ∃ elements, expressionList inner .closeBracket state.advance = .ok elements after ∧
        .array state.current elements = value := by
  unfold arrayLiteral
  rw [take_bind, bind_pure_ok_iff]

theorem objectKey_ok_iff {key : String} :
    objectKey state = .ok key after ↔
      (state.kind = .identifier ∨ state.kind = .string) ∧ state.current.value = key ∧
        state.advance = after := by
  unfold objectKey
  rw [currentKind_bind]
  cases state.kind <;> simp

theorem keyed_ok_iff {key : Production String} {pair : String × Expr} :
    keyed inner key state = .ok pair after ↔
      ∃ before, key state = .ok pair.1 before ∧ before.kind = .colon ∧
        inner.expression .default before.advance = .ok pair.2 after := by
  unfold keyed
  simp only [step_ok_iff key, expect_bind_ok_iff, bind_pure_ok_iff]
  constructor
  · rintro ⟨text, before, readKey, colon, value, readValue, rfl⟩
    exact ⟨before, readKey, colon, readValue⟩
  · rintro ⟨before, readKey, colon, readValue⟩
    exact ⟨_, before, readKey, colon, _, readValue, rfl⟩

theorem objectLiteral_ok_iff :
    objectLiteral inner state = .ok value after ↔
      ∃ pairs, listOf objectListing (keyed inner objectKey) state.advance = .ok pairs after ∧
        .object state.current (Entries.ofPairs pairs) = value := by
  unfold objectLiteral
  rw [take_bind, bind_pure_ok_iff]

theorem binary_ok_iff {left : Expr} {power : BindingPower} :
    binary inner left power state = .ok value after ↔
      ∃ right, inner.expression power state.advance = .ok right after ∧
        .binary state.current left right = value := by
  unfold binary
  rw [take_bind, bind_pure_ok_iff]

theorem pipe_ok_iff {left : Expr} {power : BindingPower} :
    pipe inner left power state = .ok value after ↔
      ∃ right, inner.expression power state.advance = .ok right after ∧
        .pipe state.current left right = value := by
  unfold pipe
  rw [take_bind, bind_pure_ok_iff]

theorem call_ok_iff {function : Expr} :
    call inner function state = .ok value after ↔
      ∃ arguments, expressionList inner .closeParen state.advance = .ok arguments after ∧
        .call state.current function arguments = value := by
  unfold call
  rw [take_bind, bind_pure_ok_iff]

theorem member_ok_iff {object : Expr} :
    member object state = .ok value after ↔
      state.advance.kind.namesMember = true ∧
        .member state.current object state.advance.current = value ∧
        state.advance.advance = after := by
  unfold member
  rw [take_bind, currentKind_bind, ite_run]
  split
  · next names => simp [names]
  · next other => simp [other]

theorem index_ok_iff {object : Expr} :
    index inner object state = .ok value after ↔
      ∃ position before, inner.expression .default state.advance = .ok position before ∧
        before.kind = .closeBracket ∧ .index state.current object position = value ∧
        before.advance = after := by
  unfold index
  simp only [take_bind, step_ok_iff (inner.expression _),
    expect_bind_ok_iff, pure_run, EStateM.Result.ok.injEq]

/-- The form that starts an expression depends on the current kind alone. -/
theorem operand_run (inner : Level) (state : State) :
    operand inner state =
      match state.kind.operandForm? with
      | some .primary => primary state
      | some .unary => unary inner state
      | some .grouping => grouping inner state
      | some .array => arrayLiteral inner state
      | some .object => objectLiteral inner state
      | none => .error (state.faultHere (.noPrefixForm state.current.describe)) state := by
  unfold operand
  rw [currentKind_bind]
  cases state.kind.operandForm? with
  | none => rfl
  | some form => cases form <;> rfl

/-- The form that continues an expression depends on the current kind alone. -/
theorem continuation_run (inner : Level) (left : Expr) (state : State) :
    continuation inner left state =
      match state.kind.infixForm? with
      | some .pipe => pipe inner left state.power state
      | some .binary => binary inner left state.power state
      | some .call => call inner left state
      | some .member => member left state
      | some .index => index inner left state
      | none => .ok left state := by
  unfold continuation
  rw [get_bind]
  cases state.kind.infixForm? with
  | none => rfl
  | some form => cases form <;> rfl

theorem expressionAt_ok_iff {power : BindingPower} :
    expressionAt inner power state = .ok value after ↔
      ∃ left middle, operand inner state = .ok left middle ∧
        iterateWhile (fun state => power < state.power) (continuation inner) left middle =
          .ok value after := by
  unfold expressionAt
  rw [bind_ok_iff]

/-! ## Declarations -/

theorem configKey_ok_iff {key : String} :
    configKey state = .ok key after ↔
      state.kind.namesMember = true ∧ state.current.value = key ∧ state.advance = after := by
  unfold configKey
  rw [get_bind, ite_run, ite_run]
  split_ifs with ended names
  · simp [ended, Kind.namesMember, Kind.isKeyword]
  · simp [names]
  · simp [names]

theorem configBody_ok_iff {entries : Entries Expr} :
    configBody inner state = .ok entries after ↔
      state.kind = .openCurly ∧
        ∃ pairs, listOf configListing (keyed inner configKey) state.advance = .ok pairs after ∧
          Entries.ofPairs pairs = entries := by
  unfold configBody
  rw [expect_bind_ok_iff, bind_pure_ok_iff]

theorem configDeclaration_ok_iff :
    configDeclaration inner state = .ok statement after ↔
      state.advance.kind = .identifier ∧
        ∃ entries, configBody inner state.advance.advance = .ok entries after ∧
          .config (configKind state.current.kind) state.current state.advance.current entries =
            statement := by
  unfold configDeclaration
  rw [take_bind, expectAs_bind_ok_iff, bind_pure_ok_iff]

theorem parameter_ok_iff {read : Parameter} :
    parameter state = .ok read after ↔
      state.kind = .identifier ∧
        ∃ type?, declaredType? state.advance = .ok type? after ∧ ⟨state.current, type?⟩ = read := by
  unfold parameter
  rw [expectAs_bind_ok_iff, bind_pure_ok_iff]

theorem toolDeclaration_ok_iff :
    toolDeclaration inner state = .ok statement after ↔
      state.advance.kind = .identifier ∧ state.advance.advance.kind = .openParen ∧
        ∃ parameters afterParameters, listOf parameterListing parameter
            state.advance.advance.advance = .ok parameters afterParameters ∧
          ∃ type? afterType, declaredType? afterParameters = .ok type? afterType ∧
            ∃ body, inner.block afterType = .ok body after ∧
              .tool state.current state.advance.current parameters type? body = statement := by
  unfold toolDeclaration
  rw [take_bind, expectAs_bind_ok_iff, expect_bind_ok_iff, bind_ok_iff]
  simp only [step_ok_iff declaredType?, bind_pure_ok_iff]

/-- The names of an import after the first, each after its comma. -/
def furtherName : Production Token := do
  let _ ← take
  importedName

theorem furtherName_ok_iff {name : Token} :
    furtherName state = .ok name after ↔
      state.advance.kind = .identifier ∧ state.advance.current = name ∧
        state.advance.advance = after := by
  unfold furtherName importedName
  rw [take_bind, expectAs_ok_iff]

theorem bracedNames_ok_iff {names : List Token} :
    bracedNames state = .ok names after ↔
      state.kind = .openCurly ∧ state.advance.kind = .identifier ∧
        ∃ rest before, manyWhile moreNames furtherName state.advance.advance = .ok rest before ∧
          (if before.kind = .comma then before.advance else before).kind = .closeCurly ∧
          state.advance.current :: rest = names ∧
          (if before.kind = .comma then before.advance else before).advance = after := by
  change (expect .openCurly >>= fun _ => importedName >>= fun first =>
    manyWhile moreNames furtherName >>= fun rest => passIf .comma >>= fun _ =>
      expect .closeCurly >>= fun _ => pure (first :: rest)) state = _ ↔ _
  rw [expect_bind_ok_iff, importedName, expectAs_bind_ok_iff, bind_ok_iff]
  simp only [step_ok_iff (passIf .comma), passIf_run, EStateM.Result.ok.injEq,
    expect_bind_ok_iff, pure_run]
  constructor
  · rintro ⟨opens, identifier, rest, before, read, _, _, ⟨-, rfl⟩, closes, rfl, rfl⟩
    exact ⟨opens, identifier, rest, before, read, closes, rfl, rfl⟩
  · rintro ⟨opens, identifier, rest, before, read, closes, rfl, rfl⟩
    exact ⟨opens, identifier, rest, before, read, (), _, ⟨trivial, rfl⟩, closes, rfl, rfl⟩

theorem importedNames_ok_iff {read : List Token × Bool} :
    importedNames state = .ok read after ↔
      (state.kind = .openCurly ∧
          ∃ names, bracedNames state = .ok names after ∧ (names, true) = read) ∨
        (state.kind = .identifier ∧ ([state.current], false) = read ∧ state.advance = after) := by
  unfold importedNames
  rw [currentKind_bind, ite_run]
  split
  · next opens =>
      rw [bind_pure_ok_iff]
      simp [opens]
  · next other =>
      unfold importedName
      rw [expectAs_bind_ok_iff]
      simp [other]

theorem importDeclaration_ok_iff :
    importDeclaration state = .ok statement after ↔
      ∃ names before, importedNames state.advance = .ok names before ∧
        before.kind = .keyword .fromKw ∧ before.advance.kind = .string ∧
        .importNames state.current names.1 before.advance.current.value names.2 = statement ∧
        before.advance.advance = after := by
  unfold importDeclaration
  rw [take_bind, bind_ok_iff]
  simp only [expect_bind_ok_iff, expectAs_bind_ok_iff, pure_run, EStateM.Result.ok.injEq]

theorem exportDeclaration_ok_iff :
    exportDeclaration inner state = .ok statement after ↔
      ∃ exported, inner.statement state.advance = .ok exported after ∧
        exported.isExportable = true ∧ .exported state.current exported = statement := by
  unfold exportDeclaration
  rw [take_bind, get_bind, bind_ok_iff]
  constructor
  · rintro ⟨exported, middle, read, result⟩
    rw [ite_run] at result
    split at result
    · next exportable =>
        cases result
        exact ⟨exported, read, exportable, rfl⟩
    · cases result
  · rintro ⟨exported, read, exportable, rfl⟩
    refine ⟨exported, after, read, ?_⟩
    rw [ite_run]
    simp [exportable]

/-! ## Statements -/

theorem expressionStatement_ok_iff :
    expressionStatement inner state = .ok statement after ↔
      ∃ value, inner.expression .default state = .ok value after ∧
        .expression state.current value = statement := by
  unfold expressionStatement
  rw [get_bind, bind_pure_ok_iff]

theorem assignment_ok_iff :
    assignment inner state = .ok statement after ↔
      state.kind = .identifier ∧
        ∃ type? before, declaredType? state.advance = .ok type? before ∧ before.kind = .assign ∧
          ∃ value, inner.expression .default before.advance = .ok value after ∧
            .assignment state.current type? value = statement := by
  unfold assignment
  rw [expectAs_bind_ok_iff, bind_ok_iff]
  simp only [expect_bind_ok_iff, bind_pure_ok_iff]

theorem condition_eq_grouping (inner : Level) : condition inner = grouping inner := rfl

theorem alternative_ok_iff :
    alternative inner state = .ok statement after ↔
      (state.kind = .keyword .ifKw ∧ inner.conditional state = .ok statement after) ∨
        (state.kind ≠ .keyword .ifKw ∧
          ∃ body, inner.block state = .ok body after ∧ .block body = statement) := by
  unfold alternative
  rw [currentKind_bind, ite_run]
  split
  · next here => simp [here]
  · next elsewhere =>
      rw [bind_pure_ok_iff]
      simp [elsewhere]

theorem conditionalAt_ok_iff :
    conditionalAt inner state = .ok statement after ↔
      state.kind = .keyword .ifKw ∧
        ∃ value afterCondition, grouping inner state.advance = .ok value afterCondition ∧
          ∃ consequence afterBlock, inner.block afterCondition = .ok consequence afterBlock ∧
            ∃ alternative?, after? (.keyword .elseKw) (alternative inner) afterBlock =
                .ok alternative? after ∧
              .conditional state.current value consequence alternative? = statement := by
  unfold conditionalAt
  rw [expect_bind_ok_iff, condition_eq_grouping, bind_ok_iff]
  simp only [step_ok_iff inner.block, bind_pure_ok_iff]

theorem whileLoop_ok_iff :
    whileLoop inner state = .ok statement after ↔
      ∃ value before, grouping inner state.advance = .ok value before ∧
        ∃ body, inner.block before = .ok body after ∧
          .whileLoop state.current value body = statement := by
  unfold whileLoop
  rw [take_bind, condition_eq_grouping, bind_ok_iff]
  simp only [bind_pure_ok_iff]

theorem forOf_ok_iff :
    forOf inner state = .ok statement after ↔
      state.advance.kind = .openParen ∧ state.advance.advance.kind = .identifier ∧
        state.advance.advance.advance.kind = .keyword .ofKw ∧
        ∃ value before, inner.expression .default state.advance.advance.advance.advance =
            .ok value before ∧
          before.kind = .closeParen ∧
          ∃ body, inner.block before.advance = .ok body after ∧
            .forOf state.current state.advance.advance.current value body = statement := by
  unfold forOf
  rw [take_bind, expect_bind_ok_iff, expectAs_bind_ok_iff, expect_bind_ok_iff, bind_ok_iff]
  simp only [expect_bind_ok_iff, bind_pure_ok_iff]

theorem returnValue_ok_iff :
    returnValue inner state = .ok statement after ↔
      (state.advance.atStatementEnd = true ∧ .returnValue state.current none = statement ∧
          state.advance = after) ∨
        (state.advance.atStatementEnd = false ∧
          ∃ value, inner.expression .default state.advance = .ok value after ∧
            .returnValue state.current (some value) = statement) := by
  unfold returnValue
  rw [take_bind, get_bind, ite_run]
  split
  · next ended => simp [ended]
  · next goesOn =>
      rw [bind_pure_ok_iff]
      simp [goesOn]

theorem throwValue_ok_iff :
    throwValue inner state = .ok statement after ↔
      state.advance.atStatementEnd = false ∧
        ∃ value, inner.expression .default state.advance = .ok value after ∧
          .throwValue state.current value = statement := by
  unfold throwValue
  rw [take_bind, get_bind, ite_run]
  split
  · next ended => simp [ended]
  · next goesOn =>
      rw [bind_pure_ok_iff]
      simp [goesOn]

theorem handler_ok_iff {read : Token × Block} :
    handler inner state = .ok read after ↔
      state.kind = .openParen ∧ state.advance.kind = .identifier ∧
        state.advance.advance.kind = .closeParen ∧
        ∃ body, inner.block state.advance.advance.advance = .ok body after ∧
          (state.advance.current, body) = read := by
  unfold handler
  rw [expect_bind_ok_iff, expectAs_bind_ok_iff, expect_bind_ok_iff, bind_pure_ok_iff]

theorem attempt_ok_iff :
    attempt inner state = .ok statement after ↔
      ∃ body afterBody, inner.block state.advance = .ok body afterBody ∧
        ∃ handler? afterHandler,
          after? (.keyword .catchKw) (handler inner) afterBody = .ok handler? afterHandler ∧
          ∃ finalizer?,
            after? (.keyword .finallyKw) inner.block afterHandler = .ok finalizer? after ∧
            (handler?.isNone && finalizer?.isNone) = false ∧
            .attempt state.current body handler? finalizer? = statement := by
  unfold attempt
  rw [take_bind, bind_ok_iff]
  simp only [step_ok_iff (after? _ _), ite_run]
  constructor
  · rintro ⟨body, afterBody, readBody, handler?, afterHandler, readHandler, finalizer?, final,
      readFinalizer, result⟩
    split at result
    · cases result
    · next clause =>
        cases result
        exact ⟨body, afterBody, readBody, handler?, afterHandler, readHandler, finalizer?,
          readFinalizer, Bool.eq_false_iff.2 clause, rfl⟩
  · rintro ⟨body, afterBody, readBody, handler?, afterHandler, readHandler, finalizer?,
      readFinalizer, clause, rfl⟩
    refine ⟨body, afterBody, readBody, handler?, afterHandler, readHandler, finalizer?, after,
      readFinalizer, ?_⟩
    simp [clause]

/-- The form of a statement depends on the current kind and, for names, on the kind after it. -/
theorem statement_run (inner : Level) (state : State) :
    Production.statement inner state =
      match state.kind.statementForm? with
      | some form => statementOf inner form state
      | none =>
          if startsAssignment state then assignment inner state
          else expressionStatement inner state := by
  unfold Production.statement
  rw [get_bind]
  cases state.kind.statementForm? with
  | none => exact ite_run _ _ _
  | some form => rfl

theorem blockAt_ok_iff {body : Block} :
    blockAt inner state = .ok body after ↔
      state.kind = .openCurly ∧
        ∃ list before, statementsWithin true (Production.statement inner) state.advance.upcoming
            state.advance = (list, before) ∧
          before.kind = .closeCurly ∧ .mk state.current list = body ∧ before.advance = after := by
  unfold blockAt
  rw [expect_bind_ok_iff, bind_ok_iff]
  simp only [expect_bind_ok_iff, pure_run, EStateM.Result.ok.injEq]
  constructor
  · rintro ⟨opens, list, before, read, closes, rfl, rfl⟩
    refine ⟨opens, list, before, ?_, closes, rfl, rfl⟩
    injection read with value state
    rw [← value, ← state]
  · rintro ⟨opens, list, before, read, closes, rfl, rfl⟩
    refine ⟨opens, list, before, ?_, closes, rfl, rfl⟩
    have pair := read
    change EStateM.Result.ok (statementsWithin _ _ _ _).1 (statementsWithin _ _ _ _).2 = _
    rw [pair]

end

end AgentScript.Production
