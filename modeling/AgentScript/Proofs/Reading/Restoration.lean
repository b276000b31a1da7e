import AgentScript.Proofs.Reading.Confinement.Productions
import AgentScript.Proofs.Reading.Inversion
import AgentScript.Proofs.Reading.Recovery
import AgentScript.Proofs.Reading.Session

/-!
Contract: what a successful expression or type leaves of the open brackets: those it found.

Owns:
- what passing a token makes of the open brackets of a state, whatever they are;
- productions that restore them when they succeed, and how such productions are put together;
- lists of items, which close the one bracket that they were opened by;
- one statement for each form of expression and type, and from them the statement for every level.

A closing bracket searches for the bracket that it answers and closes what it finds on the way. The
forms restore the brackets all the same, as what stands inside a pair has restored them before.
-/

set_option autoImplicit false

namespace AgentScript

/-- A state of a scan with the given brackets open. They need not be brackets of that scan. -/
structure State.HasOpen (openBrackets : List Kind) (state : State) : Prop where
  scanned : state.Scanned
  openBrackets_eq : state.openBrackets = openBrackets

namespace State.HasOpen

variable {openBrackets after : List Kind} {state : State}

theorem deeper (has : state.HasOpen openBrackets) (nesting : Nat) :
    { state with nesting := nesting }.HasOpen openBrackets :=
  ⟨has.scanned.deeper nesting, has.openBrackets_eq⟩

theorem advance (has : state.HasOpen openBrackets)
    (inOrder : state.kind.bracketsInOrder? openBrackets = some after) :
    state.advance.HasOpen after := by
  refine ⟨has.scanned.advance, ?_⟩
  cases ahead : state.upcoming with
  | nil =>
      rw [has.scanned.kind_eq_endOfInput_iff.2 ahead] at inOrder
      obtain rfl : openBrackets = after := Option.some.inj inOrder
      rw [advance_of_nil ahead]
      exact has.openBrackets_eq
  | cons lexed rest =>
      rw [advance_openBrackets_of ahead, has.openBrackets_eq, ← kind_of_upcoming ahead]
      exact Kind.bracketsAfter_eq inOrder

theorem plain (has : state.HasOpen openBrackets) (isPlain : state.kind.isBracket = false) :
    state.advance.HasOpen openBrackets :=
  has.advance (Kind.bracketsInOrder?_of_plain isPlain)

theorem opens (has : state.HasOpen openBrackets) (isOpener : state.kind.isOpener = true) :
    state.advance.HasOpen (state.kind :: openBrackets) :=
  has.advance (Kind.bracketsInOrder?_of_opener isOpener)

theorem closes {opener : Kind} (has : state.HasOpen (opener :: openBrackets))
    (answers : state.kind.opener? = some opener) : state.advance.HasOpen openBrackets :=
  has.advance ((Kind.bracketsInOrder?_of_closing answers).2 rfl)

end State.HasOpen

namespace Production

variable {α β : Type} {openBrackets : List Kind} {state after : State}

/-- A production that leaves the brackets open that were open before, if it succeeds. -/
def Restores (production : Production α) : Prop :=
  ∀ (openBrackets : List Kind) (state after : State) (value : α), state.HasOpen openBrackets →
    production state = .ok value after → after.HasOpen openBrackets

theorem restores_tooDeep : (tooDeep : Production α).Restores := fun _ _ _ _ _ read => nomatch read

theorem Restores.deeper {production : Production α} (restores : production.Restores) :
    (deeper production).Restores := by
  intro openBrackets state after value has read
  obtain ⟨inside, readInside, rfl⟩ := deeper_ok_iff.1 read
  exact (restores openBrackets _ inside value (has.deeper _) readInside).deeper _

theorem Restores.bind {production : Production α} {next : α → Production β}
    (restores : production.Restores) (onward : ∀ value, (next value).Restores) :
    (production >>= next).Restores := by
  intro openBrackets state after value has read
  obtain ⟨first, middle, readFirst, readNext⟩ := bind_ok_iff.1 read
  exact onward first _ _ _ _ (restores _ _ _ _ has readFirst) readNext

theorem restores_pure (value : α) : (pure value : Production α).Restores := by
  rintro openBrackets state _ _ has ⟨⟩
  exact has

theorem Restores.iterateWhile {round : α → Production α} (restores : ∀ value, (round value).Restores)
    (continues : State → Bool) (value : α) : (iterateWhile continues round value).Restores := by
  have within : ∀ (bound : List Lexed) (value : α),
      (iterateWithin continues round bound value).Restores := by
    intro bound
    induction bound with
    | nil => exact restores_pure
    | cons _ bound inductionHypothesis =>
        intro value openBrackets state after result has read
        rw [iterateWithin, get_bind, ite_run] at read
        split at read
        · exact ((restores value).bind inductionHypothesis) _ _ _ _ has read
        · exact restores_pure value _ _ _ _ has read
  exact fun openBrackets state after result has read =>
    within (state.ending :: state.upcoming) value openBrackets state after result has read

theorem Restores.manyWhile {item : Production α} (restores : item.Restores)
    (continues : State → Bool) : (manyWhile continues item).Restores := by
  have within : ∀ bound : List Lexed, (manyWithin continues item bound).Restores := by
    intro bound
    induction bound with
    | nil => exact restores_pure []
    | cons _ bound inductionHypothesis =>
        intro openBrackets state after items has read
        rw [manyWithin, get_bind, ite_run] at read
        split at read
        · exact (restores.bind fun _ => inductionHypothesis.bind fun _ => restores_pure _)
            _ _ _ _ has read
        · exact restores_pure [] _ _ _ _ has read
  exact fun openBrackets state after items has read =>
    within (state.ending :: state.upcoming) openBrackets state after items has read

theorem restores_endItem (listing : Listing) : (endItem listing).Restores := by
  intro openBrackets state after _ has ended
  obtain ⟨comma, rfl⟩ | ⟨_, rfl, _⟩ := endItem_ok_iff.1 ended
  · exact has.plain (by rw [comma]; rfl)
  · exact has

/-- The closing bracket of a list closes the bracket that the list was opened by, and no other. -/
theorem Restores.listOf {item : Production α} (restores : item.Restores) {listing : Listing}
    {opener : Kind} (answers : listing.closing.opener? = some opener)
    (has : state.HasOpen (opener :: openBrackets)) {items : List α}
    (read : listOf listing item state = .ok items after) : after.HasOpen openBrackets := by
  obtain ⟨_, before, readItems, readClosing⟩ := bind_ok_iff.1 read
  obtain ⟨closes, ended⟩ := expect_bind_ok_iff.1 readClosing
  cases ended
  have each := restores.bind fun value =>
    (restores_endItem listing).bind fun _ => restores_pure value
  exact ((each.manyWhile _) _ _ _ _ has readItems).closes (closes ▸ answers)

/-! ## Types -/

theorem restores_typeName : typeName.Restores := by
  intro openBrackets state after type has read
  obtain ⟨names, _, rfl⟩ := typeName_ok_iff.1 read
  exact has.plain (Kind.isBracket_eq_false_of_namesType names)

theorem restores_arraySuffix (element : TypeExpr) : (arraySuffix element).Restores := by
  intro openBrackets state after type has read
  obtain ⟨opens, closes, _, rfl⟩ := arraySuffix_ok_iff.1 read
  have opened := has.opens (by rw [opens]; rfl)
  exact opened.closes (by rw [closes, opens]; rfl)

theorem restores_typeExpr (power : BindingPower) : (typeExpr power).Restores :=
  restores_typeName.bind fun _ => .iterateWhile restores_arraySuffix _ _

/-! ## Expressions -/

section

variable {inner : Level} (restores : ∀ power, (inner.expression power).Restores)
include restores

theorem restores_keyed : (keyed inner objectKey).Restores := by
  intro openBrackets state after pair has read
  obtain ⟨before, readKey, colon, readValue⟩ := keyed_ok_iff.1 read
  obtain ⟨names, _, rfl⟩ := objectKey_ok_iff.1 readKey
  have key := has.plain (by rcases names with name | name <;> rw [name] <;> rfl)
  exact restores _ _ _ _ _ (key.plain (by rw [colon]; rfl)) readValue

theorem restores_operand : (operand inner).Restores := by
  intro openBrackets state after value has read
  rw [operand_run] at read
  split at read
  · next starts =>
      obtain ⟨_, rfl⟩ := primary_ok_iff.1 read
      exact has.plain (Kind.isBracket_eq_false_of_operandForm? (.inl starts))
  · next starts =>
      obtain ⟨_, readOperand, _⟩ := unary_ok_iff.1 read
      exact restores _ _ _ _ _ (has.plain (Kind.isBracket_eq_false_of_operandForm? (.inr starts)))
        readOperand
  · next starts =>
      obtain ⟨opens, before, readInside, closes, rfl⟩ := grouping_ok_iff.1 read
      have opened := has.opens (by rw [opens]; rfl)
      exact (restores _ _ _ _ _ opened readInside).closes (by rw [closes, opens]; rfl)
  · next starts =>
      have opens := Kind.operandForm?_eq_array_iff.1 starts
      obtain ⟨_, readElements, _⟩ := arrayLiteral_ok_iff.1 read
      exact (restores _).listOf (by rw [opens]; rfl) (has.opens (by rw [opens]; rfl)) readElements
  · next starts =>
      have opens := Kind.operandForm?_eq_object_iff.1 starts
      obtain ⟨_, readPairs, _⟩ := objectLiteral_ok_iff.1 read
      exact (restores_keyed restores).listOf (by rw [opens]; rfl) (has.opens (by rw [opens]; rfl))
        readPairs
  · cases read

theorem restores_continuation (left : Expr) : (continuation inner left).Restores := by
  intro openBrackets state after value has read
  rw [continuation_run] at read
  split at read
  · next continues =>
      obtain ⟨_, readRight, _⟩ := pipe_ok_iff.1 read
      exact restores _ _ _ _ _ (has.plain (Kind.isBracket_eq_false_of_infixForm? (.inl continues)))
        readRight
  · next continues =>
      obtain ⟨_, readRight, _⟩ := binary_ok_iff.1 read
      exact restores _ _ _ _ _
        (has.plain (Kind.isBracket_eq_false_of_infixForm? (.inr (.inl continues)))) readRight
  · next continues =>
      have opens := Kind.infixForm?_eq_call_iff.1 continues
      obtain ⟨_, readArguments, _⟩ := call_ok_iff.1 read
      exact (restores _).listOf (by rw [opens]; rfl) (has.opens (by rw [opens]; rfl)) readArguments
  · next continues =>
      obtain ⟨names, _, rfl⟩ := member_ok_iff.1 read
      have dot := has.plain (Kind.isBracket_eq_false_of_infixForm? (.inr (.inr continues)))
      exact dot.plain (isBracket_of_namesMember names)
  · next continues =>
      have opens := Kind.infixForm?_eq_index_iff.1 continues
      obtain ⟨_, before, readPosition, closes, _, rfl⟩ := index_ok_iff.1 read
      have opened := has.opens (by rw [opens]; rfl)
      exact (restores _ _ _ _ _ opened readPosition).closes (by rw [closes, opens]; rfl)
  · cases read
    exact has

theorem restores_expressionAt (power : BindingPower) : (expressionAt inner power).Restores :=
  (restores_operand restores).bind fun _ => .iterateWhile (restores_continuation restores) _ _

end

/-- At every level of nesting, expressions restore the open brackets. -/
theorem restores_expression (room : Nat) (power : BindingPower) :
    ((Level.withRoom room).expression power).Restores := by
  induction room generalizing power with
  | zero => exact restores_tooDeep
  | succ room inductionHypothesis =>
      exact (restores_expressionAt inductionHypothesis power).deeper

end Production

/-- In every state that calls can lead to, and with any brackets open there: an expression or a type
that is read leaves exactly these open; a list that is read after the bracket that opens it closes
that one and leaves the others; and no call, whether it succeeds or fails, changes the level of
nesting. -/
theorem reading_restores_brackets (source : String) (actions : List Action)
    (openBrackets : List Kind) :
    let state := { (State.ofSource source).follow actions with openBrackets := openBrackets }
    (∀ power value after,
        Production.atLevel (fun inner => inner.expression power) state = .ok value after →
          after.openBrackets = openBrackets) ∧
      (∀ power type after,
        Production.typeExpr power state = .ok type after → after.openBrackets = openBrackets) ∧
      (∀ closing opener values after, closing.opener? = some opener → state.kind = opener →
        Production.atLevel (fun inner => Production.expressionList inner closing) state.advance =
            .ok values after →
          state.advance.openBrackets = opener :: openBrackets ∧ after.openBrackets = openBrackets) ∧
      ∀ call : Call, (Production.final (call.production state)).nesting = state.nesting := by
  intro state
  have scanned := (State.scanned_ofSource source).follow actions
  have has : state.HasOpen openBrackets :=
    ⟨⟨scanned.ending_kind, scanned.kind_ne, scanned.wellSpelled⟩, rfl⟩
  refine ⟨fun power value after read => ?_, fun power type after read => ?_,
    fun closing opener values after answers opens read => ?_, fun call => call.final_nesting state⟩
  · exact (Production.restores_expression _ power _ _ _ _ has read).openBrackets_eq
  · exact (Production.restores_typeExpr power _ _ _ _ has read).openBrackets_eq
  · have isOpener : opener.isOpener = true := by
      cases closing <;> cases answers <;> rfl
    have opened : state.advance.HasOpen (opener :: openBrackets) := by
      have passed := has.opens (opens ▸ isOpener)
      rwa [opens] at passed
    exact ⟨opened.openBrackets_eq,
      ((Production.restores_expression _ _).listOf answers opened read).openBrackets_eq⟩

namespace Production

variable {α : Type}

/-- Whether a production succeeds. -/
def succeeds : EStateM.Result Diagnostic State α → Bool
  | .ok _ _ => true
  | .error _ _ => false

theorem exists_eq_ok {result : EStateM.Result Diagnostic State α}
    (success : succeeds result = true) : ∃ value after, result = .ok value after := by
  cases result with
  | ok value after => exact ⟨value, after, rfl⟩
  | error diagnostic failed => cases success

end Production

/-- Brackets that answer nothing in the script stay open around an array and a type. -/
theorem reading_restores_brackets_in_disorder :
    let openBrackets : List Kind := [.openCurly, .openParen, .openBracket, .openCurly]
    let array := { (State.ofSource "a) [b, \x7bk: c(0)\x7d] | d").follow
      [.enter, .call (.expression .default), .call .advance] with openBrackets := openBrackets }
    let type := { (State.ofSource "agent[][]").follow [.enter] with openBrackets := openBrackets }
    (∃ value after,
        Production.atLevel (fun inner => inner.expression .default) array = .ok value after ∧
          after.openBrackets = openBrackets) ∧
      (∃ read after, Production.typeExpr .default type = .ok read after ∧
        after.openBrackets = openBrackets) ∧
      (∃ values after,
        Production.atLevel (fun inner => Production.expressionList inner .closeBracket)
            array.advance = .ok values after ∧
          array.advance.openBrackets = .openBracket :: openBrackets ∧
          after.openBrackets = openBrackets) ∧
      (Production.final (Call.statement.production array)).nesting = 1 := by
  intro openBrackets array type
  obtain ⟨value, afterValue, readValue⟩ := Production.exists_eq_ok
    (show Production.succeeds
      (Production.atLevel (fun inner => inner.expression .default) array) = true by decide +kernel)
  obtain ⟨read, afterType, readType⟩ := Production.exists_eq_ok
    (show Production.succeeds (Production.typeExpr .default type) = true by decide +kernel)
  obtain ⟨values, afterList, readList⟩ := Production.exists_eq_ok
    (show Production.succeeds
      (Production.atLevel (fun inner => Production.expressionList inner .closeBracket)
        array.advance) = true by decide +kernel)
  obtain ⟨expressions, -, lists, calls⟩ := reading_restores_brackets "a) [b, \x7bk: c(0)\x7d] | d"
    [.enter, .call (.expression .default), .call .advance] openBrackets
  obtain ⟨-, types, -⟩ := reading_restores_brackets "agent[][]" [.enter] openBrackets
  exact ⟨⟨value, afterValue, readValue, expressions _ _ _ readValue⟩,
    ⟨read, afterType, readType, types _ _ _ readType⟩,
    ⟨values, afterList, readList, lists _ _ _ _ rfl (by decide +kernel) readList⟩,
    (calls .statement).trans (by decide +kernel)⟩

end AgentScript
