import AgentScript.Proofs.Reading.ReadBack
import AgentScript.Proofs.Tree.Entries
import AgentScript.Proofs.Tree.Legible
import AgentScript.Proofs.Tree.Levels
import AgentScript.Proofs.Tree.MapTokens

/-!
Contract: the printed tokens of a well-formed expression are read as that expression.

Owns:
- the tokens inside the parentheses of an expression that is printed in them;
- what may follow an expression, and what may follow a statement, so that it is not continued;
- what is read one level further in, as the assumption under which a level is considered;
- the reading of types, of lists with commas, and of expressions.

Positions are left out of the comparison. A reading reports too deep a nesting exactly if the tree
takes more levels than there is room for.
-/

set_option autoImplicit false

namespace AgentScript

open Printed

theorem Token.bare_eq_bare {left right : Token} (kind : left.kind = right.kind)
    (value : left.value = right.value) : left.bare = right.bare := by
  simp [Token.bare, Token.moved, kind, value]

/-- A token of a kind that has only one text is determined by its kind, its position apart. -/
theorem Token.Is.bare_eq {kind : Kind} {token read : Token} {text : String} (is : token.Is kind)
    (only : kind.fixedText? = some text) (readKind : read.kind = kind)
    (readValue : read.value = text) : read.bare = token.bare := by
  have spelled := is.2
  rw [Token.WellSpelled, is.1] at spelled
  exact Token.bare_eq_bare (readKind.trans is.1.symm)
    (readValue.trans (spelled.eq_of_fixedText? only).symm)

theorem Token.Is.bare_eq_of_value {kind : Kind} {token read : Token} (is : token.Is kind)
    (readKind : read.kind = kind) (readValue : read.value = token.value) :
    read.bare = token.bare :=
  Token.bare_eq_bare (readKind.trans is.1.symm) readValue

/-- An entry without the positions in its value. -/
def bareEntry (entry : String × Expr) : String × Expr := (entry.1, entry.2.bare)

/-- Pairs that look alike give entries that look alike. -/
theorem bare_ofPairs_congr {pairs others : List (String × Expr)}
    (same : pairs.map bareEntry = others.map bareEntry) :
    mapTokensOfEntries Token.bare (Entries.ofPairs pairs) =
      mapTokensOfEntries Token.bare (Entries.ofPairs others) := by
  have mapped : mapTokensOfEntries Token.bare pairs = mapTokensOfEntries Token.bare others := by
    rw [mapTokensOfEntries_eq_map, mapTokensOfEntries_eq_map]
    exact same
  rw [mapTokensOfEntries_ofPairs, mapTokensOfEntries_ofPairs, mapped]

/-- Pairs that look like entries with distinct keys give these entries. -/
theorem bare_ofPairs {entries pairs : List (String × Expr)}
    (distinct : (Entries.keys entries).Nodup)
    (same : pairs.map bareEntry = entries.map bareEntry) :
    mapTokensOfEntries Token.bare (Entries.ofPairs pairs) =
      mapTokensOfEntries Token.bare entries := by
  rw [bare_ofPairs_congr same, Entries.ofPairs_of_nodup distinct]

/-- What does not continue an expression: a token that binds to nothing before it, or a bracket on a
new line. -/
def Stops (following : List Printed) : Prop :=
  ∀ next ∈ following.head?, next.kind.power = .default ∨
    (next.kind.needsSameLine = true ∧ next.gap.breaks = true)

theorem State.Shows.power_eq_default {state : State} {following : List Printed}
    (shows : state.Shows following) (stops : Stops following) : state.power = .default := by
  unfold State.power
  cases following with
  | nil =>
      rw [shows.kind_of_nil]
      rfl
  | cons next rest =>
      rw [shows.kind]
      obtain loose | ⟨sameLine, breaks⟩ := stops next rfl
      · rw [loose]
        split <;> rfl
      · simp [sameLine, shows.onNewLine_of_breaks breaks]

theorem stops_cons {next : Printed} {following : List Printed}
    (loose : next.kind.power = .default) : Stops (next :: following) := by
  rintro _ ⟨⟩
  exact .inl loose

theorem Kind.power_of_binary {kind : Kind} (form : kind.infixForm? = some .binary) :
    .default < kind.power ∧ kind.power < .call ∧ kind.needsSameLine = false := by
  cases kind <;> cases form <;> decide

/-- What does not continue a statement: a token on a new line that starts another one. -/
def Ends (following : List Printed) : Prop :=
  ∀ next ∈ following.head?, next.gap.breaks = true ∧ next.kind.continuesStatement = false

theorem Ends.stops {following : List Printed} (ends : Ends following) : Stops following := by
  intro next isNext
  obtain ⟨breaks, noContinuation⟩ := ends next isNext
  exact (Kind.power_of_not_continuesStatement noContinuation).imp_right fun sameLine =>
    ⟨sameLine, breaks⟩

/-- The tokens inside the parentheses of an expression that is printed in parentheses. -/
def Expr.inside? : Expr → Option (List Printed)
  | .binary token left right =>
      some (left.printed .none ++ operator .space token :: right.printed .space)
  | .unary token operand => some (operator .none token :: operand.printed .none)
  | .pipe _ left right =>
      some (left.printed .none ++ ⟨.space, .pipe, "|"⟩ :: right.printed .space)
  | .index _ base position =>
      some (base.printed .none ++ openBracket .none :: position.printed .none ++ [closeBracket])
  | _ => none

def Stmt.isConditional : Stmt → Bool
  | .conditional .. => true
  | _ => false

theorem Expr.printed_of_inside? {expr : Expr} {inside : List Printed}
    (parenthesized : expr.inside? = some inside) (gap : Gap) :
    expr.printed gap = openParen gap :: inside ++ [closeParen] := by
  cases expr <;> cases parenthesized <;> simp [Expr.printed]

/-- What is printed in parentheses takes a level for them. -/
theorem Expr.one_lt_levels_of_inside? {expr : Expr} {inside : List Printed}
    (parenthesized : expr.inside? = some inside) : 1 < expr.levels 1 := by
  cases expr <;> cases parenthesized
  all_goals
    rw [Expr.levels]
    omega

theorem Stmt.levels_pos_of_isConditional {statement : Stmt}
    (isConditional : statement.isConditional = true) : 0 < statement.levels 1 := by
  cases statement with
  | conditional _ _ _ alternative? => cases alternative? <;> exact Nat.succ_pos _
  | _ => cases isConditional

namespace Production

variable {state : State} {following : List Printed}

/-! ## Types -/

/-- A type is read up to a token that does not start a further pair of brackets. -/
theorem readsAs_typeExpr {type : TypeExpr} (wellFormed : type.WellFormed) (gap : Gap)
    (shows : state.Shows (type.printed gap ++ following))
    (stops : ∀ next ∈ following.head?, next.kind ≠ .openBracket) :
    (typeExpr .default).ReadsAs state True (fun read => read = type) following := by
  have consume : RoundsConsume (continuesType .default) arraySuffix :=
    fun state after value next scanned _ read =>
      consumes_arraySuffix value state after next scanned read
  -- the rounds read so far lead from the name to the type
  have leads : ∀ following : List Printed, state.Shows (type.printed gap ++ following) →
      ∃ middle, middle.Shows following ∧ typeExpr .default state =
        iterateWhile (continuesType .default) arraySuffix type middle := by
    clear shows stops
    induction type with
    | named name =>
        intro following shows
        obtain ⟨kind, names, allows⟩ := wellFormed
        have isKind := wordKind_of_allows (Kind.namesMember_of_namesType names) allows
        have kind_eq : state.kind = kind := shows.kind.trans isKind
        have value_eq : state.current.value = name := shows.value
        refine ⟨state.advance, shows.advance, ?_⟩
        have read := typeName_ok_iff.2 ⟨by rwa [kind_eq], rfl, rfl⟩
        rw [← value_eq]
        exact bind_run_of_ok read
    | array element inductionHypothesis =>
        intro following shows
        rw [TypeExpr.printed, List.append_assoc] at shows
        obtain ⟨middle, showsSuffix, run⟩ := inductionHypothesis wellFormed _ shows
        have opening := showsSuffix.kind
        have closing := showsSuffix.advance.kind
        refine ⟨_, showsSuffix.advance.advance, ?_⟩
        rw [run, iterateWhile_run proceeds_arraySuffix consume showsSuffix.scanned,
          if_pos (by simp [continuesType, opening, openBracket, Kind.typePower?]; decide)]
        exact bind_run_of_ok (arraySuffix_ok_iff.2 ⟨opening, closing, rfl, rfl⟩)
  obtain ⟨middle, showsFollowing, run⟩ := leads following shows
  have read : typeExpr .default state = .ok type middle := by
    rw [run, iterateWhile_run proceeds_arraySuffix consume showsFollowing.scanned, if_neg]
    have other : middle.kind ≠ .openBracket := by
      cases following with
      | nil => simp [showsFollowing.kind_of_nil]
      | cons next rest =>
          rw [showsFollowing.kind]
          exact stops next rfl
    have noSuffix : middle.kind.typePower? = none := by
      cases kind : middle.kind with
      | openBracket => exact absurd kind other
      | _ => rfl
    simp only [continuesType, noSuffix, Option.getD_none, decide_eq_true_eq]
    exact Nat.lt_irrefl _
  exact readsAs_of_ok read rfl showsFollowing

/-! ## Expressions -/

/-- What is read one level further in from the printed tokens of a tree is this tree, if there is
room for the levels that it takes. -/
structure LevelReads (inner : Level) (room : Nat) : Prop where
  expression : ∀ (power : BindingPower) (expr : Expr) (gap : Gap) (state : State)
    (following : List Printed), power < .call → expr.WellFormed →
    state.Shows (expr.printed gap ++ following) → Stops following →
    (inner.expression power).ReadsAs state (expr.levels 1 ≤ room) (fun read => read.bare = expr.bare)
      following
  inside : ∀ (expr : Expr) (inside : List Printed) (state : State) (following : List Printed),
    expr.WellFormed → expr.inside? = some inside → state.Shows (inside ++ following) →
    Stops following →
    (inner.expression .default).ReadsAs state (expr.levels 1 ≤ room + 1)
      (fun read => read.bare = expr.bare) following
  block : ∀ (depth : Nat) (block : Block) (gap : Gap) (state : State) (following : List Printed),
    (Stmt.block block).WellFormed → state.Shows (block.printed depth gap ++ following) →
    inner.block.ReadsAs state (block.levels 1 ≤ room) (fun read => read.bare = block.bare) following
  conditional : ∀ (depth : Nat) (statement : Stmt) (gap : Gap) (state : State)
    (following : List Printed), statement.WellFormed → statement.isConditional = true →
    state.Shows (statement.printed depth gap ++ following) → Ends following →
    inner.conditional.ReadsAs state (statement.levels 1 ≤ room)
      (fun read => read.bare = statement.bare) following
  statement : ∀ (depth : Nat) (statement : Stmt) (gap : Gap) (state : State)
    (following : List Printed), statement.WellFormed → statement.isBlock = false →
    state.Shows (statement.printed depth gap ++ following) → Ends following →
    inner.statement.ReadsAs state (statement.levels 1 + 1 ≤ room)
      (fun read => read.bare = statement.bare) following

/-- An expression is read up to a place from which on only continuations remain to be read, if that
much fits. -/
def Leads (inner : Level) (power : BindingPower) (state : State) (fits : Prop) (good : Expr → Prop)
    (following : List Printed) : Prop :=
  (fits ∧ ∃ left middle, good left ∧ middle.Shows following ∧
    expressionAt inner power state =
      iterateWhile (fun state => power < state.power) (continuation inner) left middle) ∨
    (¬ fits ∧ IsTooDeep (expressionAt inner power state))

section

variable {inner : Level} {power : BindingPower} {fits : Prop} {good : Expr → Prop}
  (proceeds : LevelProceeds inner)

theorem Leads.of_iff {fitsToo : Prop} (leads : Leads inner power state fits good following)
    (same : fits ↔ fitsToo) : Leads inner power state fitsToo good following := by
  rwa [← propext same]

include proceeds

theorem Leads.of_operand (reads : (operand inner).ReadsAs state fits good following) :
    Leads inner power state fits good following := by
  obtain ⟨doesFit, left, middle, read, isGood, shows⟩ | ⟨tooMuch, tooDeep⟩ := reads
  · exact .inl ⟨doesFit, left, middle, isGood, shows, bind_run_of_ok read⟩
  · exact .inr ⟨tooMuch, isTooDeep_bind tooDeep fun _ =>
      .iterateWhile (proceeds_continuation proceeds) _ _⟩

/-- One more continuation is read. -/
theorem Leads.round {fitsNext : Prop} {goodNext : Expr → Prop} {rest : List Printed}
    (leads : Leads inner power state fits good following)
    (round : ∀ left middle, good left → middle.Shows following →
      power < middle.power ∧ (continuation inner left).ReadsAs middle fitsNext goodNext rest) :
    Leads inner power state (fits ∧ fitsNext) goodNext rest := by
  obtain ⟨doesFit, left, middle, isGood, shows, run⟩ | ⟨tooMuch, tooDeep⟩ := leads
  · obtain ⟨binds, reads⟩ := round left middle isGood shows
    have again := iterateWhile_run (proceeds_continuation proceeds)
      (continuation_consumes proceeds power) shows.scanned left
    rw [if_pos (by simpa using binds)] at again
    rw [again] at run
    obtain ⟨nextFits, next, after, read, isGoodNext, showsRest⟩ | ⟨tooMuch, tooDeep⟩ := reads
    · refine .inl ⟨⟨doesFit, nextFits⟩, next, after, isGoodNext, showsRest, ?_⟩
      rw [run]
      exact bind_run_of_ok read
    · refine .inr ⟨fun both => tooMuch both.2, ?_⟩
      rw [run]
      exact isTooDeep_bind tooDeep fun _ => .iterateWhile (proceeds_continuation proceeds) _ _
  · exact .inr ⟨fun both => tooMuch both.1, tooDeep⟩

/-- Before a token that does not continue it, the expression is complete. -/
theorem Leads.readsAs (leads : Leads inner power state fits good following)
    (stops : Stops following) : (expressionAt inner power).ReadsAs state fits good following := by
  obtain ⟨doesFit, left, middle, isGood, shows, run⟩ | tooMuch := leads
  · refine .inl ⟨doesFit, left, middle, ?_, isGood, shows⟩
    rw [run, iterateWhile_run (proceeds_continuation proceeds)
      (continuation_consumes proceeds power) shows.scanned, if_neg]
    simp only [shows.power_eq_default stops, decide_eq_true_eq]
    exact Nat.not_lt_zero _
  · exact .inr tooMuch

end

/-- Between the items of a list with commas stand the comma and the next item. -/
def afterItem {β : Type} (piece : β → Gap → List Printed) (closing : List Printed)
    (rest : List β) : List Printed :=
  (rest.map piece).flatMap (fun piece => ⟨.none, .comma, ","⟩ :: piece .space) ++ closing

theorem separated_append {β : Type} (piece : β → Gap → List Printed) (gap : Gap)
    (closing : List Printed) (items : List β) :
    separated gap (items.map piece) ++ closing =
      listed piece (afterItem piece closing) closing gap items := by
  cases items with
  | nil => rfl
  | cons first rest => simp [separated, listed, afterItem]

/-- The layout of a list with commas. -/
theorem layout_separated {β : Type} {listing : Listing} {piece : β → Gap → List Printed}
    {closing : Printed} {items : List β} (closes : closing.kind = listing.closing)
    (noComma : listing.closing ≠ .comma)
    (starts : ∀ item ∈ items, ∀ gap, ∃ first rest, piece item gap = first :: rest ∧
      first.kind ≠ listing.closing) :
    Layout listing piece (afterItem piece (closing :: following)) (closing :: following) .space
      items where
  starts := starts
  ends := by
    intro rest _ state shows
    cases rest with
    | nil =>
        have kind : state.kind = listing.closing := by rw [shows.kind, closes]
        exact readsAs_of_ok (endItem_ok_iff.2 (.inr ⟨by rwa [kind], rfl, .inl kind⟩)) trivial shows
    | cons next rest =>
        have shows' : state.Shows (⟨.none, .comma, ","⟩ ::
            listed piece (afterItem piece (closing :: following)) (closing :: following) .space
              (next :: rest)) := by
          simpa [afterItem, listed] using shows
        exact readsAs_of_ok (endItem_ok_iff.2 (.inl ⟨shows'.kind, rfl⟩)) trivial shows'.advance

/-- What stands after an item of a list with commas does not continue an expression. -/
theorem stops_afterItem {β : Type} (piece : β → Gap → List Printed) {closing : Printed}
    (loose : closing.kind.power = .default) (rest : List β) :
    Stops (afterItem piece (closing :: following) rest) := by
  cases rest with
  | nil => exact stops_cons loose
  | cons next rest =>
      rintro _ ⟨⟩
      exact .inl rfl

section

variable {inner : Level} {room : Nat} (proceeds : LevelProceeds inner)
  (consumes : LevelConsumes inner) (reads : LevelReads inner room)

include proceeds consumes reads in
theorem readsAs_expressionList {closing : Printed} {exprs : List Expr}
    (wellFormed : ∀ expr ∈ exprs, expr.WellFormed)
    (isCloser : closing.kind = .closeParen ∨ closing.kind = .closeBracket)
    (shows : state.Shows (separated .none (exprsPrinted exprs) ++ closing :: following)) :
    (expressionList inner closing.kind).ReadsAs state (levelsOfExprs 1 exprs ≤ room)
      (fun read => read.map Expr.bare = exprs.map Expr.bare) following := by
  rw [exprsPrinted_eq_map, separated_append] at shows
  rw [levelsOfExprs_le_iff]
  refine readsAs_listOf (proceeds.expression _) (consumes.expression _) rfl
    (layout_separated rfl (by rcases isCloser with closer | closer <;> simp [closer]) ?_) ?_
    .none shows
  · intro expr member gap
    obtain ⟨kind, value, rest, printed, _, starts, _⟩ := (wellFormed expr member).exists_first gap
    refine ⟨_, _, printed, ?_⟩
    intro same
    have kind_eq : kind = closing.kind := same
    rcases isCloser with closer | closer
    all_goals
      rw [kind_eq, closer] at starts
      cases starts
  · intro expr member gap rest state within showsExpr
    refine reads.expression .default expr gap state _ (by decide) (wellFormed expr member)
      showsExpr (stops_afterItem _ ?_ rest)
    rcases isCloser with closer | closer <;> rw [closer] <;> rfl

/-- What a token stands for depends on its kind and value alone. -/
theorem tokenOperand?_bare {left right : Token} (kind : left.kind = right.kind)
    (value : left.value = right.value) :
    (tokenOperand? left).map Expr.bare = (tokenOperand? right).map Expr.bare := by
  have same := Token.bare_eq_bare kind value
  unfold tokenOperand? wordOperand
  rw [kind, value]
  split
  · cases Decimal.ofText? right.value.toList <;> simp [Expr.bare, Expr.mapTokens, same]
  · simp [Expr.bare, Expr.mapTokens, same]
  · simp [Expr.bare, Expr.mapTokens, same]
  · split_ifs <;> simp [Expr.bare, Expr.mapTokens, same]

/-- An expression that is printed as one token is read as what this token stands for. -/
theorem readsAs_primary {expr : Expr} (token : Token)
    (form : token.kind.operandForm? = some .primary) (stands : tokenOperand? token = some expr)
    {gap : Gap} (shows : state.Shows (operator gap token :: following)) :
    (operand inner).ReadsAs state True (fun read => read.bare = expr.bare) following := by
  have kind : state.current.kind = token.kind := shows.kind
  have same := tokenOperand?_bare kind shows.value
  rw [stands] at same
  obtain ⟨read, found, bare⟩ := Option.map_eq_some_iff.1 same
  have run : operand inner state = .ok read state.advance := by
    rw [operand_run, State.kind, kind, form]
    exact primary_ok_iff.2 ⟨found, rfl⟩
  exact readsAs_of_ok run bare shows.advance

include proceeds in
/-- What is read from within parentheses is read with them. -/
theorem readsAs_grouping {tokens : List Printed} {fits : Prop} {good : Expr → Prop} {gap : Gap}
    (within : ∀ after : State, after.Shows (tokens ++ closeParen :: following) →
      (inner.expression .default).ReadsAs after fits good (closeParen :: following))
    (shows : state.Shows (openParen gap :: (tokens ++ closeParen :: following))) :
    (grouping inner).ReadsAs state fits good following := by
  refine ReadsAs.first (readsAs_expect shows rfl) (fun _ => (proceeds.expression _).bind
    fun _ => (proceeds_expect _).bind fun _ => proceeds_pure _) ?_
  intro _ after _ showsInside
  refine ReadsAs.last (within after showsInside)
    (fun _ => (proceeds_expect _).bind fun _ => proceeds_pure _) ?_
  intro read before isGood showsClosing
  refine ReadsAs.last (readsAs_expect showsClosing rfl) (fun _ => proceeds_pure _) ?_
  intro _ _ _ showsFollowing
  exact readsAs_pure isGood showsFollowing

include proceeds reads in
/-- What is printed in parentheses is read from within them. -/
theorem readsAs_inside {expr : Expr} {inside : List Printed} (wellFormed : expr.WellFormed)
    (parenthesized : expr.inside? = some inside) {gap : Gap}
    (shows : state.Shows (expr.printed gap ++ following)) :
    (operand inner).ReadsAs state (expr.levels 1 ≤ room + 1) (fun read => read.bare = expr.bare)
      following := by
  rw [Expr.printed_of_inside? parenthesized, List.cons_append, List.cons_append,
    List.append_assoc] at shows
  have opening : state.kind = .openParen := shows.kind
  have whole : (grouping inner).ReadsAs state (expr.levels 1 ≤ room + 1)
      (fun read => read.bare = expr.bare) following :=
    readsAs_grouping proceeds (fun after showsInside => reads.inside expr inside after _ wellFormed
      parenthesized showsInside (stops_cons rfl)) shows
  refine whole.congr ?_
  rw [operand_run, opening]
  rfl

include proceeds consumes reads in
theorem readsAs_array {bracket : Token} {elements : List Expr} (isBracket : bracket.Is .openBracket)
    (wellFormed : ∀ element ∈ elements, element.WellFormed) {gap : Gap}
    (shows : state.Shows ((Expr.array bracket elements).printed gap ++ following)) :
    (operand inner).ReadsAs state (levelsOfExprs 1 elements ≤ room)
      (fun read => read.bare = (Expr.array bracket elements).bare) following := by
  rw [Expr.printed, List.cons_append, List.cons_append, List.append_assoc] at shows
  have opening : state.kind = .openBracket := shows.kind
  have whole : (arrayLiteral inner).ReadsAs state (levelsOfExprs 1 elements ≤ room)
      (fun read => read.bare = (Expr.array bracket elements).bare) following := by
    refine ReadsAs.first (readsAs_take shows)
      (fun _ => (proceeds_expressionList proceeds _).bind fun _ => proceeds_pure _) ?_
    rintro token after isShown showsElements
    refine ReadsAs.last (readsAs_expressionList proceeds consumes reads wellFormed (.inr rfl)
      showsElements) (fun _ => proceeds_pure _) ?_
    intro read _ same showsFollowing
    refine readsAs_pure ?_ showsFollowing
    simp only [Expr.bare, Expr.mapTokens, mapTokensOfExprs_eq_map,
      isBracket.bare_eq rfl isShown.1 isShown.2]
    exact congrArg _ same
  refine whole.congr ?_
  rw [operand_run, opening]
  rfl

theorem readsAs_objectKey_of_kind {key : String} {gap : Gap} {kind : Kind}
    (isKey : kind = .identifier ∨ kind = .string)
    (shows : state.Shows (⟨gap, kind, key⟩ :: following)) :
    objectKey.ReadsAs state True (fun read => read = key) following :=
  readsAs_of_ok (objectKey_ok_iff.2 ⟨by rwa [shows.kind], rfl, rfl⟩) shows.value shows.advance

theorem readsAs_objectKey {key : String} {gap : Gap}
    (shows : state.Shows (Printed.key gap key :: following)) :
    objectKey.ReadsAs state True (fun read => read = key) following := by
  refine readsAs_objectKey_of_kind ?_ shows
  split
  · exact .inl rfl
  · exact .inr rfl

include reads proceeds in
/-- A key, a colon and a value are read as these, if the key is read as it is. -/
theorem readsAs_keyed {key : Production String} {entry : String × Expr}
    (wellFormed : entry.2.WellFormed)
    (readKey : key.ReadsAs state True (fun read => read = entry.1)
      (colon :: entry.2.printed .space ++ following))
    (stops : Stops following) :
    (keyed inner key).ReadsAs state (entry.2.levels 1 ≤ room)
      (fun read => bareEntry read = bareEntry entry) following := by
  refine readKey.first (fun _ => (proceeds_expect _).bind fun _ =>
    (proceeds.expression _).bind fun _ => proceeds_pure _) ?_
  rintro _ afterKey rfl showsColon
  refine ReadsAs.first (readsAs_expect showsColon rfl)
    (fun _ => (proceeds.expression _).bind fun _ => proceeds_pure _) ?_
  intro _ afterColon _ showsValue
  refine ReadsAs.last (reads.expression .default entry.2 .space afterColon following (by decide)
    wellFormed showsValue stops) (fun _ => proceeds_pure _) ?_
  intro value after same showsFollowing
  exact readsAs_pure (by rw [bareEntry, bareEntry, same]) showsFollowing

include proceeds reads in
theorem readsAs_object {brace : Token} {entries : List (String × Expr)}
    (isBrace : brace.Is .openCurly) (distinct : (Entries.keys entries).Nodup)
    (wellFormed : ∀ entry ∈ entries, entry.2.WellFormed) {gap : Gap}
    (shows : state.Shows ((Expr.object brace entries).printed gap ++ following)) :
    (operand inner).ReadsAs state (levelsOfEntries 1 entries ≤ room)
      (fun read => read.bare = (Expr.object brace entries).bare) following := by
  rw [Expr.printed, entriesPrinted_eq_map, List.cons_append, List.cons_append,
    List.append_assoc] at shows
  have opening : state.kind = .openCurly := shows.kind
  have whole : (objectLiteral inner).ReadsAs state (levelsOfEntries 1 entries ≤ room)
      (fun read => read.bare = (Expr.object brace entries).bare) following := by
    refine ReadsAs.first (readsAs_take shows) (fun _ => Proceeds.bind
      (proceeds_keyed proceeds proceeds_objectKey |>.listOf _) fun _ => proceeds_pure _) ?_
    rintro token after isShown showsEntries
    rw [List.singleton_append, separated_append] at showsEntries
    have list : (listOf objectListing (keyed inner objectKey)).ReadsAs after
        (levelsOfEntries 1 entries ≤ room)
        (fun pairs => pairs.map bareEntry = entries.map bareEntry) following := by
      rw [levelsOfEntries_le_iff]
      refine readsAs_listOf (proceeds_keyed proceeds proceeds_objectKey)
        (consumes_keyed proceeds proceeds_objectKey) rfl (layout_separated rfl (by decide) ?_) ?_
        .none showsEntries
      · intro entry _ gap
        refine ⟨_, _, rfl, ?_⟩
        change (if isPlainName entry.1 then Kind.identifier else .string) ≠ .closeCurly
        split <;> decide
      · intro entry member gap rest state within showsEntry
        exact readsAs_keyed proceeds reads (wellFormed entry member)
          (readsAs_objectKey showsEntry)
          (stops_afterItem _ rfl rest)
    refine ReadsAs.last list (fun _ => proceeds_pure _) ?_
    intro pairs _ same showsFollowing
    refine readsAs_pure ?_ showsFollowing
    simp only [Expr.bare, Expr.mapTokens, isBrace.bare_eq rfl isShown.1 isShown.2,
      bare_ofPairs distinct same]
  refine whole.congr ?_
  rw [operand_run, opening]
  rfl

include proceeds in
/-- What is printed as one token fits at every level that can be entered. -/
theorem leads_primary {power : BindingPower} {expr : Expr} (token : Token)
    (form : token.kind.operandForm? = some .primary) (stands : tokenOperand? token = some expr)
    {gap : Gap} (shows : state.Shows (operator gap token :: following)) :
    Leads inner power state (1 ≤ room + 1) (fun read => read.bare = expr.bare) following :=
  .of_operand proceeds ((readsAs_primary token form stands shows).of_iff
    (iff_of_true trivial (Nat.le_add_left 1 room)))

include proceeds in
/-- What is printed as a name, which may be the word of a value. -/
theorem leads_name {power : BindingPower} {expr : Expr} {token : Token}
    (isName : token.Is .identifier) (stands : wordOperand token = expr) {gap : Gap}
    (shows : state.Shows (Printed.name gap token :: following)) :
    Leads inner power state (1 ≤ room + 1) (fun read => read.bare = expr.bare) following := by
  have showsToken : state.Shows (operator gap token :: following) := by
    rw [operator, isName.1]
    exact shows
  refine leads_primary proceeds token (by rw [isName.1]; rfl) ?_ showsToken
  rw [tokenOperand?, isName.1, stands]

include proceeds consumes reads in
/-- The arguments after what is called. -/
theorem readsAs_call {paren : Token} {function left : Expr} {arguments : List Expr}
    (isParen : paren.Is .openParen) (wellFormed : ∀ argument ∈ arguments, argument.WellFormed)
    (same : left.bare = function.bare)
    (shows : state.Shows (openParen .none ::
      (separated .none (exprsPrinted arguments) ++ closeParen :: following))) :
    (call inner left).ReadsAs state (levelsOfExprs 1 arguments ≤ room)
      (fun read => read.bare = (Expr.call paren function arguments).bare) following := by
  refine ReadsAs.first (readsAs_take shows)
    (fun _ => (proceeds_expressionList proceeds _).bind fun _ => proceeds_pure _) ?_
  intro token after isShown showsList
  refine ReadsAs.last (readsAs_expressionList proceeds consumes reads wellFormed (.inl rfl)
    showsList) (fun _ => proceeds_pure _) ?_
  intro read _ sameArguments showsFollowing
  refine readsAs_pure ?_ showsFollowing
  simp only [Expr.bare, Expr.mapTokens, mapTokensOfExprs_eq_map,
    isParen.bare_eq rfl isShown.1 isShown.2] at same ⊢
  rw [same]
  exact congrArg _ sameArguments

/-- The name after what is accessed. -/
theorem readsAs_member {dot property : Token} {object left : Expr} (isDot : dot.Is .dot)
    (names : property.kind.namesMember = true) (same : left.bare = object.bare)
    (shows : state.Shows (⟨.none, .dot, "."⟩ :: operator .none property :: following)) :
    (member left).ReadsAs state True
      (fun read => read.bare = (Expr.member dot object property).bare) following := by
  have dotKind : state.kind = .dot := shows.kind
  have propertyKind : state.advance.kind = property.kind := shows.advance.kind
  have read : member left state =
      .ok (.member state.current left state.advance.current) state.advance.advance :=
    member_ok_iff.2 ⟨by rwa [propertyKind], rfl, rfl⟩
  have sameDot : state.current.bare = dot.bare := isDot.bare_eq rfl dotKind shows.value
  have sameProperty : state.advance.current.bare = property.bare :=
    Token.bare_eq_bare propertyKind shows.advance.value
  refine readsAs_of_ok read ?_ shows.advance.advance
  simp only [Expr.bare, Expr.mapTokens, sameDot, sameProperty] at same ⊢
  rw [same]

include proceeds reads in
/-- The position in brackets after what is indexed. -/
theorem readsAs_index {bracket : Token} {object left position : Expr}
    (isBracket : bracket.Is .openBracket) (wellFormed : position.WellFormed)
    (same : left.bare = object.bare)
    (shows : state.Shows (openBracket .none ::
      (position.printed .none ++ closeBracket :: following))) :
    (index inner left).ReadsAs state (position.levels 1 ≤ room)
      (fun read => read.bare = (Expr.index bracket object position).bare) following := by
  refine ReadsAs.first (readsAs_take shows)
    (fun _ => (proceeds.expression _).bind fun _ => (proceeds_expect _).bind fun _ =>
      proceeds_pure _) ?_
  intro token after isShown showsPosition
  refine ReadsAs.last (reads.expression .default position .none after _ (by decide)
    wellFormed showsPosition (stops_cons rfl))
    (fun _ => (proceeds_expect _).bind fun _ => proceeds_pure _) ?_
  intro read before samePosition showsClosing
  refine ReadsAs.last (readsAs_expect showsClosing rfl) (fun _ => proceeds_pure _) ?_
  intro _ _ _ showsFollowing
  refine readsAs_pure ?_ showsFollowing
  simp only [Expr.bare, Expr.mapTokens,
    isBracket.bare_eq rfl isShown.1 isShown.2] at same samePosition ⊢
  rw [same, samePosition]

include proceeds reads in
/-- A sign and the operand that it stands before. -/
theorem readsAs_unary {sign : Token} {expr : Expr} (wellFormed : expr.WellFormed)
    (shows : state.Shows (operator .none sign :: (expr.printed .none ++ following)))
    (stops : Stops following) :
    (unary inner).ReadsAs state (expr.levels 1 ≤ room)
      (fun read => read.bare = (Expr.unary sign expr).bare) following := by
  refine ReadsAs.first (readsAs_take shows)
    (fun _ => (proceeds.expression _).bind fun _ => proceeds_pure _) ?_
  intro token after isShown showsOperand
  refine ReadsAs.last (reads.expression .unary expr .none after following (by decide)
    wellFormed showsOperand stops) (fun _ => proceeds_pure _) ?_
  intro read _ same showsFollowing
  refine readsAs_pure ?_ showsFollowing
  have sameToken : token.bare = sign.bare := Token.bare_eq_bare isShown.1 isShown.2
  simp only [Expr.bare, Expr.mapTokens, sameToken] at same ⊢
  rw [same]

include proceeds consumes reads in
/-- What is printed for an expression leads to it. -/
theorem leads_expression (power : BindingPower) (loose : power < .call) {expr : Expr}
    (wellFormed : expr.WellFormed) {gap : Gap}
    (shows : state.Shows (expr.printed gap ++ following)) :
    Leads inner power state (expr.levels 1 ≤ room + 1) (fun read => read.bare = expr.bare)
      following := by
  induction wellFormed generalizing gap following with
  | @identifier token isName isVariable =>
      refine leads_name proceeds isName ?_ shows
      obtain ⟨noTrue, noFalse, noNull⟩ : token.value ≠ "true" ∧ token.value ≠ "false" ∧
          token.value ≠ "null" := by
        simpa [IsValueWord] using isVariable
      simp [wordOperand, noTrue, noFalse, noNull]
  | @number token value isNumber isValue =>
      refine leads_primary proceeds token (by rw [isNumber.1]; rfl) ?_ shows
      simp [tokenOperand?, isNumber.1, isValue]
  | @string token isString =>
      refine leads_primary proceeds token (by rw [isString.1]; rfl) ?_ shows
      simp [tokenOperand?, isString.1]
  | @template token isTemplate =>
      refine leads_primary proceeds token (by rw [isTemplate.1]; rfl) ?_ shows
      simp [tokenOperand?, isTemplate.1]
  | @boolean token value isName isWord =>
      refine leads_name proceeds isName ?_ (by rwa [Printed.name, isWord])
      cases value <;> simp [wordOperand, isWord]
  | @null token isName isWord =>
      refine leads_name proceeds isName ?_ (by rwa [Printed.name, isWord])
      simp [wordOperand, isWord]
  | binary isOperator spelled left right =>
      exact .of_operand proceeds
        (readsAs_inside proceeds reads (.binary isOperator spelled left right) rfl shows)
  | unary isOperator spelled operand =>
      exact .of_operand proceeds
        (readsAs_inside proceeds reads (.unary isOperator spelled operand) rfl shows)
  | pipe isPipe left right =>
      exact .of_operand proceeds (readsAs_inside proceeds reads (.pipe isPipe left right) rfl shows)
  | index isBracket object position =>
      exact .of_operand proceeds
        (readsAs_inside proceeds reads (.index isBracket object position) rfl shows)
  | @call paren function arguments isParen functionFormed argumentsFormed leadsFunction _ =>
      rw [Expr.printed, List.append_assoc, List.cons_append, List.append_assoc] at shows
      have fitsBoth : function.levels 1 ≤ room + 1 ∧ levelsOfExprs 1 arguments ≤ room ↔
          (Expr.call paren function arguments).levels 1 ≤ room + 1 := by
        rw [Expr.levels, Nat.max_le, Nat.succ_le_succ_iff]
      refine Leads.of_iff ((leadsFunction shows).round proceeds ?_) fitsBoth
      intro left middle same showsArguments
      have opening : middle.kind = .openParen := showsArguments.kind
      have sameLine : middle.onNewLine = false := showsArguments.onNewLine (by simp [openParen])
      have binds : middle.power = .call := by
        rw [State.power, opening, sameLine]
        rfl
      refine ⟨by rwa [binds], ?_⟩
      refine (readsAs_call proceeds consumes reads isParen argumentsFormed same
        showsArguments).congr ?_
      rw [continuation_run, opening]
      rfl
  | @member dot property object isDot names spelled objectFormed leadsObject =>
      rw [Expr.printed, List.append_assoc] at shows
      refine Leads.of_iff ((leadsObject shows).round proceeds ?_) (and_iff_left trivial)
      intro left middle same showsDot
      have dotKind : middle.kind = .dot := showsDot.kind
      have binds : middle.power = .member := by
        rw [State.power, dotKind]
        rfl
      refine ⟨by rw [binds]; exact Nat.lt_trans loose (by decide), ?_⟩
      refine (readsAs_member isDot names same showsDot).congr ?_
      rw [continuation_run, dotKind]
      rfl
  | array isBracket elements =>
      exact .of_operand proceeds ((readsAs_array proceeds consumes reads isBracket elements
        shows).of_iff Nat.succ_le_succ_iff.symm)
  | object isBrace distinct values =>
      exact .of_operand proceeds ((readsAs_object proceeds reads isBrace distinct values
        shows).of_iff Nat.succ_le_succ_iff.symm)

include proceeds consumes reads in
theorem readsAs_expressionAt {power : BindingPower} (loose : power < .call) {expr : Expr}
    (wellFormed : expr.WellFormed) {gap : Gap}
    (shows : state.Shows (expr.printed gap ++ following)) (stops : Stops following) :
    (expressionAt inner power).ReadsAs state (expr.levels 1 ≤ room + 1)
      (fun read => read.bare = expr.bare) following :=
  (leads_expression proceeds consumes reads power loose wellFormed shows).readsAs proceeds stops

include proceeds reads in
/-- An operator and its right operand continue what stands to the left. -/
theorem readsAs_rightOperand (build : Token → Expr → Expr → Expr) {operator : Token}
    {left right : Expr} {sign : Printed} {power : BindingPower} {value : Expr} {gap : Gap}
    (isSign : ∀ token : Token, token.kind = sign.kind → token.value = sign.value →
      token.bare = operator.bare)
    (builds : ∀ token left right, (build token left right).bare =
      build token.bare left.bare right.bare)
    (loose : power < .call) (wellFormed : right.WellFormed) (same : value.bare = left.bare)
    (shows : state.Shows (sign :: right.printed gap ++ following)) (stops : Stops following) :
    (take >>= fun token => inner.expression power >>= fun right =>
      pure (build token value right)).ReadsAs state (right.levels 1 ≤ room)
      (fun read => read.bare = (build operator left right).bare) following := by
  refine ReadsAs.first (readsAs_take shows)
    (fun _ => (proceeds.expression _).bind fun _ => proceeds_pure _) ?_
  intro token after isShown showsRight
  refine ReadsAs.last (reads.expression power right gap after following loose wellFormed
    showsRight stops) (fun _ => proceeds_pure _) ?_
  intro read _ sameRight showsFollowing
  refine readsAs_pure ?_ showsFollowing
  rw [builds, builds, isSign token isShown.1 isShown.2, same, sameRight]

include proceeds consumes reads in
/-- The tokens inside the parentheses of an expression are read as this expression. -/
theorem readsAs_expressionAt_inside {expr : Expr} {inside : List Printed}
    (wellFormed : expr.WellFormed) (parenthesized : expr.inside? = some inside)
    (shows : state.Shows (inside ++ following)) (stops : Stops following) :
    (expressionAt inner .default).ReadsAs state (expr.levels 1 ≤ room + 1 + 1)
      (fun read => read.bare = expr.bare) following := by
  -- the level that the parentheses take is not counted here
  have fitsSides (left right : Nat) : left ≤ room + 1 ∧ right ≤ room ↔
      max left (right + 1) + 1 ≤ room + 1 + 1 := by omega
  cases wellFormed with
  | @binary operator left right isOperator spelled leftFormed rightFormed =>
      cases parenthesized
      rw [List.append_assoc, List.cons_append] at shows
      have leads := leads_expression proceeds consumes reads .default (by decide) leftFormed shows
      refine ((leads.round proceeds ?_).readsAs proceeds stops).of_iff (fitsSides _ _)
      intro read middle same showsOperator
      have kind : middle.kind = operator.kind := showsOperator.kind
      obtain ⟨binds, loose, anyLine⟩ := Kind.power_of_binary isOperator
      have power : middle.power = operator.kind.power := by simp [State.power, kind, anyLine]
      refine ⟨by rwa [power], ?_⟩
      have whole := readsAs_rightOperand proceeds reads Expr.binary
        (fun token kind value => Token.bare_eq_bare kind value) (fun _ _ _ => rfl) loose
        rightFormed same showsOperator stops
      refine whole.congr ?_
      rw [continuation_run, kind, isOperator, power]
      rfl
  | @pipe operator left right isPipe leftFormed rightFormed =>
      cases parenthesized
      rw [List.append_assoc, List.cons_append] at shows
      have leads := leads_expression proceeds consumes reads .default (by decide) leftFormed shows
      refine ((leads.round proceeds ?_).readsAs proceeds stops).of_iff (fitsSides _ _)
      intro read middle same showsOperator
      have kind : middle.kind = .pipe := showsOperator.kind
      have power : middle.power = .pipe := by simp [State.power, kind]; rfl
      refine ⟨by rw [power]; decide, ?_⟩
      have loose : BindingPower.pipe < .call := by decide
      have whole := readsAs_rightOperand proceeds reads Expr.pipe
        (fun token kind value => isPipe.bare_eq rfl kind value) (fun _ _ _ => rfl) loose
        rightFormed same showsOperator stops
      refine whole.congr ?_
      rw [continuation_run, kind, power]
      rfl
  | @unary operator operand isOperator spelled operandFormed =>
      cases parenthesized
      have whole := readsAs_unary proceeds reads operandFormed shows stops
      have fits : operand.levels 1 ≤ room ↔ (Expr.unary operator operand).levels 1 ≤ room + 1 + 1 :=
        by rw [Expr.levels, Nat.succ_le_succ_iff, Nat.succ_le_succ_iff]
      refine ((Leads.of_operand proceeds (whole.congr ?_)).readsAs proceeds stops).of_iff fits
      have kind : state.kind = operator.kind := shows.kind
      rw [operand_run, kind, isOperator]
  | @index bracket object position isBracket objectFormed positionFormed =>
      cases parenthesized
      simp only [List.append_assoc, List.cons_append] at shows
      have leads := leads_expression proceeds consumes reads .default (by decide) objectFormed shows
      refine ((leads.round proceeds ?_).readsAs proceeds stops).of_iff (fitsSides _ _)
      intro left middle same showsBracket
      have kind : middle.kind = .openBracket := showsBracket.kind
      have sameLine : middle.onNewLine = false := showsBracket.onNewLine (by simp [openBracket])
      have power : middle.power = .member := by
        rw [State.power, kind, sameLine]
        rfl
      refine ⟨by rw [power]; decide, ?_⟩
      refine (readsAs_index proceeds reads isBracket positionFormed same showsBracket).congr ?_
      rw [continuation_run, kind]
      rfl
  | _ => cases parenthesized

end

end Production

end AgentScript
