import AgentScript.Proofs.Reading.Canonical.Expressions

/-!
Contract: the printed tokens of a well-formed statement are read as that statement.

Owns:
- the reading of optional parts, of lists on lines of their own, and of names;
- the reading of lists of statements and of blocks, and of every form of statement;
- the statement for every level of nesting.
-/

set_option autoImplicit false

namespace AgentScript

open Printed

/-! ## How statements start -/

/-- How the printed tokens of a statement start. -/
structure StartsStatement (gap : Gap) (first : Printed) : Prop where
  gap : first.gap = gap
  ends : first.kind.continuesStatement = false
  isOpen : ∀ inBlock, Production.endsStatements inBlock first.kind = false
  noSemicolon : first.kind ≠ .semicolon
  noComma : first.kind ≠ .comma

theorem startsStatement_of_form {kind : Kind} (gap : Gap) (value : String)
    (starts : kind.statementForm?.isSome = true ∨
      (kind.operandForm?.isSome = true ∧ kind ≠ .dash)) :
    StartsStatement gap ⟨gap, kind, value⟩ where
  gap := rfl
  ends := by
    rcases starts with statement | ⟨operand, noDash⟩
    · exact Kind.not_continuesStatement_of_statementForm? statement
    · exact Kind.not_continuesStatement_of_operandForm? operand noDash
  isOpen := by
    intro inBlock
    have noEnd : kind ≠ .endOfInput ∧ kind ≠ .closeCurly := by
      constructor <;>
        · rintro rfl
          rcases starts with starts | ⟨starts, _⟩ <;> cases starts
    simp [Production.endsStatements, noEnd]
  noSemicolon := by
    rintro rfl
    rcases starts with starts | ⟨starts, _⟩ <;> cases starts
  noComma := by
    rintro rfl
    rcases starts with starts | ⟨starts, _⟩ <;> cases starts

/-- The first token of a statement that is not a block. -/
theorem Stmt.WellFormed.exists_first {statement : Stmt} (wellFormed : statement.WellFormed)
    (noBlock : statement.isBlock = false) (depth : Nat) (gap : Gap) :
    ∃ first rest, statement.printed depth gap = first :: rest ∧ StartsStatement gap first := by
  have starts {kind : Kind} {value : String}
      (form : kind.statementForm?.isSome = true) :=
    startsStatement_of_form gap value (.inl form)
  cases wellFormed with
  | assignment => exact ⟨_, _, rfl, startsStatement_of_form gap _ (.inr (by decide))⟩
  | expression valueFormed =>
      obtain ⟨kind, value, rest, printed, _, operand⟩ := valueFormed.exists_first gap
      exact ⟨_, rest, printed, startsStatement_of_form gap value (.inr operand)⟩
  | block => cases noBlock
  | @conditional _ _ _ alternative? =>
      cases alternative? <;> exact ⟨_, _, rfl, starts rfl⟩
  | @returnValue _ value? => cases value? <;> exact ⟨_, _, rfl, starts rfl⟩
  | config isConfig => exact ⟨_, _, rfl, starts (by rw [isConfig]; rfl)⟩
  | whileLoop | forOf | breakLoop | continueLoop | throwValue | attempt | tool | importNames |
    exported => exact ⟨_, _, rfl, starts rfl⟩

namespace Production

variable {α : Type} {state : State} {following : List Printed} {fits : Prop} {good : α → Prop}

/-! ## Optional parts -/

theorem ReadsAs.after?_some {production : Production α} {first : Printed} {rest : List Printed}
    {kind : Kind} (reads : production.ReadsAs state.advance fits good following)
    (shows : state.Shows (first :: rest)) (kind_eq : first.kind = kind) :
    (after? kind production).ReadsAs state fits
      (fun read => ∃ value, read = some value ∧ good value) following := by
  have here : state.kind = kind := shows.kind.trans kind_eq
  have run : after? kind production state = (production >>= fun value => pure (some value))
      state.advance := by
    unfold after?
    rw [currentKind_bind, ite_run, if_pos here, take_bind]
  refine ReadsAs.congr (reads.last (fun _ => proceeds_pure _) ?_) run
  intro value after isGood showsFollowing
  exact readsAs_pure ⟨value, rfl, isGood⟩ showsFollowing

theorem readsAs_after?_none {production : Production α} {kind : Kind}
    (shows : state.Shows following) (other : state.kind ≠ kind) :
    (after? kind production).ReadsAs state True (fun read => read = none) following :=
  readsAs_of_ok (after?_ok_iff.2 (.inr ⟨other, rfl, rfl⟩)) rfl shows

/-- A type that may stand before tokens that neither start nor continue one. -/
theorem readsAs_declaredType? {type? : Option TypeExpr} (wellFormed : ∀ type ∈ type?, type.WellFormed)
    (shows : state.Shows (typePrinted type? ++ following))
    (stops : ∀ next ∈ following.head?, next.kind ≠ .colon ∧ next.kind ≠ .openBracket) :
    declaredType?.ReadsAs state True (fun read => read = type?) following := by
  cases type? with
  | none =>
      refine readsAs_after?_none shows ?_
      cases following with
      | nil => simp [State.Shows.kind_of_nil shows]
      | cons next rest =>
          rw [State.Shows.kind shows]
          exact (stops next rfl).1
  | some type =>
      refine ((readsAs_typeExpr (wellFormed type rfl) .space shows.advance
        fun next isNext => (stops next isNext).2).after?_some shows rfl).imp ?_
      rintro _ ⟨read, rfl, rfl⟩
      rfl

/-! ## Lists on lines of their own -/

/-- After an item on a line of its own stand the other items, each on its own line. -/
def afterLine {β : Type} (piece : β → Gap → List Printed) (depth : Nat) (closing : List Printed)
    (rest : List β) : List Printed :=
  (rest.map piece).flatMap (fun piece => piece (.line depth)) ++ closing

/-- The curly bracket after items on lines of their own. -/
def closingLine {β : Type} (depth : Nat) (items : List β) : Printed :=
  ⟨if items.isEmpty then .none else .line depth, .closeCurly, "\x7d"⟩

theorem bracedLines_append {β : Type} (piece : β → Gap → List Printed) (depth : Nat) (gap : Gap)
    (items : List β) :
    bracedLines depth gap (items.map piece) ++ following =
      ⟨gap, .openCurly, "\x7b"⟩ ::
        listed piece (afterLine piece (depth + 1) (closingLine depth items :: following))
          (closingLine depth items :: following) (.line (depth + 1)) items := by
  cases items with
  | nil => rfl
  | cons first rest => simp [bracedLines, listed, afterLine, closingLine]

/-- The layout of a list in which a line break separates items. -/
theorem layout_bracedLines {β : Type} {listing : Listing} {piece : β → Gap → List Printed}
    {closing : Printed} {depth : Nat} {items : List β}
    (lines : listing.lineBreakSeparates = true) (closes : closing.kind = listing.closing)
    (noComma : listing.closing ≠ .comma)
    (starts : ∀ item ∈ items, ∀ gap, ∃ first rest, piece item gap = first :: rest ∧
      first.gap = gap ∧ first.kind ≠ listing.closing ∧ first.kind ≠ .comma) :
    Layout listing piece (afterLine piece depth (closing :: following)) (closing :: following)
      (.line depth) items where
  starts := by
    intro item member gap
    obtain ⟨first, rest, printed, _, other, _⟩ := starts item member gap
    exact ⟨first, rest, printed, other⟩
  ends := by
    intro rest within state shows
    have ended : endItem listing state = .ok () state := by
      cases rest with
      | nil =>
          have kind : state.kind = listing.closing := by
            rw [State.Shows.kind shows, closes]
          exact endItem_ok_iff.2 (.inr ⟨by rwa [kind], rfl, .inl kind⟩)
      | cons next rest =>
          obtain ⟨first, more, printed, isGap, _, noComma⟩ :=
            starts next (within next List.mem_cons_self) (.line depth)
          have showsFirst : state.Shows (first :: (more ++ afterLine piece depth
              (closing :: following) rest)) := by
            simpa [afterLine, printed] using shows
          refine endItem_ok_iff.2 (.inr ⟨by rwa [showsFirst.kind], rfl, .inr ⟨lines, ?_⟩⟩)
          exact showsFirst.onNewLine_of_breaks (by rw [isGap]; rfl)
    have showsRest : state.Shows (listed piece (afterLine piece depth (closing :: following))
        (closing :: following) (.line depth) rest) := by
      cases rest with
      | nil => exact shows
      | cons next rest => simpa [afterLine, listed] using shows
    exact readsAs_of_ok ended trivial showsRest

/-! ## Names -/

/-- The names of an import after the first. -/
theorem readsAs_furtherNames {names : List Token} {closing : Printed}
    (areNames : ∀ name ∈ names, name.Is .identifier) (closes : closing.kind = .closeCurly)
    (shows : state.Shows (afterItem (fun token gap => [name gap token]) (closing :: following)
      names)) :
    (manyWhile moreNames furtherName).ReadsAs state True
      (fun read => read.map Token.bare = names.map Token.bare) (closing :: following) := by
  induction names generalizing state with
  | nil =>
      have showsClosing : state.Shows (closing :: following) := shows
      have run : manyWhile moreNames furtherName state = .ok [] state := by
        rw [manyWhile_run proceeds_furtherName consumes_furtherName shows.scanned, if_neg]
        simp [moreNames, showsClosing.kind, closes]
      exact readsAs_of_ok run rfl showsClosing
  | cons first rest inductionHypothesis =>
      have showsComma : state.Shows (⟨.none, .comma, ","⟩ :: name .space first ::
          afterItem (fun token gap => [name gap token]) (closing :: following) rest) := by
        simpa [afterItem] using shows
      have isName := areNames first List.mem_cons_self
      have comma : state.kind = .comma := showsComma.kind
      have identifier : state.advance.kind = .identifier := showsComma.advance.kind
      have goesOn : moreNames state = true := by
        simp [moreNames, comma, showsComma.peek_kind, identifier]
      have same : state.advance.current.bare = first.bare :=
        isName.bare_eq_of_value identifier showsComma.advance.value
      have whole : (manyWhile moreNames furtherName >>= fun rest =>
          (pure (state.advance.current :: rest) : Production (List Token))).ReadsAs
          state.advance.advance True
          (fun read => read.map Token.bare = (first :: rest).map Token.bare)
          (closing :: following) := by
        refine ReadsAs.first (inductionHypothesis
          (fun name member => areNames name (List.mem_cons_of_mem _ member))
          showsComma.advance.advance) (fun _ => proceeds_pure _) ?_
        intro read _ sameRest showsClosing
        exact readsAs_pure (by rw [List.map_cons, List.map_cons, same, sameRest]) showsClosing
      refine whole.congr ?_
      rw [manyWhile_run proceeds_furtherName consumes_furtherName showsComma.scanned, if_pos goesOn]
      have read : furtherName state = .ok state.advance.current state.advance.advance :=
        furtherName_ok_iff.2 ⟨identifier, rfl, rfl⟩
      exact bind_run_of_ok read

theorem readsAs_passIf_other {kind : Kind} (shows : state.Shows following)
    (other : state.kind ≠ kind) : (passIf kind).ReadsAs state True (fun _ => True) following :=
  readsAs_of_ok (by rw [passIf_run, if_neg other]) trivial shows

theorem readsAs_bracedNames {first : Token} {rest : List Token}
    (areNames : ∀ name ∈ first :: rest, name.Is .identifier)
    (shows : state.Shows (⟨.space, .openCurly, "\x7b"⟩ :: name .space first ::
      afterItem (fun token gap => [name gap token]) (⟨.space, .closeCurly, "\x7d"⟩ :: following)
        rest)) :
    bracedNames.ReadsAs state True
      (fun read => read.map Token.bare = (first :: rest).map Token.bare) following := by
  refine ReadsAs.first (readsAs_expect shows rfl) (fun _ => proceeds_importedName.bind fun _ =>
    (proceeds_furtherName.manyWhile _).bind fun _ => (proceeds_passIf _).bind fun _ =>
      (proceeds_expect _).bind fun _ => proceeds_pure _) ?_
  intro _ afterBrace _ showsFirst
  refine ReadsAs.first (readsAs_expectAs _ showsFirst rfl) (fun _ =>
    (proceeds_furtherName.manyWhile _).bind fun _ => (proceeds_passIf _).bind fun _ =>
      (proceeds_expect _).bind fun _ => proceeds_pure _) ?_
  intro token afterFirst isShown showsRest
  have same : token.bare = first.bare :=
    (areNames first List.mem_cons_self).bare_eq_of_value isShown.1 isShown.2
  refine ReadsAs.first (readsAs_furtherNames
    (fun name member => areNames name (List.mem_cons_of_mem _ member)) rfl showsRest)
    (fun _ => (proceeds_passIf _).bind fun _ => (proceeds_expect _).bind fun _ =>
      proceeds_pure _) ?_
  intro read before sameRest showsClosing
  have kind : before.kind = .closeCurly := showsClosing.kind
  refine ReadsAs.first (readsAs_passIf_other showsClosing (by simp [kind]))
    (fun _ => (proceeds_expect _).bind fun _ => proceeds_pure _) ?_
  intro _ _ _ showsClosing
  refine ReadsAs.first (readsAs_expect showsClosing rfl) (fun _ => proceeds_pure _) ?_
  intro _ _ _ showsFollowing
  exact readsAs_pure (by rw [List.map_cons, List.map_cons, same, sameRest]) showsFollowing

theorem readsAs_importedNames {names : List Token} {inBraces : Bool} (some? : names ≠ [])
    (areNames : ∀ name ∈ names, name.Is .identifier)
    (single : inBraces = false → names.length = 1)
    (shows : state.Shows (namesPrinted names inBraces ++ following)) :
    importedNames.ReadsAs state True
      (fun read => read.1.map Token.bare = names.map Token.bare ∧ read.2 = inBraces) following := by
  obtain ⟨first, rest, rfl⟩ := List.exists_cons_of_ne_nil some?
  cases inBraces with
  | false =>
      obtain rfl : rest = [] := by simpa using single rfl
      have showsName : state.Shows (name .space first :: following) := shows
      have identifier : state.kind = .identifier := showsName.kind
      refine readsAs_of_ok (importedNames_ok_iff.2 (.inr ⟨identifier, rfl, rfl⟩)) ⟨?_, rfl⟩
        showsName.advance
      rw [List.map_singleton, List.map_singleton,
        (areNames first List.mem_cons_self).bare_eq_of_value identifier showsName.value]
  | true =>
      have showsBrace : state.Shows (⟨.space, .openCurly, "\x7b"⟩ :: name .space first ::
          afterItem (fun token gap => [name gap token])
            (⟨.space, .closeCurly, "\x7d"⟩ :: following) rest) := by
        simpa [namesPrinted, separated, afterItem] using shows
      have opening : state.kind = .openCurly := showsBrace.kind
      have whole : (bracedNames >>= fun names => (pure (names, true) :
          Production (List Token × Bool))).ReadsAs state True
          (fun read => read.1.map Token.bare = (first :: rest).map Token.bare ∧ read.2 = true)
          following := by
        refine ReadsAs.first (readsAs_bracedNames areNames showsBrace) (fun _ => proceeds_pure _) ?_
        intro read _ same showsFollowing
        exact readsAs_pure ⟨same, rfl⟩ showsFollowing
      refine whole.congr ?_
      unfold importedNames
      rw [currentKind_bind, ite_run, if_pos opening]

theorem readsAs_parameter {parameter : Parameter} (wellFormed : parameter.WellFormed) {gap : Gap}
    (shows : state.Shows (parameter.printed gap ++ following))
    (stops : ∀ next ∈ following.head?, next.kind ≠ .colon ∧ next.kind ≠ .openBracket) :
    Production.parameter.ReadsAs state True
      (fun read => read.mapTokens Token.bare = parameter.mapTokens Token.bare) following := by
  refine ReadsAs.first (readsAs_expectAs _ shows rfl)
    (fun _ => proceeds_declaredType?.bind fun _ => proceeds_pure _) ?_
  intro token after isShown showsType
  refine ReadsAs.first (readsAs_declaredType? wellFormed.type showsType stops)
    (fun _ => proceeds_pure _) ?_
  rintro _ _ rfl showsFollowing
  refine readsAs_pure ?_ showsFollowing
  simp [Parameter.mapTokens, wellFormed.name.bare_eq_of_value isShown.1 isShown.2]

/-! ## Lists of statements -/

/-- What stands after a statement on a line of its own does not continue it. -/
theorem ends_afterLine {depth : Nat} {statements : List Stmt} {closing : List Printed}
    (starts : ∀ statement ∈ statements, ∀ gap, ∃ first rest,
      statement.printed depth gap = first :: rest ∧ StartsStatement gap first)
    (ends : Ends closing) : Ends (afterLine (Stmt.printed depth) depth closing statements) := by
  cases statements with
  | nil => exact ends
  | cons next others =>
      obtain ⟨token, tokens, printed, startsNext⟩ :=
        starts next List.mem_cons_self (.line depth)
      intro head isHead
      simp only [afterLine, List.map_cons, List.flatMap_cons, printed, List.cons_append,
        List.head?_cons, Option.mem_some_iff] at isHead
      subst isHead
      exact ⟨by rw [startsNext.gap]; rfl, startsNext.ends⟩

section

variable {statement : Production Stmt} {inBlock : Bool}

/-- A statement before the end of the list or a new line is separated from what follows it. -/
theorem checkSeparated_eq_self (ends : Ends following ∨ endsStatements inBlock state.kind = true)
    (shows : state.Shows following) : checkSeparated inBlock state = state := by
  unfold checkSeparated
  refine if_pos ?_
  rcases ends with ends | closes
  · cases following with
    | nil => simp [State.Shows.kind_of_nil shows, endsStatements]
    | cons next rest => simp [State.Shows.onNewLine_of_breaks shows (ends next rfl).1]
  · simp [closes]

/-- Statements that are read one by one are read one after the other, if all of them fit. -/
theorem statementsWithin_readsAs {depth : Nat} {statements : List Stmt} {closing : List Printed}
    {fitsItem : Stmt → Prop} (proceeds : statement.Proceeds) (consumes : statement.Consumes)
    (starts : ∀ statement ∈ statements, ∀ gap, ∃ first rest,
      statement.printed depth gap = first :: rest ∧ StartsStatement gap first)
    (reads : ∀ entry ∈ statements, ∀ (gap : Gap) (state : State) (following : List Printed),
      state.Shows (entry.printed depth gap ++ following) → Ends following →
      statement.ReadsAs state (fitsItem entry) (fun read => read.bare = entry.bare) following)
    (closes : ∀ state : State, state.Shows closing → endsStatements inBlock state.kind = true)
    (ends : statements ≠ [] → Ends closing) (gap : Gap) (bound : List Lexed)
    (enough : state.upcoming.length ≤ bound.length)
    (shows : state.Shows (listed (Stmt.printed depth) (afterLine (Stmt.printed depth) depth closing)
      closing gap statements)) :
    ((∀ entry ∈ statements, fitsItem entry) ∧
        ∃ read final, statementsWithin inBlock statement bound state = (read, final) ∧
          read.map Stmt.bare = statements.map Stmt.bare ∧ final.Shows closing) ∨
      (¬ (∀ entry ∈ statements, fitsItem entry) ∧
        (statementsWithin inBlock statement bound state).2.sink.HoldsTooDeep) := by
  induction statements generalizing state gap bound with
  | nil =>
      refine .inl ⟨by simp, [], state, ?_, rfl, shows⟩
      cases bound with
      | nil => rfl
      | cons _ bound => rw [statementsWithin, if_pos (closes state shows)]
  | cons first rest inductionHypothesis =>
      obtain ⟨token, more, printed, startsFirst⟩ := starts first List.mem_cons_self gap
      have showsToken := shows
      rw [listed, printed, List.cons_append] at showsToken
      have isOpen : endsStatements inBlock state.kind = false := by
        rw [showsToken.kind]
        exact startsFirst.isOpen inBlock
      have noSemicolon : state.kind ≠ .semicolon := by
        rw [showsToken.kind]
        exact startsFirst.noSemicolon
      cases bound with
      | nil =>
          have ended : state.kind = .endOfInput :=
            showsToken.scanned.kind_eq_endOfInput_iff.2 (by simpa using enough)
          rw [ended] at isOpen
          cases isOpen
      | cons last bound =>
          rw [List.forall_mem_cons]
          have startsRest := fun entry member => starts entry (List.mem_cons_of_mem first member)
          have endsHere := ends_afterLine startsRest (ends (by simp))
          obtain ⟨firstFits, value, after, read, same, showsAfter⟩ | ⟨tooMuch, tooDeep⟩ :=
            reads first List.mem_cons_self gap state _ shows endsHere
          · have shorter := consumes state after value showsToken.scanned read
            have showsRest : after.Shows (listed (Stmt.printed depth)
                (afterLine (Stmt.printed depth) depth closing) closing (.line depth) rest) := by
              cases rest with
              | nil => exact showsAfter
              | cons next others => simpa [afterLine, listed] using showsAfter
            rw [statementsWithin, if_neg (by simp [isOpen]), if_neg noSemicolon, read]
            simp only [checkSeparated_eq_self (.inl endsHere) showsAfter]
            obtain ⟨restFits, others, final, readRest, sameRest, showsClosing⟩ | ⟨tooMuch, tooDeep⟩ :=
              inductionHypothesis startsRest
                (fun entry member => reads entry (List.mem_cons_of_mem _ member))
                (fun _ => ends (by simp)) (.line depth) bound
                (by simp only [List.length_cons] at enough; omega) showsRest
            · refine .inl ⟨⟨firstFits, restFits⟩, value :: others, final, ?_, ?_, showsClosing⟩
              · rw [readRest]
              · rw [List.map_cons, List.map_cons, same, sameRest]
            · exact .inr ⟨fun both => tooMuch both.2, tooDeep⟩
          · exact .inr ⟨fun both => tooMuch both.1,
              statementsWithin_holdsTooDeep proceeds isOpen noSemicolon tooDeep _ _⟩

end

/-! ## Forms of statements -/

section

variable {inner : Level} {room : Nat} (proceeds : LevelProceeds inner)
  (reads : LevelReads inner room)

include proceeds reads in
theorem readsAs_condition {expr : Expr} (wellFormed : expr.WellFormed) {gap : Gap}
    (shows : state.Shows (openParen gap :: (expr.printed .none ++ closeParen :: following))) :
    (condition inner).ReadsAs state (expr.levels 1 ≤ room) (fun read => read.bare = expr.bare)
      following :=
  readsAs_grouping proceeds (fun after showsInside => reads.expression .default expr .none after _
    (by decide) wellFormed showsInside (stops_cons rfl)) shows

include proceeds reads in
theorem readsAs_whileLoop {token : Token} {value : Expr} {body : Block} {depth : Nat} {gap : Gap}
    (isKeyword : token.Is (.keyword .whileKw)) (valueFormed : value.WellFormed)
    (bodyFormed : (Stmt.block body).WellFormed)
    (shows : state.Shows ((Stmt.whileLoop token value body).printed depth gap ++ following)) :
    (whileLoop inner).ReadsAs state ((Stmt.whileLoop token value body).levels 1 ≤ room)
      (fun read => read.bare = (Stmt.whileLoop token value body).bare) following := by
  simp only [Stmt.printed, List.cons_append, List.append_assoc] at shows
  rw [Stmt.levels, Nat.max_le]
  refine ReadsAs.first (readsAs_take shows) (fun _ => (proceeds_condition proceeds).bind fun _ =>
    proceeds.block.bind fun _ => proceeds_pure _) ?_
  intro keyword after isShown showsCondition
  refine ReadsAs.bind (readsAs_condition proceeds reads valueFormed showsCondition)
    (fun _ => proceeds.block.bind fun _ => proceeds_pure _) ?_
  intro readValue afterCondition sameValue showsBody
  refine ReadsAs.last (reads.block depth body .space _ following bodyFormed showsBody)
    (fun _ => proceeds_pure _) ?_
  intro readBody _ sameBody showsFollowing
  refine readsAs_pure ?_ showsFollowing
  change Stmt.whileLoop keyword.bare readValue.bare readBody.bare =
    .whileLoop token.bare value.bare body.bare
  rw [isKeyword.bare_eq rfl isShown.1 isShown.2, sameValue, sameBody]

include proceeds reads in
theorem readsAs_forOf {token loopVariable : Token} {iterable : Expr} {body : Block} {depth : Nat}
    {gap : Gap} (isKeyword : token.Is (.keyword .forKw)) (isName : loopVariable.Is .identifier)
    (iterableFormed : iterable.WellFormed) (bodyFormed : (Stmt.block body).WellFormed)
    (shows : state.Shows
      ((Stmt.forOf token loopVariable iterable body).printed depth gap ++ following)) :
    (forOf inner).ReadsAs state ((Stmt.forOf token loopVariable iterable body).levels 1 ≤ room)
      (fun read => read.bare = (Stmt.forOf token loopVariable iterable body).bare) following := by
  simp only [Stmt.printed, List.cons_append, List.append_assoc] at shows
  rw [Stmt.levels, Nat.max_le]
  have proceedsBody (keyword name : Token) (value : Expr) := proceeds.block.bind fun body =>
    proceeds_pure (Stmt.forOf keyword name value body)
  have proceedsValue (keyword name : Token) := (proceeds.expression .default).bind fun value =>
    (proceeds_expect .closeParen).bind fun _ => proceedsBody keyword name value
  refine ReadsAs.first (readsAs_take shows) (fun _ => (proceeds_expect _).bind fun _ =>
    (proceeds_expectAs _ _).bind fun _ => (proceeds_expect _).bind fun _ => proceedsValue _ _) ?_
  intro keyword afterKeyword isShown showsParen
  refine ReadsAs.first (readsAs_expect showsParen rfl) (fun _ => (proceeds_expectAs _ _).bind fun _ =>
    (proceeds_expect _).bind fun _ => proceedsValue _ _) ?_
  intro _ afterParen _ showsName
  refine ReadsAs.first (readsAs_expectAs _ showsName rfl) (fun _ => (proceeds_expect _).bind fun _ =>
    proceedsValue _ _) ?_
  intro readName afterName isNameShown showsOf
  refine ReadsAs.first (readsAs_expect showsOf rfl) (fun _ => proceedsValue _ _) ?_
  intro _ afterOf _ showsValue
  refine ReadsAs.bind (reads.expression .default iterable .space afterOf _ (by decide)
    iterableFormed showsValue (stops_cons rfl))
    (fun _ => (proceeds_expect _).bind fun _ => proceedsBody _ _ _) ?_
  intro readValue afterValue sameValue showsClosing
  refine ReadsAs.first (readsAs_expect showsClosing rfl) (fun _ => proceedsBody _ _ _) ?_
  intro _ afterClosing _ showsBody
  refine ReadsAs.last (reads.block depth body .space _ following bodyFormed showsBody)
    (fun _ => proceeds_pure _) ?_
  intro readBody _ sameBody showsFollowing
  refine readsAs_pure ?_ showsFollowing
  change Stmt.forOf keyword.bare readName.bare readValue.bare readBody.bare =
    .forOf token.bare loopVariable.bare iterable.bare body.bare
  rw [isKeyword.bare_eq rfl isShown.1 isShown.2,
    isName.bare_eq_of_value isNameShown.1 isNameShown.2, sameValue, sameBody]

/-- Where an expression is printed on the same line, the statement has not ended. -/
theorem atStatementEnd_of_expression {expr : Expr} (wellFormed : expr.WellFormed)
    (shows : state.Shows (expr.printed .space ++ following)) : state.atStatementEnd = false := by
  obtain ⟨kind, value, rest, printed, _, starts, _⟩ := wellFormed.exists_first .space
  rw [printed] at shows
  have kind_eq : state.kind = kind := shows.kind
  have sameLine : state.onNewLine = false := shows.onNewLine (by simp)
  unfold State.atStatementEnd
  rw [kind_eq, sameLine]
  cases kind <;> first | rfl | cases starts

include reads in
theorem readsAs_returnValue {token : Token} {value? : Option Expr} {depth : Nat} {gap : Gap}
    (isKeyword : token.Is (.keyword .returnKw)) (valueFormed : ∀ value ∈ value?, value.WellFormed)
    (shows : state.Shows ((Stmt.returnValue token value?).printed depth gap ++ following))
    (ends : Ends following) :
    (returnValue inner).ReadsAs state ((Stmt.returnValue token value?).levels 1 ≤ room)
      (fun read => read.bare = (Stmt.returnValue token value?).bare) following := by
  cases value? with
  | none =>
      have showsKeyword : state.Shows (keyword gap .returnKw :: following) := shows
      have ended : state.advance.atStatementEnd = true := by
        have showsFollowing := showsKeyword.advance
        unfold State.atStatementEnd
        cases following with
        | nil => simp [showsFollowing.kind_of_nil]
        | cons next rest => simp [showsFollowing.onNewLine_of_breaks (ends next rfl).1]
      have whole : (returnValue inner).ReadsAs state True
          (fun read => read.bare = (Stmt.returnValue token none).bare) following := by
        refine readsAs_of_ok (returnValue_ok_iff.2 (.inl ⟨ended, rfl, rfl⟩)) ?_ showsKeyword.advance
        change Stmt.returnValue state.current.bare none = .returnValue token.bare none
        rw [isKeyword.bare_eq rfl showsKeyword.kind showsKeyword.value]
      exact whole.of_iff (iff_of_true trivial (Nat.zero_le room))
  | some value =>
      have formed := valueFormed value rfl
      simp only [Stmt.printed, List.cons_append] at shows
      have goesOn := atStatementEnd_of_expression formed shows.advance
      have whole : (inner.expression .default >>= fun read =>
          (pure (.returnValue state.current (some read)) : Production Stmt)).ReadsAs state.advance
          (value.levels 1 ≤ room)
          (fun read => read.bare = (Stmt.returnValue token (some value)).bare) following := by
        refine ReadsAs.last (reads.expression .default value .space _ following (by decide) formed
          shows.advance ends.stops) (fun _ => proceeds_pure _) ?_
        intro read _ same showsFollowing
        refine readsAs_pure ?_ showsFollowing
        change Stmt.returnValue state.current.bare (some read.bare) =
          .returnValue token.bare (some value.bare)
        rw [isKeyword.bare_eq rfl shows.kind shows.value, same]
      refine whole.congr ?_
      unfold returnValue
      rw [take_bind, get_bind, ite_run, goesOn]
      rfl

include reads in
theorem readsAs_throwValue {token : Token} {value : Expr} {depth : Nat} {gap : Gap}
    (isKeyword : token.Is (.keyword .throwKw)) (formed : value.WellFormed)
    (shows : state.Shows ((Stmt.throwValue token value).printed depth gap ++ following))
    (ends : Ends following) :
    (throwValue inner).ReadsAs state ((Stmt.throwValue token value).levels 1 ≤ room)
      (fun read => read.bare = (Stmt.throwValue token value).bare) following := by
  simp only [Stmt.printed, List.cons_append] at shows
  have goesOn := atStatementEnd_of_expression formed shows.advance
  have whole : (inner.expression .default >>= fun read =>
      (pure (.throwValue state.current read) : Production Stmt)).ReadsAs state.advance
      (value.levels 1 ≤ room)
      (fun read => read.bare = (Stmt.throwValue token value).bare) following := by
    refine ReadsAs.last (reads.expression .default value .space _ following (by decide) formed
      shows.advance ends.stops) (fun _ => proceeds_pure _) ?_
    intro read _ same showsFollowing
    refine readsAs_pure ?_ showsFollowing
    change Stmt.throwValue state.current.bare read.bare = .throwValue token.bare value.bare
    rw [isKeyword.bare_eq rfl shows.kind shows.value, same]
  refine whole.congr ?_
  unfold throwValue
  rw [take_bind, get_bind, ite_run, goesOn]
  rfl

/-- A clause that may follow is absent where its keyword is not ahead. -/
theorem kind_ne_of_ends {word : Keyword} (continues : (Kind.keyword word).continuesStatement = true)
    (shows : state.Shows following) (ends : Ends following) : state.kind ≠ .keyword word := by
  intro kind
  cases following with
  | nil => rw [shows.kind_of_nil] at kind; cases kind
  | cons next rest =>
      have stops := (ends next rfl).2
      rw [← shows.kind, kind, continues] at stops
      cases stops

include reads in
theorem readsAs_alternative {statement : Stmt} {depth : Nat} (wellFormed : statement.WellFormed)
    (isAlternative : statement.isAlternative = true)
    (shows : state.Shows (statement.printed depth .space ++ following)) (ends : Ends following) :
    (alternative inner).ReadsAs state (statement.levels 1 ≤ room)
      (fun read => read.bare = statement.bare) following := by
  cases statement with
  | block body =>
      have opening : state.kind = .openCurly := by
        obtain ⟨brace, statements⟩ := body
        exact shows.kind
      have whole : (inner.block >>= fun body => (pure (.block body) : Production Stmt)).ReadsAs state
          (body.levels 1 ≤ room) (fun read => read.bare = (Stmt.block body).bare) following := by
        refine ReadsAs.last (reads.block depth body .space state following wellFormed shows)
          (fun _ => proceeds_pure _) ?_
        intro read _ same showsFollowing
        refine readsAs_pure ?_ showsFollowing
        change Stmt.block read.bare = .block body.bare
        rw [same]
      refine whole.congr ?_
      unfold alternative
      rw [currentKind_bind, ite_run, if_neg (by simp [opening])]
  | conditional keyword value consequence alternative? =>
      have opening : state.kind = .keyword .ifKw := by
        cases alternative? <;> exact shows.kind
      refine (reads.conditional depth _ .space state following wellFormed rfl shows ends).congr ?_
      unfold alternative
      rw [currentKind_bind, ite_run, if_pos opening]
  | _ => cases isAlternative

theorem bare_conditional (token : Token) (value : Expr) (block : Block)
    (alternative? : Option Stmt) :
    (Stmt.conditional token value block alternative?).bare =
      .conditional token.bare value.bare block.bare (alternative?.map Stmt.bare) := by
  cases alternative? <;> rfl

include proceeds reads in
/-- The condition and the block are read as themselves, whatever is read after the block. -/
theorem readsAs_conditionalAt_of_rest {token : Token} {value : Expr} {consequence : Block}
    {alternative? : Option Stmt} {depth : Nat} {gap : Gap} {fitsRest : Prop} {rest : List Printed}
    (isKeyword : token.Is (.keyword .ifKw)) (valueFormed : value.WellFormed)
    (blockFormed : (Stmt.block consequence).WellFormed)
    (shows : state.Shows (keyword gap .ifKw :: openParen .space :: (value.printed .none ++
      closeParen :: (consequence.printed depth .space ++ rest))))
    (finish : ∀ after : State, after.Shows rest →
      (after? (.keyword .elseKw) (alternative inner)).ReadsAs after fitsRest
        (fun read => read.map Stmt.bare = alternative?.map Stmt.bare) following) :
    (conditionalAt inner).ReadsAs state
      (value.levels 1 ≤ room ∧ consequence.levels 1 ≤ room ∧ fitsRest)
      (fun read => read.bare = (Stmt.conditional token value consequence alternative?).bare)
      following := by
  have proceedsElse := (proceeds_alternative proceeds).after? (.keyword .elseKw)
  refine ReadsAs.first (readsAs_expect shows rfl) (fun _ =>
    (proceeds_condition proceeds).bind fun _ => proceeds.block.bind fun _ =>
      proceedsElse.bind fun _ => proceeds_pure _) ?_
  intro keyword after isShown showsCondition
  refine ReadsAs.bind (readsAs_condition proceeds reads valueFormed showsCondition)
    (fun _ => proceeds.block.bind fun _ => proceedsElse.bind fun _ => proceeds_pure _) ?_
  intro readValue afterCondition sameValue showsBlock
  refine ReadsAs.bind (reads.block depth consequence .space _ _ blockFormed showsBlock)
    (fun _ => proceedsElse.bind fun _ => proceeds_pure _) ?_
  intro readBlock afterBlock sameBlock showsRest
  refine ReadsAs.last (finish afterBlock showsRest) (fun _ => proceeds_pure _) ?_
  intro read? _ same? showsFollowing
  refine readsAs_pure ?_ showsFollowing
  rw [bare_conditional, bare_conditional, isKeyword.bare_eq rfl isShown.1 isShown.2, sameValue,
    sameBlock, same?]

include proceeds reads in
theorem readsAs_conditionalAt {token : Token} {value : Expr} {consequence : Block}
    {alternative? : Option Stmt} {depth : Nat} {gap : Gap}
    (wellFormed : (Stmt.conditional token value consequence alternative?).WellFormed)
    (shows : state.Shows
      ((Stmt.conditional token value consequence alternative?).printed depth gap ++ following))
    (ends : Ends following) :
    (conditionalAt inner).ReadsAs state
      ((Stmt.conditional token value consequence alternative?).levels 1 ≤ room + 1)
      (fun read => read.bare = (Stmt.conditional token value consequence alternative?).bare)
      following := by
  cases wellFormed with
  | conditional isKeyword valueFormed blockFormed alternativeFormed isAlternative =>
      cases alternative? with
      | none =>
          simp only [Stmt.printed, List.cons_append, List.append_assoc] at shows
          have fits : value.levels 1 ≤ room ∧ consequence.levels 1 ≤ room ∧ True ↔
              (Stmt.conditional token value consequence none).levels 1 ≤ room + 1 := by
            rw [Stmt.levels, and_true]
            omega
          refine (readsAs_conditionalAt_of_rest proceeds reads isKeyword valueFormed blockFormed
            shows fun after showsRest => ?_).of_iff fits
          refine (readsAs_after?_none showsRest (kind_ne_of_ends rfl showsRest ends)).imp ?_
          rintro _ rfl
          rfl
      | some alternative =>
          simp only [Stmt.printed, List.cons_append, List.append_assoc] at shows
          have fits : value.levels 1 ≤ room ∧ consequence.levels 1 ≤ room ∧
                alternative.levels 1 ≤ room ↔
              (Stmt.conditional token value consequence (some alternative)).levels 1 ≤ room + 1 := by
            rw [Stmt.levels]
            omega
          refine (readsAs_conditionalAt_of_rest proceeds reads isKeyword valueFormed blockFormed
            shows fun after showsRest => ?_).of_iff fits
          refine ((readsAs_alternative reads (alternativeFormed _ rfl) (isAlternative _ rfl)
            showsRest.advance ends).after?_some showsRest rfl).imp ?_
          rintro _ ⟨read, rfl, same⟩
          exact congrArg some same

include proceeds reads in
theorem readsAs_handler {name : Token} {block : Block} {depth : Nat} (isName : name.Is .identifier)
    (blockFormed : (Stmt.block block).WellFormed)
    (shows : state.Shows (openParen .space :: Printed.name .none name :: closeParen ::
      (block.printed depth .space ++ following))) :
    (handler inner).ReadsAs state (block.levels 1 ≤ room)
      (fun read => read.1.bare = name.bare ∧ read.2.bare = block.bare) following := by
  have proceedsBody (name : Token) := proceeds.block.bind fun body => proceeds_pure (name, body)
  refine ReadsAs.first (readsAs_expect shows rfl) (fun _ => (proceeds_expectAs _ _).bind fun _ =>
    (proceeds_expect _).bind fun _ => proceedsBody _) ?_
  intro _ afterParen _ showsName
  refine ReadsAs.first (readsAs_expectAs _ showsName rfl)
    (fun _ => (proceeds_expect _).bind fun _ => proceedsBody _) ?_
  intro readName afterName isShown showsClosing
  refine ReadsAs.first (readsAs_expect showsClosing rfl) (fun _ => proceedsBody _) ?_
  intro _ afterClosing _ showsBlock
  refine ReadsAs.last (reads.block depth block .space _ following blockFormed showsBlock)
    (fun _ => proceeds_pure _) ?_
  intro read _ same showsFollowing
  exact readsAs_pure ⟨isName.bare_eq_of_value isShown.1 isShown.2, same⟩ showsFollowing

/-- A handler without its positions. -/
def bareHandler (handler : Token × Block) : Token × Block := (handler.1.bare, handler.2.bare)

include proceeds reads in
/-- A handler that may stand before a clause of another kind. -/
theorem readsAs_handler? {handler? : Option (Token × Block)} {depth : Nat}
    (areNames : ∀ handler ∈ handler?, handler.1.Is .identifier)
    (blocksFormed : ∀ handler ∈ handler?, (Stmt.block handler.2).WellFormed)
    (shows : state.Shows (handlerPrinted depth handler? ++ following))
    (other : state.Shows following → state.kind ≠ .keyword .catchKw) :
    (after? (.keyword .catchKw) (handler inner)).ReadsAs state (levelsOfHandler 1 handler? ≤ room)
      (fun read => read.map bareHandler = handler?.map bareHandler) following := by
  cases handler? with
  | none =>
      refine ((readsAs_after?_none shows (other shows)).imp ?_).of_iff
        (iff_of_true trivial (Nat.zero_le room))
      rintro _ rfl
      rfl
  | some entry =>
      obtain ⟨name, block⟩ := entry
      simp only [handlerPrinted, List.cons_append] at shows
      refine ((readsAs_handler proceeds reads (areNames _ rfl) (blocksFormed _ rfl)
        shows.advance).after?_some shows rfl).imp ?_
      rintro _ ⟨read, rfl, sameName, sameBlock⟩
      rw [Option.map_some, Option.map_some, bareHandler, bareHandler, sameName, sameBlock]

include reads in
theorem readsAs_finalizer? {finalizer? : Option Block} {depth : Nat}
    (blocksFormed : ∀ finalizer ∈ finalizer?, (Stmt.block finalizer).WellFormed)
    (shows : state.Shows (finalizerPrinted depth finalizer? ++ following)) (ends : Ends following) :
    (after? (.keyword .finallyKw) inner.block).ReadsAs state (levelsOfBlock? 1 finalizer? ≤ room)
      (fun read => read.map Block.bare = finalizer?.map Block.bare) following := by
  cases finalizer? with
  | none =>
      refine ((readsAs_after?_none shows (kind_ne_of_ends rfl shows ends)).imp ?_).of_iff
        (iff_of_true trivial (Nat.zero_le room))
      rintro _ rfl
      rfl
  | some block =>
      simp only [finalizerPrinted, List.cons_append] at shows
      refine ((reads.block depth block .space _ following (blocksFormed _ rfl)
        shows.advance).after?_some shows rfl).imp ?_
      rintro _ ⟨read, rfl, same⟩
      exact congrArg some same

include proceeds reads in
theorem readsAs_attempt {token : Token} {body : Block} {handler? : Option (Token × Block)}
    {finalizer? : Option Block} {depth : Nat} {gap : Gap}
    (wellFormed : (Stmt.attempt token body handler? finalizer?).WellFormed)
    (shows : state.Shows
      ((Stmt.attempt token body handler? finalizer?).printed depth gap ++ following))
    (ends : Ends following) :
    (attempt inner).ReadsAs state ((Stmt.attempt token body handler? finalizer?).levels 1 ≤ room)
      (fun read => read.bare = (Stmt.attempt token body handler? finalizer?).bare) following := by
  cases wellFormed with
  | attempt isKeyword bodyFormed areNames handlersFormed finalizersFormed hasClause =>
      simp only [Stmt.printed, List.cons_append, List.append_assoc] at shows
      rw [Stmt.levels, Nat.max_le, Nat.max_le]
      have proceedsHandler := (proceeds_handler proceeds).after? (.keyword .catchKw)
      have proceedsFinalizer := proceeds.block.after? (.keyword .finallyKw)
      refine ReadsAs.first (readsAs_take shows) (fun _ => proceeds.block.bind fun _ =>
        proceedsHandler.bind fun _ => proceedsFinalizer.bind fun _ =>
          .ite (proceeds_throw _) (proceeds_pure _)) ?_
      intro keyword after isShown showsBody
      refine ReadsAs.bind (reads.block depth body .space after _ bodyFormed showsBody) (fun _ =>
        proceedsHandler.bind fun _ => proceedsFinalizer.bind fun _ =>
          .ite (proceeds_throw _) (proceeds_pure _)) ?_
      intro readBody afterBody sameBody showsHandler
      refine ReadsAs.bind (readsAs_handler? proceeds reads areNames handlersFormed showsHandler ?_)
        (fun _ => proceedsFinalizer.bind fun _ => .ite (proceeds_throw _) (proceeds_pure _)) ?_
      · intro showsFinalizer
        cases finalizer? with
        | none => exact kind_ne_of_ends rfl showsFinalizer ends
        | some block =>
            rw [showsFinalizer.kind]
            decide
      intro readHandler? afterHandler sameHandler showsFinalizer
      refine ReadsAs.last (readsAs_finalizer? reads finalizersFormed showsFinalizer ends)
        (fun _ => .ite (proceeds_throw _) (proceeds_pure _)) ?_
      intro readFinalizer? _ sameFinalizer showsFollowing
      have sameClauses : (readHandler?.isNone && readFinalizer?.isNone) = false := by
        have handlers := congrArg Option.isNone sameHandler
        have finalizers := congrArg Option.isNone sameFinalizer
        simp only [Option.isNone_map] at handlers finalizers
        rw [handlers, finalizers, hasClause]
      rw [if_neg (by simp [sameClauses])]
      refine readsAs_pure ?_ showsFollowing
      have bareOf (token : Token) (body : Block) (handler? : Option (Token × Block))
          (finalizer? : Option Block) : (Stmt.attempt token body handler? finalizer?).bare =
            .attempt token.bare body.bare (handler?.map bareHandler) (finalizer?.map Block.bare) := by
        cases handler? <;> cases finalizer? <;> rfl
      rw [bareOf, bareOf, isKeyword.bare_eq rfl isShown.1 isShown.2, sameBody, sameHandler,
        sameFinalizer]

theorem readsAs_configKey {value : String} {gap : Gap} (isName : IsMemberName value)
    (shows : state.Shows (word gap value :: following)) :
    configKey.ReadsAs state True (fun read => read = value) following := by
  obtain ⟨kind, names, allows⟩ := isName
  have kind_eq : state.kind = kind := shows.kind.trans (wordKind_of_allows names allows)
  exact readsAs_of_ok (configKey_ok_iff.2 ⟨by rwa [kind_eq], rfl, rfl⟩) shows.value shows.advance

/-- No name that may stand as a key has the kind of a bracket or a comma. -/
theorem wordKind_of_isMemberName {value : String} (isName : IsMemberName value) :
    (wordKind value.toList).power = .default ∧ wordKind value.toList ≠ .closeCurly ∧
      wordKind value.toList ≠ .comma := by
  obtain ⟨kind, names, allows⟩ := isName
  rw [wordKind_of_allows names allows]
  cases kind with
  | identifier => exact ⟨rfl, by simp, by simp⟩
  | keyword word => exact ⟨rfl, by simp, by simp⟩
  | _ => cases names

include proceeds reads in
theorem readsAs_configBody {entries : List (String × Expr)} {depth : Nat}
    (distinct : (Entries.keys entries).Nodup) (areNames : ∀ entry ∈ entries, IsMemberName entry.1)
    (wellFormed : ∀ entry ∈ entries, entry.2.WellFormed)
    (shows : state.Shows
      (bracedLines depth .space (entries.map configEntryPrinted) ++ following)) :
    (configBody inner).ReadsAs state (levelsOfEntries 1 entries ≤ room)
      (fun read => mapTokensOfEntries Token.bare read = mapTokensOfEntries Token.bare entries)
      following := by
  rw [bracedLines_append] at shows
  have proceedsEntry := proceeds_keyed proceeds proceeds_configKey
  have starts : ∀ entry ∈ entries, ∀ gap, ∃ first rest, configEntryPrinted entry gap =
      first :: rest ∧ first.gap = gap ∧ first.kind ≠ .closeCurly ∧ first.kind ≠ .comma := by
    intro entry member gap
    exact ⟨_, _, rfl, rfl, (wordKind_of_isMemberName (areNames entry member)).2⟩
  refine ReadsAs.first (readsAs_expect shows rfl)
    (fun _ => (proceedsEntry.listOf _).bind fun _ => proceeds_pure _) ?_
  intro _ after _ showsEntries
  have list : (listOf configListing (keyed inner configKey)).ReadsAs after
      (levelsOfEntries 1 entries ≤ room)
      (fun pairs => pairs.map bareEntry = entries.map bareEntry) following := by
    rw [levelsOfEntries_le_iff]
    refine readsAs_listOf proceedsEntry (consumes_keyed proceeds proceeds_configKey) rfl
      (layout_bracedLines rfl rfl (by decide) starts) ?_ _ showsEntries
    intro entry member gap rest state within showsEntry
    refine readsAs_keyed proceeds reads (wellFormed entry member)
      (readsAs_configKey (areNames entry member) showsEntry) ?_
    cases rest with
    | nil => exact stops_cons rfl
    | cons next others =>
        exact stops_cons (wordKind_of_isMemberName (areNames next (within next List.mem_cons_self))).1
  refine ReadsAs.last list (fun _ => proceeds_pure _) ?_
  intro pairs _ same showsFollowing
  exact readsAs_pure (bare_ofPairs distinct same) showsFollowing

include proceeds reads in
theorem readsAs_configDeclaration {kind : ConfigKind} {token name : Token}
    {entries : List (String × Expr)} {depth : Nat} {gap : Gap}
    (wellFormed : (Stmt.config kind token name entries).WellFormed)
    (shows : state.Shows ((Stmt.config kind token name entries).printed depth gap ++ following)) :
    (configDeclaration inner).ReadsAs state
      ((Stmt.config kind token name entries).levels 1 ≤ room)
      (fun read => read.bare = (Stmt.config kind token name entries).bare) following := by
  cases wellFormed with
  | config isConfig spelled kind_eq isName distinct areNames valuesFormed =>
      simp only [Stmt.printed, List.cons_append] at shows
      refine ReadsAs.first (readsAs_take shows) (fun _ => (proceeds_expectAs _ _).bind fun _ =>
        (proceeds_configBody proceeds).bind fun _ => proceeds_pure _) ?_
      intro keyword after isShown showsName
      refine ReadsAs.first (readsAs_expectAs _ showsName rfl) (fun _ =>
        (proceeds_configBody proceeds).bind fun _ => proceeds_pure _) ?_
      intro readName afterName isNameShown showsBody
      refine ReadsAs.last (readsAs_configBody proceeds reads distinct areNames valuesFormed showsBody)
        (fun _ => proceeds_pure _) ?_
      intro read _ same showsFollowing
      refine readsAs_pure ?_ showsFollowing
      have sameKind : keyword.kind = token.kind := isShown.1
      have sameKeyword : keyword.bare = token.bare := Token.bare_eq_bare sameKind isShown.2
      change Stmt.config (configKind keyword.kind) keyword.bare readName.bare
          (mapTokensOfEntries Token.bare read) =
        .config kind token.bare name.bare (mapTokensOfEntries Token.bare entries)
      rw [sameKeyword, sameKind, kind_eq, isName.bare_eq_of_value isNameShown.1 isNameShown.2, same]

/-- The parameters of a tool, up to the parenthesis after them. -/
theorem readsAs_parameters {parameters : List Parameter}
    (wellFormed : ∀ parameter ∈ parameters, parameter.WellFormed)
    (shows : state.Shows (separated .none (parameters.map Parameter.printed) ++
      closeParen :: following)) :
    (listOf parameterListing Production.parameter).ReadsAs state True
      (fun read => read.map (Parameter.mapTokens Token.bare) =
        parameters.map (Parameter.mapTokens Token.bare)) following := by
  rw [separated_append] at shows
  refine ReadsAs.of_iff (readsAs_listOf proceeds_parameter consumes_parameter rfl
    (layout_separated rfl (by decide) fun parameter _ gap => ⟨_, _, rfl, by simp [Printed.name,
      parameterListing]⟩) ?_ .none shows) (iff_of_true (fun _ _ => trivial) trivial)
  intro parameter member gap rest state _ showsParameter
  refine readsAs_parameter (wellFormed parameter member) showsParameter ?_
  cases rest <;> simp [afterItem, closeParen]

include proceeds reads in
theorem readsAs_toolDeclaration {token name : Token} {parameters : List Parameter}
    {returnType? : Option TypeExpr} {body : Block} {depth : Nat} {gap : Gap}
    (wellFormed : (Stmt.tool token name parameters returnType? body).WellFormed)
    (shows : state.Shows
      ((Stmt.tool token name parameters returnType? body).printed depth gap ++ following)) :
    (toolDeclaration inner).ReadsAs state
      ((Stmt.tool token name parameters returnType? body).levels 1 ≤ room)
      (fun read => read.bare = (Stmt.tool token name parameters returnType? body).bare)
      following := by
  cases wellFormed with
  | tool isKeyword isName parametersFormed typeFormed bodyFormed =>
      simp only [Stmt.printed, List.cons_append, List.append_assoc] at shows
      have proceedsList := proceeds_parameter.listOf parameterListing
      refine ReadsAs.first (readsAs_take shows) (fun _ => (proceeds_expectAs _ _).bind fun _ =>
        (proceeds_expect _).bind fun _ => proceedsList.bind fun _ =>
          proceeds_declaredType?.bind fun _ => proceeds.block.bind fun _ => proceeds_pure _) ?_
      intro keyword after isShown showsName
      refine ReadsAs.first (readsAs_expectAs _ showsName rfl) (fun _ =>
        (proceeds_expect _).bind fun _ => proceedsList.bind fun _ =>
          proceeds_declaredType?.bind fun _ => proceeds.block.bind fun _ => proceeds_pure _) ?_
      intro readName afterName isNameShown showsParen
      refine ReadsAs.first (readsAs_expect showsParen rfl) (fun _ => proceedsList.bind fun _ =>
          proceeds_declaredType?.bind fun _ => proceeds.block.bind fun _ => proceeds_pure _) ?_
      intro _ afterParen _ showsParameters
      refine ReadsAs.first (readsAs_parameters parametersFormed showsParameters) (fun _ =>
        proceeds_declaredType?.bind fun _ => proceeds.block.bind fun _ => proceeds_pure _) ?_
      intro readParameters afterParameters sameParameters showsType
      refine ReadsAs.first (readsAs_declaredType? typeFormed showsType ?_)
        (fun _ => proceeds.block.bind fun _ => proceeds_pure _) ?_
      · obtain ⟨brace, statements⟩ := body
        rintro _ ⟨⟩
        simp
      rintro _ afterType rfl showsBody
      refine ReadsAs.last (reads.block depth body .space afterType following bodyFormed showsBody)
        (fun _ => proceeds_pure _) ?_
      intro readBody _ sameBody showsFollowing
      refine readsAs_pure ?_ showsFollowing
      change Stmt.tool keyword.bare readName.bare
          (readParameters.map (Parameter.mapTokens Token.bare)) _ readBody.bare =
        .tool token.bare name.bare (parameters.map (Parameter.mapTokens Token.bare)) _ body.bare
      rw [isKeyword.bare_eq rfl isShown.1 isShown.2,
        isName.bare_eq_of_value isNameShown.1 isNameShown.2, sameParameters, sameBody]

theorem readsAs_importDeclaration {token : Token} {names : List Token} {source : String}
    {inBraces : Bool} {depth : Nat} {gap : Gap}
    (wellFormed : (Stmt.importNames token names source inBraces).WellFormed)
    (shows : state.Shows
      ((Stmt.importNames token names source inBraces).printed depth gap ++ following)) :
    importDeclaration.ReadsAs state True
      (fun read => read.bare = (Stmt.importNames token names source inBraces).bare) following := by
  cases wellFormed with
  | importNames isKeyword some? areNames single =>
      simp only [Stmt.printed, List.cons_append, List.append_assoc, List.nil_append] at shows
      refine ReadsAs.first (readsAs_take shows) (fun _ => proceeds_importedNames.bind fun _ =>
        (proceeds_expect _).bind fun _ => (proceeds_expectAs _ _).bind fun _ => proceeds_pure _) ?_
      intro keyword after isShown showsNames
      refine ReadsAs.first (readsAs_importedNames some? areNames single showsNames) (fun _ =>
        (proceeds_expect _).bind fun _ => (proceeds_expectAs _ _).bind fun _ => proceeds_pure _) ?_
      rintro ⟨readNames, _⟩ afterNames ⟨same, rfl⟩ showsFrom
      refine ReadsAs.first (readsAs_expect showsFrom rfl)
        (fun _ => (proceeds_expectAs _ _).bind fun _ => proceeds_pure _) ?_
      intro _ afterFrom _ showsSource
      refine ReadsAs.first (readsAs_expectAs _ showsSource rfl) (fun _ => proceeds_pure _) ?_
      intro readSource _ isSource showsFollowing
      refine readsAs_pure ?_ showsFollowing
      change Stmt.importNames keyword.bare (readNames.map Token.bare) readSource.value _ =
        .importNames token.bare (names.map Token.bare) source _
      rw [isKeyword.bare_eq rfl isShown.1 isShown.2, same, isSource.2]

/-- Whether a statement may be exported does not depend on its tokens. -/
theorem isExportable_bare (statement : Stmt) :
    statement.bare.isExportable = statement.isExportable := by
  cases statement with
  | conditional _ _ _ alternative? => cases alternative? <;> rfl
  | _ => rfl

include proceeds reads in
theorem readsAs_exportDeclaration {token : Token} {statement : Stmt} {depth : Nat} {gap : Gap}
    (wellFormed : (Stmt.exported token statement).WellFormed)
    (shows : state.Shows ((Stmt.exported token statement).printed depth gap ++ following))
    (ends : Ends following) :
    (exportDeclaration inner).ReadsAs state ((Stmt.exported token statement).levels 1 ≤ room)
      (fun read => read.bare = (Stmt.exported token statement).bare) following := by
  cases wellFormed with
  | exported isKeyword exportable statementFormed =>
      simp only [Stmt.printed, List.cons_append] at shows
      have noBlock : statement.isBlock = false := by
        cases statement <;> first | rfl | cases exportable
      refine ReadsAs.first (readsAs_take shows) (fun _ => proceeds_get.bind fun _ =>
        proceeds.statement.bind fun _ => .ite (proceeds_pure _) (proceeds_throw _)) ?_
      intro keyword after isShown showsStatement
      have whole : (inner.statement >>= fun read => if read.isExportable then
            (pure (.exported keyword read) : Production Stmt)
          else throw ⟨.invalidExport after.current.describe, after.current.position⟩).ReadsAs after
          (statement.levels 1 + 1 ≤ room)
          (fun read => read.bare = (Stmt.exported token statement).bare) following := by
        refine ReadsAs.last (reads.statement depth statement .space after following statementFormed
          noBlock showsStatement ends) (fun _ => .ite (proceeds_pure _) (proceeds_throw _)) ?_
        intro read _ same showsFollowing
        rw [if_pos (by rw [← isExportable_bare, same, isExportable_bare, exportable])]
        refine readsAs_pure ?_ showsFollowing
        change Stmt.exported keyword.bare read.bare = .exported token.bare statement.bare
        rw [isKeyword.bare_eq rfl isShown.1 isShown.2, same]
      exact whole.congr rfl

include proceeds reads in
theorem readsAs_assignment {token : Token} {type? : Option TypeExpr} {value : Expr} {depth : Nat}
    {gap : Gap} (wellFormed : (Stmt.assignment token type? value).WellFormed)
    (shows : state.Shows ((Stmt.assignment token type? value).printed depth gap ++ following))
    (ends : Ends following) :
    (assignment inner).ReadsAs state ((Stmt.assignment token type? value).levels 1 ≤ room)
      (fun read => read.bare = (Stmt.assignment token type? value).bare) following := by
  cases wellFormed with
  | assignment isName typeFormed valueFormed =>
      simp only [Stmt.printed, List.cons_append, List.append_assoc] at shows
      refine ReadsAs.first (readsAs_expectAs _ shows rfl) (fun _ => proceeds_declaredType?.bind
        fun _ => (proceeds_expect _).bind fun _ => (proceeds.expression _).bind fun _ =>
          proceeds_pure _) ?_
      intro readName afterName isShown showsType
      refine ReadsAs.first (readsAs_declaredType? typeFormed showsType (by rintro _ ⟨⟩; simp))
        (fun _ => (proceeds_expect _).bind fun _ => (proceeds.expression _).bind fun _ =>
          proceeds_pure _) ?_
      rintro _ afterType rfl showsSign
      refine ReadsAs.first (readsAs_expect showsSign rfl)
        (fun _ => (proceeds.expression _).bind fun _ => proceeds_pure _) ?_
      intro _ afterSign _ showsValue
      refine ReadsAs.last (reads.expression .default value .space afterSign following (by decide)
        valueFormed showsValue ends.stops) (fun _ => proceeds_pure _) ?_
      intro read _ same showsFollowing
      refine readsAs_pure ?_ showsFollowing
      change Stmt.assignment readName.bare _ read.bare = .assignment token.bare _ value.bare
      rw [isName.bare_eq_of_value isShown.1 isShown.2, same]

/-- A name that starts a printed expression is not followed by a sign that follows a name only in an
assignment, unless such a sign follows the expression. -/
theorem no_assignment_ahead {expr : Expr} (wellFormed : expr.WellFormed) {gap : Gap}
    {first : Printed} {rest : List Printed} (printed : expr.printed gap ++ following = first :: rest)
    (isName : first.kind = .identifier)
    (noSign : ∀ next ∈ following.head?, next.kind ≠ .assign ∧ next.kind ≠ .colon) :
    ∀ next ∈ rest.head?, next.kind ≠ .assign ∧ next.kind ≠ .colon := by
  induction wellFormed generalizing following rest with
  | identifier | number | string | template | boolean | null =>
      cases printed
      exact noSign
  | binary | unary | pipe | index | array | object =>
      cases printed
      cases isName
  | call _ _ _ functionFirst =>
      rw [Expr.printed, List.append_assoc, List.append_assoc] at printed
      refine functionFirst printed ?_
      rintro _ ⟨⟩
      decide
  | member _ _ _ _ objectFirst =>
      rw [Expr.printed, List.append_assoc] at printed
      refine objectFirst printed ?_
      rintro _ ⟨⟩
      simp

include reads in
theorem readsAs_expressionStatement {token : Token} {value : Expr} {depth : Nat} {gap : Gap}
    (wellFormed : value.WellFormed)
    (shows : state.Shows ((Stmt.expression token value).printed depth gap ++ following))
    (ends : Ends following) :
    (expressionStatement inner).ReadsAs state ((Stmt.expression token value).levels 1 ≤ room)
      (fun read => read.bare = (Stmt.expression token value).bare) following := by
  simp only [Stmt.printed] at shows
  have whole : (inner.expression .default >>= fun read =>
      (pure (.expression state.current read) : Production Stmt)).ReadsAs state
      (value.levels 1 ≤ room)
      (fun read => read.bare = (Stmt.expression token value).bare) following := by
    refine ReadsAs.last (reads.expression .default value gap state following (by decide) wellFormed
      shows ends.stops) (fun _ => proceeds_pure _) ?_
    intro read _ same showsFollowing
    refine readsAs_pure ?_ showsFollowing
    change Stmt.expression .absent read.bare = .expression .absent value.bare
    rw [same]
  exact whole.congr rfl

/-! ## Statements and blocks -/

/-- A statement that starts with a keyword is read as its form is. -/
theorem readsAs_of_statementForm? {form : StatementForm} {good : Stmt → Prop} {first : Printed}
    {rest : List Printed} (shows : state.Shows (first :: rest))
    (starts : first.kind.statementForm? = some form)
    (whole : (statementOf inner form).ReadsAs state fits good following) :
    (Production.statement inner).ReadsAs state fits good following := by
  refine whole.congr ?_
  rw [statement_run, shows.kind, starts]

theorem statement_run_of_assignment {token : Token} {type? : Option TypeExpr} {value : Expr}
    {depth : Nat} {gap : Gap}
    (shows : state.Shows ((Stmt.assignment token type? value).printed depth gap ++ following)) :
    Production.statement inner state = assignment inner state := by
  simp only [Stmt.printed, List.cons_append, List.append_assoc] at shows
  have identifier : state.kind = .identifier := shows.kind
  have second : state.peek.kind = .assign ∨ state.peek.kind = .colon := by
    rw [shows.peek_kind]
    cases type? with
    | none => exact .inl shows.advance.kind
    | some type => exact .inr shows.advance.kind
  have starts : startsAssignment state = true := by
    simpa [startsAssignment, identifier] using second
  rw [statement_run, identifier]
  exact if_pos starts

theorem statement_run_of_expression {token : Token} {value : Expr} {depth : Nat} {gap : Gap}
    (wellFormed : value.WellFormed)
    (shows : state.Shows ((Stmt.expression token value).printed depth gap ++ following))
    (ends : Ends following) :
    Production.statement inner state = expressionStatement inner state := by
  simp only [Stmt.printed] at shows
  obtain ⟨kind, text, rest, printed, _, operand, _⟩ := wellFormed.exists_first gap
  have ahead : value.printed gap ++ following = ⟨gap, kind, text⟩ :: (rest ++ following) := by
    rw [printed, List.cons_append]
  rw [ahead] at shows
  have kind_eq : state.kind = kind := shows.kind
  have noKeyword : kind.statementForm? = none := by
    cases kind <;> first | rfl | cases operand
  have noAssignment : startsAssignment state = false := by
    by_cases identifier : kind = .identifier
    · have noSign := no_assignment_ahead wellFormed ahead identifier fun next isNext =>
        Kind.noSign_of_not_continuesStatement (ends next isNext).2
      have second : state.peek.kind ≠ .assign ∧ state.peek.kind ≠ .colon := by
        have showsRest := shows.advance
        rw [shows.peek_kind]
        cases tokens : rest ++ following with
        | nil =>
            rw [tokens] at showsRest
            simp [showsRest.kind_of_nil]
        | cons next more =>
            rw [tokens] at showsRest noSign
            rw [showsRest.kind]
            exact noSign next rfl
      simp [startsAssignment, second]
    · simp [startsAssignment, kind_eq, identifier]
  rw [statement_run, kind_eq, noKeyword]
  exact if_neg (by simp [noAssignment])

/-- A statement of one keyword. -/
theorem readsAs_keyword (build : Token → Stmt)
    (builds : ∀ token, (build token).bare = build token.bare) {token : Token} {word : Keyword}
    (isKeyword : token.Is (.keyword word)) {gap : Gap}
    (shows : state.Shows (keyword gap word :: following)) :
    (take >>= fun token => (pure (build token) : Production Stmt)).ReadsAs state True
      (fun read => read.bare = (build token).bare) following := by
  refine ReadsAs.first (readsAs_take shows) (fun _ => proceeds_pure _) ?_
  intro read _ isShown showsFollowing
  refine readsAs_pure ?_ showsFollowing
  rw [builds, builds, isKeyword.bare_eq rfl isShown.1 isShown.2]

include proceeds reads in
/-- What is printed for a statement is read as this statement. -/
theorem readsAs_statement {statement : Stmt} (wellFormed : statement.WellFormed)
    (noBlock : statement.isBlock = false) {depth : Nat} {gap : Gap}
    (shows : state.Shows (statement.printed depth gap ++ following)) (ends : Ends following) :
    (Production.statement inner).ReadsAs state (statement.levels 1 ≤ room)
      (fun read => read.bare = statement.bare) following := by
  have formed := wellFormed
  have fitsNone : True ↔ 0 ≤ room := iff_of_true trivial (Nat.zero_le room)
  cases wellFormed with
  | assignment isName =>
      refine (readsAs_assignment proceeds reads formed shows ends).congr ?_
      exact statement_run_of_assignment shows
  | expression valueFormed =>
      refine (readsAs_expressionStatement reads valueFormed shows ends).congr ?_
      exact statement_run_of_expression valueFormed shows ends
  | block => cases noBlock
  | @conditional _ _ _ alternative? =>
      have whole := reads.conditional depth _ gap state following formed rfl shows ends
      cases alternative? <;> exact readsAs_of_statementForm? shows rfl whole
  | whileLoop isKeyword valueFormed bodyFormed =>
      exact readsAs_of_statementForm? shows rfl
        (readsAs_whileLoop proceeds reads isKeyword valueFormed bodyFormed shows)
  | forOf isKeyword isName iterableFormed bodyFormed =>
      exact readsAs_of_statementForm? shows rfl
        (readsAs_forOf proceeds reads isKeyword isName iterableFormed bodyFormed shows)
  | breakLoop isKeyword =>
      have whole := readsAs_keyword Stmt.breakLoop (fun _ => rfl) isKeyword shows
      exact readsAs_of_statementForm? shows rfl (whole.of_iff fitsNone)
  | continueLoop isKeyword =>
      have whole := readsAs_keyword Stmt.continueLoop (fun _ => rfl) isKeyword shows
      exact readsAs_of_statementForm? shows rfl (whole.of_iff fitsNone)
  | @returnValue _ value? isKeyword valueFormed =>
      have whole := readsAs_returnValue reads isKeyword valueFormed shows ends
      cases value? <;> exact readsAs_of_statementForm? shows rfl whole
  | throwValue isKeyword valueFormed =>
      exact readsAs_of_statementForm? shows rfl
        (readsAs_throwValue reads isKeyword valueFormed shows ends)
  | attempt =>
      exact readsAs_of_statementForm? shows rfl (readsAs_attempt proceeds reads formed shows ends)
  | config isConfig =>
      exact readsAs_of_statementForm? shows isConfig
        (readsAs_configDeclaration proceeds reads formed shows)
  | tool =>
      exact readsAs_of_statementForm? shows rfl (readsAs_toolDeclaration proceeds reads formed shows)
  | importNames =>
      exact readsAs_of_statementForm? shows rfl
        ((readsAs_importDeclaration formed shows).of_iff fitsNone)
  | exported =>
      exact readsAs_of_statementForm? shows rfl
        (readsAs_exportDeclaration proceeds reads formed shows ends)

include proceeds reads in
/-- What is printed for a block is read as this block. -/
theorem readsAs_blockAt (consumes : LevelConsumes inner) {block : Block} {depth : Nat} {gap : Gap}
    (wellFormed : (Stmt.block block).WellFormed)
    (shows : state.Shows (block.printed depth gap ++ following)) :
    (blockAt inner).ReadsAs state (block.levels 1 ≤ room + 1) (fun read => read.bare = block.bare)
      following := by
  cases wellFormed with
  | @block brace list isBrace formed noBlock =>
      rw [Block.printed, stmtsPrinted_eq_map, bracedLines_append] at shows
      rw [Block.levels, Nat.succ_le_succ_iff, levelsOfStmts_le_iff]
      have proceedsList : (statements true (Production.statement inner)).Proceeds := fun state =>
        State.Reaches.statementsWithin (proceeds_statement proceeds) true state.upcoming state
      refine ReadsAs.first (readsAs_expect shows rfl)
        (fun _ => proceedsList.bind fun _ => (proceeds_expect _).bind fun _ => proceeds_pure _) ?_
      intro token after isShown showsList
      have whole : (statements true (Production.statement inner)).ReadsAs after
          (∀ statement ∈ list, statement.levels 1 ≤ room)
          (fun read => read.map Stmt.bare = list.map Stmt.bare)
          (closingLine depth list :: following) := by
        have closes : ∀ state : State, state.Shows (closingLine depth list :: following) →
            endsStatements true state.kind = true := by
          intro state shows
          rw [shows.kind]
          rfl
        have ends : list ≠ [] → Ends (closingLine depth list :: following) := by
          rintro some? _ ⟨⟩
          simp only [closingLine, List.isEmpty_iff, some?, ↓reduceIte]
          exact ⟨rfl, rfl⟩
        obtain ⟨fits, read, final, run, same, showsClosing⟩ | tooMuch :=
          statementsWithin_readsAs (proceeds_statement proceeds)
            (consumes_statement proceeds consumes)
            (fun statement member => (formed statement member).exists_first
              (noBlock statement member) (depth + 1))
            (fun statement member gap state following => readsAs_statement proceeds reads
              (formed statement member) (noBlock statement member))
            closes ends _ after.upcoming (Nat.le_refl _) showsList
        · refine .inl ⟨fits, read, final, ?_, same, showsClosing⟩
          change EStateM.Result.ok (statementsWithin _ _ _ _).1 (statementsWithin _ _ _ _).2 = _
          rw [run]
        · exact .inr tooMuch
      refine ReadsAs.last whole (fun _ => (proceeds_expect _).bind fun _ => proceeds_pure _) ?_
      intro read before same showsClosing
      refine ReadsAs.first (readsAs_expect showsClosing rfl) (fun _ => proceeds_pure _) ?_
      intro _ _ _ showsFollowing
      refine readsAs_pure ?_ showsFollowing
      simp only [Block.bare, Block.mapTokens, mapTokensOfStmts_eq_map,
        isBrace.bare_eq rfl isShown.1 isShown.2]
      exact congrArg _ same

end

/-- At every level of nesting, what is printed for a tree is read as this tree. -/
theorem levelReads_withRoom (room : Nat) : LevelReads (Level.withRoom room) room := by
  induction room with
  | zero =>
      refine ⟨fun _ expr _ _ _ _ _ _ _ => readsAs_tooDeep (Nat.not_le.2 (expr.levels_pos 1)),
        fun expr inside _ _ _ parenthesized _ _ => readsAs_tooDeep (Nat.not_le.2 ?_),
        fun _ block _ _ _ _ _ => readsAs_tooDeep (Nat.not_le.2 (block.levels_pos 1)),
        fun _ statement _ _ _ _ isConditional _ _ => readsAs_tooDeep (Nat.not_le.2 ?_),
        fun _ _ _ _ _ _ _ _ _ => readsAs_tooDeep (Nat.not_succ_le_zero _)⟩
      · exact Expr.one_lt_levels_of_inside? parenthesized
      · exact Stmt.levels_pos_of_isConditional isConditional
  | succ room inductionHypothesis =>
      have proceeds := levelProceeds_withRoom room
      have consumes := levelConsumes_withRoom room
      constructor
      · intro power expr gap state following loose wellFormed shows stops
        exact (readsAs_expressionAt proceeds consumes inductionHypothesis loose wellFormed
          (shows.deeper _) stops).deeper
      · intro expr inside state following wellFormed parenthesized shows stops
        exact (readsAs_expressionAt_inside proceeds consumes inductionHypothesis wellFormed
          parenthesized (shows.deeper _) stops).deeper
      · intro depth block gap state following wellFormed shows
        exact (readsAs_blockAt proceeds inductionHypothesis consumes wellFormed
          (shows.deeper _)).deeper
      · intro depth statement gap state following wellFormed isConditional shows ends
        cases statement with
        | conditional =>
            exact (readsAs_conditionalAt proceeds inductionHypothesis wellFormed (shows.deeper _)
              ends).deeper
        | _ => cases isConditional
      · intro depth statement gap state following wellFormed noBlock shows ends
        exact ((readsAs_statement proceeds inductionHypothesis wellFormed noBlock (shows.deeper _)
          ends).of_iff Nat.succ_le_succ_iff.symm).deeper

end Production

end AgentScript
