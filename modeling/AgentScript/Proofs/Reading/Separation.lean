import AgentScript.Proofs.Reading.Concatenation
import AgentScript.Proofs.Reading.FirstToken
import AgentScript.Proofs.Reading.Lines

/-!
Contract: the reading of two scripts with a wrong separator between them.

Owns:
- what stands from a place on as the sequel of the script that ends there;
- the second script as it is read in the middle of a line, with a diagnostic recorded before it;
- the program and the one diagnostic of both together, with a semicolon or with a space between them.
-/

set_option autoImplicit false

namespace AgentScript

/-! ## The sequel -/

/-- What a text holds from a place on, after a script that ends on the given line. -/
def Sequel.ofCursor (cursor : Cursor) (line : Nat)
    (starts : cursor.next.1.token.kind.continuesStatement = false)
    (unbound : cursor.next.1.token.kind.needsSameLine = true →
      line < cursor.next.1.token.position.line) : Sequel where
  tokens := cursor.scan.tokens
  ending := cursor.scan.ending
  line := line
  ending_kind := cursor.scan_ending.1
  kind_ne := cursor.scan_tokens_kind_ne
  wellSpelled := cursor.scan_wellSpelled
  starts := by rwa [headD_scan]
  unbound := by rwa [headD_scan]

/-- A script that ends with its last token, and what is scanned from the character after it. -/
theorem ofSource_severed {first whole : String} {separator : Char} {rest : List Char}
    {sequel : Sequel} (severs : Severs separator) (ends : EndsWithToken first)
    (text : whole.toList = first.toList ++ separator :: rest)
    (holds : ⟨sequel.tokens, sequel.ending⟩ =
      Cursor.scan ⟨placeAfter first.toList, separator :: rest⟩)
    (complete : ∀ lexed ∈ (Cursor.ofSource first).scan.tokens, lexed.fault? = none) :
    State.ofSource whole = (State.ofSource first).extended sequel := by
  rw [State.ofSource, Cursor.scan_severed severs ends text complete, ← holds]
  exact State.ofScan_append complete sequel

/-- Past the first script there is the sequel, and nothing is recorded. -/
theorem State.extended_of_nil {sequel : Sequel} {final : State} (ended : final.upcoming = [])
    (complete : ∀ lexed ∈ sequel.tokens, lexed.fault? = none) :
    (final.extended sequel).upcoming = sequel.tokens ∧
      (final.extended sequel).sink = Sink.empty := by
  unfold State.extended
  rw [filterMap_fault?_take complete, ended]
  exact ⟨rfl, rfl⟩

/-! ## The second script -/

/-- As long as nothing is recorded, the image holds what it held at first. -/
def Recording.keeping (move : Position → Position) (recorded : Sink) : Recording move where
  Related sink image := sink = Sink.empty → image = recorded
  push {sink _} diagnostic _ clean := absurd clean (Sink.push_ne_empty sink diagnostic)

/-- A state after a text, on the line that the text ends on, with the tokens of a script ahead. -/
structure State.Resumes (before : List Char) (source : String) (state : State) : Prop where
  upcoming : state.upcoming = (Cursor.scan ⟨placeAfter before, source.toList⟩).tokens
  ending : state.ending = (Cursor.scan ⟨placeAfter before, source.toList⟩).ending
  line : state.lastLine = (placeAfter before).line
  closed : state.openBrackets = []
  nesting : state.nesting = 0

/-- Such a state is an image of the start of the script, if that is not on a new line. -/
theorem State.Resumes.mirrored {before : List Char} {source : String} {state : State}
    (resumes : state.Resumes before source) :
    ((State.ofSource source).onLine 1).Mirrored
      (.keeping (Position.startingAt (placeAfter before)) state.sink) state where
  ahead := by
    have positive : 0 < (placeAfter before).line := by
      simp only [placeAfter]
      omega
    rw [resumes.upcoming, resumes.ending, resumes.line, Cursor.scan_placeAfter]
    refine (Position.shifts_startingAt (placeAfter before)).parallel ?_
    change _ ↔ 1 < _
    omega
  openBrackets := resumes.closed
  nesting := resumes.nesting
  sink := fun _ => rfl

section

variable {second : String} (clean : (parse second).2.entries = [])
include clean

/-- The tokens of a script without diagnostics have no faults after another text either. -/
theorem fault?_eq_none_after (before : List Char) :
    ∀ lexed ∈ (Cursor.scan ⟨placeAfter before, second.toList⟩).tokens, lexed.fault? = none := by
  rw [Cursor.scan_placeAfter]
  intro lexed member
  obtain ⟨token, inScan, rfl⟩ := List.mem_map.1 member
  simp [Lexed.shifted, fault?_eq_none_of_clean clean token inScan]

variable (nonempty : (parse second).1.statements ≠ [])
include nonempty

/-- The first statement of a script without diagnostics. -/
theorem exists_first_statement :
    ∃ statement after, Production.endsStatements false (State.ofSource second).kind = false ∧
      (State.ofSource second).kind ≠ .semicolon ∧
      Production.statement (Level.withRoom maxNesting) (State.ofSource second) =
        .ok statement after := by
  obtain ⟨final, succession, _⟩ := parse_succession clean
  generalize (parse second).1.statements = list at succession nonempty
  cases succession with
  | nil => exact absurd rfl nonempty
  | cons goesOn noSemicolon read => exact ⟨_, _, goesOn, noSemicolon, read⟩

/-- A script is read the same in the middle of a line, and what was recorded before it stays. -/
theorem State.Resumes.run {before : List Char} {state : State}
    (resumes : state.Resumes before second) :
    (Production.statementsWithin false (Production.statement (Level.withRoom maxNesting))
        state.upcoming state).1 =
        ((parse second).1.moved (Position.startingAt (placeAfter before))).statements ∧
      (Production.statementsWithin false (Production.statement (Level.withRoom maxNesting))
        state.upcoming state).2.sink = state.sink := by
  obtain ⟨statement, after, goesOn, noSemicolon, read⟩ := exists_first_statement clean nonempty
  have token := Production.token_of_not_endsStatements goesOn
  obtain ⟨lexed, ahead, _⟩ := (State.scanned_ofSource second).exists_current token
  -- alone, the script starts on a new line; its first statement does not ask for that
  have sameRun := Production.statementsWithin_onLine
    (Production.ignoresLine_statement_withRoom maxNesting) goesOn noSemicolon (by simp [ahead]) read 1
    lexed (State.ofSource second).advance.upcoming
  rw [← ahead] at sameRun
  have bound : ((State.ofSource second).onLine 1).upcoming = (State.ofSource second).upcoming := rfl
  obtain ⟨sameStatements, mirroredLast⟩ := Production.statementsWithin_mirrored
    (Production.mirrors_statement (Production.levelMirrors_withRoom maxNesting)) false
    resumes.mirrored.ahead.length_eq resumes.mirrored
  rw [bound, sameRun] at sameStatements mirroredLast
  constructor
  · simp only [sameStatements, Program.moved, mapTokensOfStmts_eq_map, parse_eq second]
  · exact mirroredLast.sink (congrArg Sink.mk clean)

end

/-! ## Both scripts -/

section

variable {first second whole : String} {separator : Char}

/-- The last token of a script that ends with it is passed on the line that the script ends on. -/
theorem EndsWithToken.lastLine_eq (ends : EndsWithToken first) {final : State}
    (course : (State.ofSource first).Reaches final) (ended : final.upcoming = [])
    (nonempty : (State.ofSource first).upcoming ≠ []) :
    final.lastLine = (placeAfter first.toList).line := by
  obtain ⟨passed, split, line⟩ := course.exists_passed
  rw [ended, List.append_nil] at split
  have onLine := (Cursor.ofSource first).foldl_endLine
  rw [ends.afterTokens] at onLine
  have tokens : (Cursor.ofSource first).scan.tokens = passed := split
  rw [tokens] at onLine
  -- the line before the first token does not matter, as there is a token
  cases passed with
  | nil => exact absurd split nonempty
  | cons => exact line.trans onLine

/-- A script that ends with its last token is read as if nothing followed it, on the line that it
ends on, and then what follows is read. -/
theorem exists_parse_severed {rest : List Char} (clean : (parse first).2.entries = [])
    (severs : Severs separator) (ends : EndsWithToken first)
    (text : whole.toList = first.toList ++ separator :: rest) {sequel : Sequel}
    (holds : ⟨sequel.tokens, sequel.ending⟩ =
      Cursor.scan ⟨placeAfter first.toList, separator :: rest⟩)
    (lines : sequel.line = linesOf first)
    (leaves : ∀ last ∈ (parse first).1.statements.getLast?, sequel.Leaves last) :
    ∃ final : State, final.Precedes sequel ∧ final.upcoming = [] ∧ final.openBrackets = [] ∧
      final.nesting = 0 ∧
      ((parse first).1.statements ≠ [] → final.lastLine = (placeAfter first.toList).line) ∧
      parse whole =
        let next := Production.separatedAfter false (parse first).1.statements (final.extended sequel)
        let onward := Production.statementsWithin false
          (Production.statement (Level.withRoom maxNesting)) next.upcoming next
        (⟨(parse first).1.statements ++ onward.1⟩, onward.2.sink) := by
  obtain ⟨final, course, precedes, ended, closed, run⟩ :=
    exists_run_before clean sequel lines leaves
  refine ⟨final, precedes, ended, closed, course.nesting_eq, fun nonempty => ?_, ?_⟩
  · refine ends.lastLine_eq course ended fun none => nonempty ?_
    rw [parse_eq first, none]
    rfl
  · rw [parse_eq whole, ofSource_severed severs ends text holds (fault?_eq_none_of_clean clean), run]

end

/-- Passing a token that is known. -/
theorem State.advance_of_cons {state : State} {lexed : Lexed} {rest : List Lexed}
    (ahead : state.upcoming = lexed :: rest) :
    state.advance =
      { state with
        upcoming := rest
        lastLine := lexed.endLine
        openBrackets := lexed.token.kind.bracketsAfter state.openBrackets
        sink := state.sink.pushOption (rest[1]?.bind Lexed.fault?) } := by
  unfold advance
  rw [ahead]

/-! ### A semicolon -/

/-- A semicolon after a script and another script after it. -/
def Sequel.afterSemicolon (first second : String) : Sequel :=
  .ofCursor ⟨placeAfter first.toList, ';' :: second.toList⟩ (linesOf first)
    (by rw [Cursor.next_semicolon]; rfl) (by rw [Cursor.next_semicolon]; exact nofun)

section

variable {first second : String}

theorem placeAfter_semicolon :
    placeAfter (first ++ ";").toList = (placeAfter first.toList).after ';' := by
  rw [String.toList_append]
  exact placeAfter_append_singleton first.toList ';'

/-- The semicolon is the first token of the sequel, and the second script follows. -/
theorem Sequel.scan_afterSemicolon :
    (⟨(afterSemicolon first second).tokens, (afterSemicolon first second).ending⟩ : Scan) =
      { tokens := ⟨⟨.semicolon, ";", placeAfter first.toList⟩, (placeAfter first.toList).line, none⟩ ::
          (Cursor.scan ⟨placeAfter (first ++ ";").toList, second.toList⟩).tokens
        ending := (Cursor.scan ⟨placeAfter (first ++ ";").toList, second.toList⟩).ending } := by
  rw [placeAfter_semicolon]
  exact Cursor.scan_semicolon (placeAfter first.toList) second.toList

theorem Sequel.endsStatements_afterSemicolon : (afterSemicolon first second).EndsStatements := by
  obtain ⟨tokens, _⟩ := Scan.mk.inj (@Sequel.scan_afterSemicolon first second)
  refine .inl ?_
  rw [Sequel.first, tokens]
  rfl

/-- The semicolon is reported and passed, and the second script is ahead. -/
theorem statementsWithin_afterSemicolon (first : String) (statement : Production Stmt)
    (clean : (parse second).2.entries = []) {final : State} (ended : final.upcoming = [])
    (closed : final.openBrackets = []) (nesting : final.nesting = 0) :
    ∃ state : State, state.Resumes (first ++ ";").toList second ∧
      state.sink = ⟨[⟨.semicolonSeparator, placeAfter first.toList⟩]⟩ ∧
      Production.statementsWithin false statement (final.extended (.afterSemicolon first second)).upcoming
          (final.extended (.afterSemicolon first second)) =
        Production.statementsWithin false statement state.upcoming state := by
  have complete := fault?_eq_none_after clean (first ++ ";").toList
  obtain ⟨tokens, ending⟩ := Scan.mk.inj (@Sequel.scan_afterSemicolon first second)
  obtain ⟨upcoming, empty⟩ := @State.extended_of_nil (.afterSemicolon first second) final ended (by
    rw [tokens]
    exact List.forall_mem_cons.2 ⟨rfl, complete⟩)
  rw [tokens] at upcoming
  generalize atEnd : final.extended (.afterSemicolon first second) = state at upcoming empty
  have current : state.current = ⟨.semicolon, ";", placeAfter first.toList⟩ := by
    rw [State.current, upcoming]
    rfl
  have kind : state.kind = .semicolon := by rw [State.kind, current]
  have fault : state.faultHere .semicolonSeparator =
      ⟨.semicolonSeparator, placeAfter first.toList⟩ := by rw [State.faultHere, current]
  have passed := @State.advance_of_cons (state.report (state.faultHere .semicolonSeparator)) _ _ upcoming
  refine ⟨(state.report (state.faultHere .semicolonSeparator)).advance, ?_, ?_, ?_⟩
  · rw [passed]
    subst atEnd
    exact {
      upcoming := rfl
      ending := ending
      line := by rw [placeAfter_semicolon]; rfl
      closed := congrArg (Kind.bracketsAfter .semicolon) closed
      nesting := nesting }
  · have noFault : (Cursor.scan ⟨placeAfter (first ++ ";").toList, second.toList⟩).tokens[1]?.bind
        Lexed.fault? = none :=
      Option.bind_eq_none_iff.2 fun lexed isNext => complete lexed (List.mem_of_getElem? isNext)
    rw [passed, noFault, fault]
    change state.sink.push _ = _
    rw [empty]
    rfl
  · rw [upcoming, Production.statementsWithin, if_neg (by simp [kind, Production.endsStatements]),
      if_pos kind, passed]

end

/-! ### A space -/

/-- A space after a script and another script after it. -/
def Sequel.afterBlank (first second : String)
    (starts : (Cursor.ofSource second).next.1.token.kind.continuesStatement = false)
    (unbound : (Cursor.ofSource second).next.1.token.kind.needsSameLine = false) : Sequel :=
  .ofCursor ⟨placeAfter (first ++ " ").toList, second.toList⟩ (linesOf first)
    (by rw [Cursor.next_placeAfter]; exact starts)
    (by rw [Cursor.next_placeAfter]; exact fun binds => absurd (unbound.symm.trans binds) nofun)

section

variable {first second : String}
  (starts : (Cursor.ofSource second).next.1.token.kind.continuesStatement = false)
  (unbound : (Cursor.ofSource second).next.1.token.kind.needsSameLine = false)

theorem placeAfter_blank :
    placeAfter (first ++ " ").toList = (placeAfter first.toList).after ' ' := by
  rw [String.toList_append]
  exact placeAfter_append_singleton first.toList ' '

/-- The space belongs to a gap. -/
theorem Sequel.scan_afterBlank :
    (⟨(afterBlank first second starts unbound).tokens,
        (afterBlank first second starts unbound).ending⟩ : Scan) =
      Cursor.scan ⟨placeAfter first.toList, ' ' :: second.toList⟩ := by
  rw [Cursor.scan_blank, ← placeAfter_blank]
  rfl

/-- The second script is ahead on the line that the first one ends on, and this is reported. -/
theorem checkSeparated_afterBlank (clean : (parse second).2.entries = [])
    (nonempty : (parse second).1.statements ≠ [])
    (begins : (Cursor.ofSource second).next.1.token.position = Position.start) {final : State}
    (ended : final.upcoming = []) (closed : final.openBrackets = []) (nesting : final.nesting = 0)
    (line : final.lastLine = (placeAfter first.toList).line) :
    let state := Production.checkSeparated false
      (final.extended (.afterBlank first second starts unbound))
    state.Resumes (first ++ " ").toList second ∧
      state.sink = ⟨[⟨.sameLineStatement (Cursor.ofSource second).next.1.token.describe,
        placeAfter (first ++ " ").toList⟩]⟩ := by
  have complete := fault?_eq_none_after clean (first ++ " ").toList
  obtain ⟨upcoming, empty⟩ := @State.extended_of_nil (.afterBlank first second starts unbound) final
    ended complete
  have resumes : (final.extended (.afterBlank first second starts unbound)).Resumes
      (first ++ " ").toList second := {
    upcoming := upcoming
    ending := rfl
    line := by rw [placeAfter_blank]; exact line
    closed := closed
    nesting := nesting }
  generalize final.extended (.afterBlank first second starts unbound) = state at empty resumes
  have first? : (State.ofSource second).current = (Cursor.ofSource second).next.1.token :=
    congrArg Lexed.token (headD_scan (Cursor.ofSource second))
  have current : state.current = (Cursor.ofSource second).next.1.token.moved
      (Position.startingAt (placeAfter (first ++ " ").toList)) :=
    resumes.mirrored.current.trans (congrArg _ first?)
  have place : state.current.position = placeAfter (first ++ " ").toList := by
    rw [current]
    exact (congrArg _ begins).trans (Position.startingAt_start _)
  have sameLine : state.onNewLine = false := by
    rw [State.onNewLine, resumes.line, place]
    exact decide_eq_false (Nat.lt_irrefl _)
  obtain ⟨_, _, goesOn, noSemicolon, _⟩ := exists_first_statement clean nonempty
  have kind : state.kind = (State.ofSource second).kind := resumes.mirrored.kind
  have reported : Production.checkSeparated false state =
      state.report (state.faultHere (.sameLineStatement state.current.describe)) :=
    if_neg (by simp [kind, goesOn, noSemicolon, sameLine])
  simp only [reported]
  refine ⟨⟨resumes.upcoming, resumes.ending, resumes.line, resumes.closed, resumes.nesting⟩, ?_⟩
  change state.sink.push ⟨.sameLineStatement state.current.describe, state.current.position⟩ = _
  rw [empty, place, current]
  rfl

end

/-! ### Programs and diagnostics -/

section

variable {first second : String} (cleanFirst : (parse first).2.entries = [])
  (cleanSecond : (parse second).2.entries = []) (nonemptySecond : (parse second).1.statements ≠ [])
  (ends : EndsWithToken first)
include cleanFirst cleanSecond nonemptySecond ends

/-- With a semicolon between them, both scripts are read and the semicolon is reported. -/
theorem parse_with_semicolon :
    (parse (first ++ ";" ++ second)).1.statements =
        (parse first).1.statements ++ ((parse second).1.moved
          (Position.startingAt (placeAfter (first ++ ";").toList))).statements ∧
      (parse (first ++ ";" ++ second)).2.entries =
        [⟨.semicolonSeparator, placeAfter first.toList⟩] := by
  have text : (first ++ ";" ++ second).toList = first.toList ++ ';' :: second.toList := by simp
  have endsStatements := @Sequel.endsStatements_afterSemicolon first second
  obtain ⟨final, precedes, ended, closed, nesting, _, whole⟩ :=
    @exists_parse_severed first _ ';' _ cleanFirst severs_semicolon ends text
      (.afterSemicolon first second) rfl rfl fun _ _ => .inl endsStatements
  have last : final.kind = .endOfInput := precedes.scanned.kind_eq_endOfInput_iff.2 ended
  have separated := Production.checkSeparated_extended precedes (.inr endsStatements)
    (.inl (by simp [Production.endsStatements, last]) :
      Production.endsStatements false final.kind = true ∨ _)
  obtain ⟨state, resumes, sink, onward⟩ := statementsWithin_afterSemicolon first
    (Production.statement (Level.withRoom maxNesting)) cleanSecond ended closed nesting
  obtain ⟨statements, recorded⟩ := resumes.run cleanSecond nonemptySecond
  rw [whole, Production.separatedAfter_eq separated]
  exact ⟨by simp only [onward, statements], by simp only [onward, recorded, sink]⟩

/-- With a space between them, both scripts are read and the first token of the second one is
reported, if it does not go on with the last statement of the first one. -/
theorem parse_with_blank (nonemptyFirst : (parse first).1.statements ≠ [])
    (begins : (Cursor.ofSource second).next.1.token.position = Position.start)
    (noBareReturn : ∀ last ∈ (parse first).1.statements.getLast?, last.isBareReturn = false)
    (starts : (Cursor.ofSource second).next.1.token.kind.continuesStatement = false)
    (unbound : (Cursor.ofSource second).next.1.token.kind.needsSameLine = false) :
    (parse (first ++ " " ++ second)).1.statements =
        (parse first).1.statements ++ ((parse second).1.moved
          (Position.startingAt (placeAfter (first ++ " ").toList))).statements ∧
      (parse (first ++ " " ++ second)).2.entries =
        [⟨.sameLineStatement (Cursor.ofSource second).next.1.token.describe,
          placeAfter (first ++ " ").toList⟩] := by
  have text : (first ++ " " ++ second).toList = first.toList ++ ' ' :: second.toList := by simp
  obtain ⟨final, precedes, ended, closed, nesting, line, whole⟩ :=
    @exists_parse_severed first _ ' ' _ cleanFirst severs_blank ends text
      (.afterBlank first second starts unbound) (Sequel.scan_afterBlank starts unbound) rfl
      fun last isLast => .inr (noBareReturn last isLast)
  obtain ⟨resumes, sink⟩ := checkSeparated_afterBlank starts unbound cleanSecond nonemptySecond begins
    ended closed nesting (line nonemptyFirst)
  obtain ⟨statements, recorded⟩ := resumes.run cleanSecond nonemptySecond
  rw [whole, Production.separatedAfter_of_ne_nil nonemptyFirst]
  exact ⟨by simp only [statements], by simp only [recorded, sink]⟩

end

/-- A wrong separator between two scripts without diagnostics is reported once and loses nothing: the
statements are those of both scripts, and the one diagnostic stands at the semicolon, or else at the
first token of the second script. -/
theorem parse_separated {first second : String} (cleanFirst : (parse first).2.entries = [])
    (cleanSecond : (parse second).2.entries = []) (nonemptyFirst : (parse first).1.statements ≠ [])
    (nonemptySecond : (parse second).1.statements ≠ []) (ends : EndsWithToken first)
    (begins : (tokenize second).1.head?.map Token.position = some Position.start) :
    ((parse (first ++ ";" ++ second)).1.statements =
        (parse first).1.statements ++ ((parse second).1.moved
          (Position.startingAt (placeAfter (first ++ ";").toList))).statements ∧
      (parse (first ++ ";" ++ second)).2.entries =
        [⟨.semicolonSeparator, placeAfter first.toList⟩]) ∧
    ((∀ last ∈ (parse first).1.statements.getLast?, last.isBareReturn = false) →
      ∀ token ∈ (tokenize second).1.head?, token.kind ∉ [Kind.dash, .openParen, .openBracket] →
      (parse (first ++ " " ++ second)).1.statements =
          (parse first).1.statements ++ ((parse second).1.moved
            (Position.startingAt (placeAfter (first ++ " ").toList))).statements ∧
        (parse (first ++ " " ++ second)).2.entries =
          [⟨.sameLineStatement token.describe, placeAfter (first ++ " ").toList⟩]) := by
  have first? : (tokenize second).1.head? = some (Cursor.ofSource second).next.1.token := by
    rw [← headD_scan]
    exact headD_mem_head?_tokenize second
  rw [first?] at begins
  refine ⟨parse_with_semicolon cleanFirst cleanSecond nonemptySecond ends,
    fun noBareReturn token isFirst binds => ?_⟩
  obtain rfl := Option.some.inj (first?.symm.trans isFirst)
  simp only [List.mem_cons, List.not_mem_nil, or_false, not_or] at binds
  obtain ⟨noDash, noParen, noBracket⟩ := binds
  obtain ⟨_, _, _, _, read⟩ := exists_first_statement cleanSecond nonemptySecond
  have kind : (State.ofSource second).kind = (Cursor.ofSource second).next.1.token.kind :=
    congrArg (fun lexed => lexed.token.kind) (headD_scan (Cursor.ofSource second))
  have starts := Production.starts_of_statement read (kind ▸ noDash)
  rw [kind] at starts
  exact parse_with_blank cleanFirst cleanSecond nonemptySecond ends nonemptyFirst (Option.some.inj begins)
    noBareReturn starts (by simp [Kind.needsSameLine, noParen, noBracket])

/-- The first script ends with a template over two lines, and it is the second of them that counts. -/
theorem parse_separated_template :
    (parse ("x = \x60a\nb\x60" ++ ";" ++ "!y")).1.statements =
        (parse "x = \x60a\nb\x60").1.statements ++
          ((parse "!y").1.moved (Position.startingAt ⟨2, 4⟩)).statements ∧
      (parse ("x = \x60a\nb\x60" ++ ";" ++ "!y")).2.entries = [⟨.semicolonSeparator, ⟨2, 3⟩⟩] ∧
      (parse ("x = \x60a\nb\x60" ++ " " ++ "!y")).1.statements =
        (parse "x = \x60a\nb\x60").1.statements ++
          ((parse "!y").1.moved (Position.startingAt ⟨2, 4⟩)).statements ∧
      (parse ("x = \x60a\nb\x60" ++ " " ++ "!y")).2.entries =
        [⟨.sameLineStatement (Token.describe ⟨.not, "!", ⟨1, 1⟩⟩), ⟨2, 4⟩⟩] := by
  have ends : EndsWithToken "x = \x60a\nb\x60" := by
    unfold EndsWithToken
    decide +kernel
  have noBareReturn : ∀ last ∈ (parse "x = \x60a\nb\x60").1.statements.getLast?,
      last.isBareReturn = false := by decide +kernel
  obtain ⟨⟨statements, entries⟩, blank⟩ := @parse_separated "x = \x60a\nb\x60" "!y"
    (by decide +kernel) (by decide +kernel) (by decide +kernel) (by decide +kernel) ends
    (by decide +kernel)
  obtain ⟨statementsToo, entriesToo⟩ := blank noBareReturn ⟨.not, "!", ⟨1, 1⟩⟩ (by decide +kernel)
    (by decide)
  have semicolonPlace : placeAfter "x = \x60a\nb\x60".toList = ⟨2, 3⟩ := by decide +kernel
  have placeAfterSemicolon : placeAfter ("x = \x60a\nb\x60" ++ ";").toList = ⟨2, 4⟩ := by
    decide +kernel
  have placeAfterBlank : placeAfter ("x = \x60a\nb\x60" ++ " ").toList = ⟨2, 4⟩ := by
    decide +kernel
  rw [placeAfterSemicolon] at statements
  rw [semicolonPlace] at entries
  rw [placeAfterBlank] at statementsToo entriesToo
  exact ⟨statements, entries, statementsToo, entriesToo⟩

end AgentScript
