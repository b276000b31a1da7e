import AgentScript.Proofs.Reading.Canonical.Statements
import AgentScript.Proofs.Reading.Succession
import AgentScript.Proofs.Reading.WrittenEntries

/-!
Contract: repeated keys of object literals and of declarations keep their first place and take their
last value.

Owns:
- the reading of a list of entries in any style that the list allows;
- the reading of an object literal and of a declaration whose keys may be repeated;
- the reading of a script that is one statement, and from it the same entries for both.

A value that ends with its line is not continued by the key on the next line, since no key binds to what
is before it. The comparison leaves out positions.
-/

set_option autoImplicit false

namespace AgentScript

open Printed

/-- The distinct keys of written entries are there in the order in which they first occur, each with
its last value, positions apart. -/
def Settles (entries : List WrittenEntry) (result : Entries Expr) : Prop :=
  result.map bareEntry = (Entries.settled (entries.map WrittenEntry.pair)).map bareEntry

/-- Pairs that look like written entries give what these settle to. -/
theorem settles_ofPairs {entries : List WrittenEntry} {pairs : List (String × Expr)}
    (same : pairs.map bareEntry = (entries.map WrittenEntry.pair).map bareEntry) :
    Settles entries (Entries.ofPairs pairs) := by
  have bared := bare_ofPairs_congr same
  rwa [mapTokensOfEntries_eq_map, mapTokensOfEntries_eq_map, Entries.ofPairs_eq_settled
    (entries.map WrittenEntry.pair)] at bared

/-- What stands before a token can be left open. -/
theorem State.Shows.relax {state : State} {first : Printed} {following : List Printed}
    (shows : state.Shows (first :: following)) :
    state.Shows ({ first with gap := .top } :: following) := by
  refine ⟨shows.scanned, ?_, shows.clean⟩
  have ahead := shows.ahead
  generalize state.upcoming = upcoming at ahead
  cases ahead with
  | cons kind value _ noFault rest =>
      exact .cons kind value (fun noTop => absurd rfl noTop) noFault rest

namespace EntryStyle

variable (style : EntryStyle) {comma : Bool} {entries : List WrittenEntry}

theorem kind_ne (entry : WrittenEntry) :
    (style.marks entry).kind.power = .default ∧ (style.marks entry).kind ≠ .closeCurly ∧
      (style.marks entry).kind ≠ .comma := by
  cases style.marks entry <;> simp [KeyMarks.kind, Kind.power]

/-- What stands after an entry does not continue its value. -/
theorem stops_furtherTokens (comma : Bool) (rest : List WrittenEntry) :
    Stops (style.furtherTokens (entriesLast comma) rest) := by
  cases rest with
  | nil => cases comma <;> exact stops_cons rfl
  | cons next more =>
      unfold furtherTokens
      split
      · exact stops_cons rfl
      · exact stops_cons (style.kind_ne next).1

/-- The entries can be told apart in a list that allows for what stands between them. -/
theorem layout {listing : Production.Listing} (closes : listing.closing = .closeCurly)
    (apart : ∀ entry ∈ entries,
      (style.separator entry).comma = true ∨ listing.lineBreakSeparates = true) :
    Production.Layout listing style.piece (style.furtherTokens (entriesLast comma)) [entriesEnd]
      .top entries where
  starts := by
    intro entry _ gap
    exact ⟨_, _, rfl, by rw [closes]; exact (style.kind_ne entry).2.1⟩
  ends := by
    intro rest within state shows
    cases rest with
    | nil =>
        cases comma with
        | true =>
            have showsComma : state.Shows [⟨.top, .comma, ","⟩, entriesEnd] := shows
            exact Production.readsAs_of_ok
              (Production.endItem_ok_iff.2 (.inl ⟨showsComma.kind, rfl⟩)) trivial showsComma.advance
        | false =>
            have showsEnd : state.Shows [entriesEnd] := shows
            have kind : state.kind = .closeCurly := showsEnd.kind
            exact Production.readsAs_of_ok (Production.endItem_ok_iff.2
              (.inr ⟨by simp [kind], rfl, .inl (kind.trans closes.symm)⟩)) trivial showsEnd
    | cons next more =>
        unfold furtherTokens at shows
        split at shows
        · exact Production.readsAs_of_ok
            (Production.endItem_ok_iff.2 (.inl ⟨shows.kind, rfl⟩)) trivial shows.advance
        · next noComma =>
            have lines := (apart next (within next List.mem_cons_self)).resolve_left noComma
            have noCommaHere : state.kind ≠ .comma := by
              rw [shows.kind]
              exact (style.kind_ne next).2.2
            exact Production.readsAs_of_ok (Production.endItem_ok_iff.2
              (.inr ⟨noCommaHere, rfl, .inr ⟨lines, shows.onNewLine_of_breaks rfl⟩⟩)) trivial
              shows.relax

end EntryStyle

namespace Production

variable {inner : Level} {room : Nat} (proceeds : LevelProceeds inner)
  (reads : LevelReads inner room) {state : State}

include proceeds reads in
/-- Entries are read one by one, and settle as they are put together. -/
theorem readsAs_entries {style : EntryStyle} {listing : Listing} {key : Production String}
    {comma : Bool} {entries : List WrittenEntry} (closes : listing.closing = .closeCurly)
    (apart : ∀ entry ∈ entries,
      (style.separator entry).comma = true ∨ listing.lineBreakSeparates = true)
    (proceedsKey : key.Proceeds)
    (readsKey : ∀ (entry : WrittenEntry) (gap : Gap) (state : State) (following : List Printed),
      state.Shows (⟨gap, (style.marks entry).kind, entry.key⟩ :: following) →
      key.ReadsAs state True (fun read => read = entry.key) following)
    (shows : state.Shows (style.tokens comma entries)) :
    (listOf listing (keyed inner key)).ReadsAs state
      (∀ entry ∈ entries, entry.value.levels 1 ≤ room)
      (fun pairs => Settles entries (Entries.ofPairs pairs)) [] := by
  have list : (listOf listing (keyed inner key)).ReadsAs state
      (∀ entry ∈ entries, entry.value.levels 1 ≤ room)
      (fun pairs => pairs.map bareEntry = entries.map fun entry => bareEntry entry.pair) [] := by
    refine readsAs_listOf (proceeds_keyed proceeds proceedsKey)
      (consumes_keyed proceeds proceedsKey) (by rw [closes]; rfl)
      (style.layout closes apart) ?_ .top shows
    intro entry _ gap rest before _ showsEntry
    have readKey : key.ReadsAs before True (fun read => read = entry.pair.1)
        (colon :: entry.pair.2.printed .space ++ style.furtherTokens (entriesLast comma) rest) :=
      readsKey entry gap before _ showsEntry
    exact readsAs_keyed proceeds reads entry.isTree readKey (style.stops_furtherTokens comma rest)
  refine list.imp fun pairs same => settles_ofPairs ?_
  rw [same, List.map_map]
  rfl

include proceeds reads in
/-- An object literal with repeated keys is read as what its entries settle to. -/
theorem readsAs_objectEntries {comma : Bool} {entries : List WrittenEntry}
    (shows : state.Shows (⟨.space, .openCurly, "\x7b"⟩ :: EntryStyle.object.tokens comma entries)) :
    (expressionAt inner .default).ReadsAs state (∀ entry ∈ entries, entry.value.levels 1 ≤ room)
      (fun read => ∃ brace result, read = .object brace result ∧ Settles entries result) [] := by
  have literal : (objectLiteral inner).ReadsAs state
      (∀ entry ∈ entries, entry.value.levels 1 ≤ room)
      (fun read => ∃ brace result, read = .object brace result ∧ Settles entries result) [] := by
    refine ReadsAs.first (readsAs_take shows) (fun _ => Proceeds.bind
      ((proceeds_keyed proceeds proceeds_objectKey).listOf _) fun _ => proceeds_pure _) ?_
    intro brace after _ showsEntries
    refine ReadsAs.last (readsAs_entries proceeds reads rfl (fun _ _ => .inl rfl)
      proceeds_objectKey ?_ showsEntries) (fun _ => proceeds_pure _) ?_
    · intro entry gap before following showsKey
      refine readsAs_objectKey_of_kind ?_ showsKey
      change entry.marks.kind = .identifier ∨ entry.marks.kind = .string
      cases entry.marks <;> simp [KeyMarks.kind]
    · intro pairs _ same showsEnd
      exact readsAs_pure ⟨brace, _, rfl, same⟩ showsEnd
  have opening : state.kind = .openCurly := shows.kind
  refine (Leads.of_operand proceeds (literal.congr ?_)).readsAs proceeds (by rintro _ ⟨⟩)
  rw [operand_run, opening]
  rfl

/-- A name that is given an object literal. -/
theorem readsAs_objectAssignment (room : Nat) {name : String} {comma : Bool}
    {entries : List WrittenEntry}
    (shows : state.Shows (⟨.top, .identifier, name⟩ :: ⟨.space, .assign, "="⟩ ::
      ⟨.space, .openCurly, "\x7b"⟩ :: EntryStyle.object.tokens comma entries)) :
    (Production.statement (Level.withRoom (room + 1))).ReadsAs state
      (∀ entry ∈ entries, entry.value.levels 1 ≤ room)
      (fun read => ∃ target brace result, read = .assignment target none (.object brace result) ∧
        target.value = name ∧ Settles entries result) [] := by
  have proceeds := levelProceeds_withRoom (room + 1)
  have assigned : (assignment (Level.withRoom (room + 1))).ReadsAs state
      (∀ entry ∈ entries, entry.value.levels 1 ≤ room)
      (fun read => ∃ target brace result, read = .assignment target none (.object brace result) ∧
        target.value = name ∧ Settles entries result) [] := by
    have proceedsValue (target : Token) (type? : Option TypeExpr) :=
      (proceeds.expression .default).bind fun value =>
        proceeds_pure (Stmt.assignment target type? value)
    refine ReadsAs.first (readsAs_expectAs _ shows rfl) (fun _ => proceeds_declaredType?.bind
      fun _ => (proceeds_expect _).bind fun _ => proceedsValue _ _) ?_
    intro target afterName isShown showsSign
    have noType : declaredType?.ReadsAs afterName True (fun read => read = none) _ :=
      readsAs_after?_none showsSign (by rw [showsSign.kind]; simp)
    refine ReadsAs.first noType (fun _ => (proceeds_expect _).bind fun _ => proceedsValue _ _) ?_
    rintro _ afterType rfl showsSign
    refine ReadsAs.first (readsAs_expect showsSign rfl) (fun _ => proceedsValue _ _) ?_
    intro _ afterSign _ showsObject
    refine ReadsAs.last (readsAs_objectEntries (levelProceeds_withRoom room)
      (levelReads_withRoom room) (showsObject.deeper _)).deeper (fun _ => proceeds_pure _) ?_
    rintro _ _ ⟨brace, result, rfl, same⟩ showsEnd
    exact readsAs_pure ⟨target, brace, result, rfl, isShown.2, same⟩ showsEnd
  refine assigned.congr ?_
  have identifier : state.kind = .identifier := shows.kind
  have sign : state.peek.kind = .assign := shows.peek_kind.trans shows.advance.kind
  have starts : startsAssignment state = true := by simp [startsAssignment, identifier, sign]
  rw [statement_run, identifier]
  exact if_pos starts

include proceeds reads in
/-- A declaration of an agent with repeated keys. -/
theorem readsAs_agentEntries {name : String} {entries : List WrittenEntry}
    (shows : state.Shows (keyword .top .agentKw :: ⟨.space, .identifier, name⟩ ::
      ⟨.space, .openCurly, "\x7b"⟩ :: EntryStyle.declaration.tokens false entries)) :
    (Production.statement inner).ReadsAs state (∀ entry ∈ entries, entry.value.levels 1 ≤ room)
      (fun read => ∃ keyword target result, read = .config .agent keyword target result ∧
        target.value = name ∧ Settles entries result) [] := by
  have proceedsList := (proceeds_keyed proceeds proceeds_configKey).listOf configListing
  have isConfig : (keyword .top .agentKw).kind.statementForm? = some .config := rfl
  refine readsAs_of_statementForm? shows isConfig ?_
  refine ReadsAs.first (readsAs_take shows) (fun _ => (proceeds_expectAs _ _).bind fun _ =>
    (proceeds_configBody proceeds).bind fun _ => proceeds_pure _) ?_
  intro agent after isAgent showsName
  refine ReadsAs.first (readsAs_expectAs _ showsName rfl) (fun _ =>
    (proceeds_configBody proceeds).bind fun _ => proceeds_pure _) ?_
  intro target afterName isShown showsBody
  have body : (configBody inner).ReadsAs afterName
      (∀ entry ∈ entries, entry.value.levels 1 ≤ room) (Settles entries) [] := by
    refine ReadsAs.first (readsAs_expect showsBody rfl)
      (fun _ => proceedsList.bind fun _ => proceeds_pure _) ?_
    intro _ afterBrace _ showsEntries
    refine ReadsAs.last (readsAs_entries proceeds reads rfl (fun _ _ => .inr rfl)
      proceeds_configKey ?_ showsEntries) (fun _ => proceeds_pure _) ?_
    · intro entry gap before following showsKey
      have isName : before.kind = .identifier := showsKey.kind
      exact readsAs_of_ok (configKey_ok_iff.2 ⟨by rw [isName]; rfl, rfl, rfl⟩) showsKey.value
        showsKey.advance
    · intro pairs _ same showsEnd
      exact readsAs_pure same showsEnd
  refine ReadsAs.last body (fun _ => proceeds_pure _) ?_
  intro result _ same showsEnd
  refine readsAs_pure ⟨agent, target, result, ?_, isShown.2, same⟩ showsEnd
  rw [isAgent.1]
  rfl

end Production

/-- A script that is one statement is read as this statement, unless it is nested too deeply. -/
theorem parse_of_readsAs {source : String} {first : Printed} {following : List Printed}
    {fits : Prop} {good : Stmt → Prop} (shows : (State.ofSource source).Shows (first :: following))
    (starts : StartsStatement first.gap first)
    (reads : (Production.statement (Level.withRoom maxNesting)).ReadsAs (State.ofSource source) fits
      good [])
    (shallow : ∀ entry ∈ (parse source).2.entries, ¬ entry.IsTooDeep) :
    (parse source).2.entries = [] ∧
      ∃ statement, (parse source).1.statements = [statement] ∧ good statement := by
  have proceeds := Production.proceeds_statement_withRoom maxNesting
  have isOpen : Production.endsStatements false (State.ofSource source).kind = false := by
    rw [shows.kind]
    exact starts.isOpen false
  have noSemicolon : (State.ofSource source).kind ≠ .semicolon := by
    rw [shows.kind]
    exact starts.noSemicolon
  rw [parse_eq] at shallow ⊢
  cases upcoming : (State.ofSource source).upcoming with
  | nil =>
      have ahead := shows.ahead
      rw [upcoming] at ahead
      cases ahead
  | cons last bound =>
      obtain ⟨_, statement, after, read, isGood, showsEnd⟩ | ⟨_, tooDeep⟩ := reads
      · have ended : Production.endsStatements false after.kind = true := by
          rw [showsEnd.kind_of_nil]
          rfl
        have separated := Production.checkSeparated_eq_self (.inr ended) showsEnd
        rw [Production.statementsWithin, if_neg (by simp [isOpen]), if_neg noSemicolon, read]
        simp only [separated, Production.statementsWithin_of_ends ended]
        exact ⟨congrArg Sink.entries showsEnd.clean, statement, rfl, isGood⟩
      · obtain ⟨entry, member, isTooDeep⟩ := Production.statementsWithin_holdsTooDeep proceeds isOpen
          noSemicolon tooDeep last bound
        rw [upcoming] at shallow
        exact absurd isTooDeep (shallow entry member)

/-- Each key keeps its first place and takes its last value, in an object literal and in a declaration
alike, whatever marks its keys stand between and whatever separates its entries. -/
theorem parse_repeated_keys (entries : List WrittenEntry) (comma : Bool) :
    ((∀ entry ∈ (parse (objectScript entries comma)).2.entries, ¬ entry.IsTooDeep) →
      (parse (objectScript entries comma)).2.entries = [] ∧
        ∃ name brace result, (parse (objectScript entries comma)).1.statements =
            [.assignment name none (.object brace result)] ∧
          name.value = "o" ∧ Settles entries result) ∧
    ((∀ entry ∈ (parse (agentScript entries)).2.entries, ¬ entry.IsTooDeep) →
      (parse (agentScript entries)).2.entries = [] ∧
        ∃ keyword name result, (parse (agentScript entries)).1.statements =
            [.config .agent keyword name result] ∧
          name.value = "A" ∧ Settles entries result) := by
  constructor
  · intro shallow
    have shows := shows_objectScript entries comma
    have reads := Production.readsAs_objectAssignment (maxNesting - 1) shows
    obtain ⟨clean, _, single, name, brace, result, rfl, isNamed, settles⟩ :=
      parse_of_readsAs shows (startsStatement_of_form .top _ (.inr (by decide))) reads shallow
    exact ⟨clean, name, brace, result, single, isNamed, settles⟩
  · intro shallow
    have shows := shows_agentScript entries
    have reads := Production.readsAs_agentEntries (Production.levelProceeds_withRoom maxNesting)
      (Production.levelReads_withRoom maxNesting) shows
    obtain ⟨clean, _, single, keyword, name, result, rfl, isNamed, settles⟩ :=
      parse_of_readsAs shows (startsStatement_of_form .top _ (.inl rfl)) reads shallow
    exact ⟨clean, keyword, name, result, single, isNamed, settles⟩

theorem wellFormed_variable {name : String} (plain : isPlainName name = true)
    (noValue : ¬ IsValueWord name) : (Expr.identifier ⟨.identifier, name, .null⟩).WellFormed :=
  .identifier ⟨rfl, plain⟩ noValue

/-- Three entries, the last of which has the key of the first. -/
def repeatedEntries : List WrittenEntry :=
  [{ key := "a"
     isName := by decide +kernel
     value := .identifier ⟨.identifier, "x", .null⟩
     isTree := wellFormed_variable (by decide +kernel) (by simp [IsValueWord])
     marks := .none
     separator := .commaSpace },
    { key := "b"
      isName := by decide +kernel
      value := .array ⟨.openBracket, "[", .null⟩ [.identifier ⟨.identifier, "y", .null⟩]
      isTree := .array ⟨rfl, rfl⟩ (List.forall_mem_singleton.2
        (wellFormed_variable (by decide +kernel) (by simp [IsValueWord])))
      marks := .singleQuotes
      separator := ⟨['\r', '\n', '\t'], false, [], by simp [isBlank], .inr (by simp)⟩ },
    { key := "a"
      isName := by decide +kernel
      value := .identifier ⟨.identifier, "z", .null⟩
      isTree := wellFormed_variable (by decide +kernel) (by simp [IsValueWord])
      marks := .tripleQuotes
      separator := ⟨['\n'], true, [], by simp [isBlank], .inl rfl⟩ }]

/-- A key that is written again in other quotes, and after a line break. -/
theorem parse_repeated_keys_thrice :
    let object := "o = \x7ba: x, \x27b\x27: [y], \x22\x22\x22a\x22\x22\x22: z,\x7d"
    let agent := "agent A \x7b a: x\r\n\tb: [y]\n,a: z \x7d"
    let settled : Entries Expr :=
      [("a", .identifier ⟨.identifier, "z", .null⟩),
        ("b", .array ⟨.openBracket, "[", .null⟩ [.identifier ⟨.identifier, "y", .null⟩])]
    (parse object).2.entries = [] ∧ (parse agent).2.entries = [] ∧
      (∃ name brace result, (parse object).1.statements =
        [.assignment name none (.object brace result)] ∧ result.map bareEntry = settled) ∧
      ∃ keyword name result, (parse agent).1.statements =
        [.config .agent keyword name result] ∧ result.map bareEntry = settled := by
  intro object agent settled
  have objectText : objectScript repeatedEntries true = object := by decide +kernel
  have agentText : agentScript repeatedEntries = agent := by decide +kernel
  have objectClean : (parse object).2.entries = [] := by decide +kernel
  have agentClean : (parse agent).2.entries = [] := by decide +kernel
  have both := parse_repeated_keys repeatedEntries true
  rw [objectText, agentText, objectClean, agentClean] at both
  obtain ⟨_, name, brace, result, read, _, settles⟩ := both.1 (by simp)
  obtain ⟨_, keyword, agentName, agentResult, agentRead, _, agentSettles⟩ := both.2 (by simp)
  exact ⟨objectClean, agentClean, ⟨name, brace, result, read, settles⟩,
    keyword, agentName, agentResult, agentRead, agentSettles⟩

end AgentScript
