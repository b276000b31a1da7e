import AgentScript.Proofs.Reading.Room
import AgentScript.Proofs.Tree.Printed

/-!
Contract: reading states whose tokens ahead are printed tokens, up to the limit of nesting.

Owns:
- states that show printed tokens, and what they show after one more token;
- productions that read a value of a kind and leave given tokens ahead if that fits, and report too
  deep a nesting if it does not, and the ways in which such productions are put together.
-/

set_option autoImplicit false

namespace AgentScript

/-! ## States that show printed tokens -/

/-- Tokens with the kinds, values and line breaks of printed tokens, and without faults. The first
argument is the line that the token before them ends on. The start of a text may count as a line
break or not. -/
inductive Shows : Nat → List Lexed → List Printed → Prop where
  | nil {line : Nat} : Shows line [] []
  | cons {line : Nat} {lexed : Lexed} {upcoming : List Lexed} {printed : Printed}
      {following : List Printed} :
      lexed.token.kind = printed.kind → lexed.token.value = printed.value →
      (printed.gap ≠ .top → decide (line < lexed.token.position.line) = printed.gap.breaks) →
      lexed.fault? = none →
      Shows lexed.endLine upcoming following →
      Shows line (lexed :: upcoming) (printed :: following)

/-- The tokens ahead are the printed ones, and nothing is reported so far. -/
structure State.Shows (state : State) (tokens : List Printed) : Prop where
  scanned : state.Scanned
  ahead : AgentScript.Shows state.lastLine state.upcoming tokens
  clean : state.sink = Sink.empty

namespace State.Shows

variable {state : State} {printed : Printed} {following : List Printed}

theorem deeper (shows : state.Shows following) (nesting : Nat) :
    { state with nesting := nesting }.Shows following :=
  ⟨shows.scanned.deeper nesting, shows.ahead, shows.clean⟩

theorem kind_of_nil (shows : state.Shows []) : state.kind = .endOfInput := by
  refine shows.scanned.kind_eq_endOfInput_iff.2 ?_
  have ahead := shows.ahead
  generalize state.upcoming = upcoming at ahead
  cases ahead
  rfl

/-- What a state that shows a token and others says about it, and the state after it. -/
theorem current (shows : state.Shows (printed :: following)) :
    state.kind = printed.kind ∧ state.current.value = printed.value ∧
      (printed.gap ≠ .top → state.onNewLine = printed.gap.breaks) ∧
      state.advance.Shows following := by
  have ahead := shows.ahead
  have clean := shows.clean
  have scanned := shows.scanned.advance
  obtain ⟨upcoming, ending, lastLine, openBrackets, nesting, sink⟩ := state
  cases ahead with
  | @cons _ lexed rest _ _ kind value breaks fault restShows =>
      refine ⟨kind, value, breaks, scanned, restShows, ?_⟩
      -- the token two places further on has no fault that could be recorded
      have noFault : rest[1]?.bind Lexed.fault? = none := by
        clear scanned shows
        cases restShows with
        | nil => rfl
        | cons _ _ _ _ later =>
            cases later with
            | nil => rfl
            | cons _ _ _ faultFree _ => exact faultFree
      simp only [State.advance, noFault]
      exact clean

theorem kind (shows : state.Shows (printed :: following)) : state.kind = printed.kind :=
  shows.current.1

theorem value (shows : state.Shows (printed :: following)) :
    state.current.value = printed.value :=
  shows.current.2.1

theorem onNewLine (shows : state.Shows (printed :: following)) (noTop : printed.gap ≠ .top) :
    state.onNewLine = printed.gap.breaks :=
  shows.current.2.2.1 noTop

theorem onNewLine_of_breaks (shows : state.Shows (printed :: following))
    (breaks : printed.gap.breaks = true) : state.onNewLine = true :=
  (shows.onNewLine (Gap.ne_top_of_breaks breaks)).trans breaks

theorem advance (shows : state.Shows (printed :: following)) : state.advance.Shows following :=
  shows.current.2.2.2

/-- The token after the current one. -/
theorem peek_kind (shows : state.Shows (printed :: following)) :
    state.peek.kind = state.advance.kind := by
  have ahead := shows.ahead
  obtain ⟨upcoming, ending, lastLine, openBrackets, nesting, sink⟩ := state
  cases ahead with
  | cons => rfl

end State.Shows

/-! ## Reading what a state shows -/

namespace Production

variable {α : Type} {production : Production α} {state : State} {fits : Prop} {good : α → Prop}
  {following : List Printed}

/-- A production reads a good value and leaves the given tokens ahead if that fits, and reports too
deep a nesting if it does not. -/
def ReadsAs (production : Production α) (state : State) (fits : Prop) (good : α → Prop)
    (following : List Printed) : Prop :=
  production.Yields state fits fun value after => good value ∧ after.Shows following

theorem readsAs_of_ok {value : α} {after : State} (read : production state = .ok value after)
    (isGood : good value) (shows : after.Shows following) :
    production.ReadsAs state True good following :=
  yields_of_ok read ⟨isGood, shows⟩

theorem ReadsAs.bind {β : Type} {next : α → Production β} {fitsNext : Prop} {goodNext : β → Prop}
    {rest : List Printed} (first : production.ReadsAs state fits good following)
    (proceeds : ∀ value, (next value).Proceeds)
    (second : ∀ value after, good value → after.Shows following →
      (next value).ReadsAs after fitsNext goodNext rest) :
    (production >>= next).ReadsAs state (fits ∧ fitsNext) goodNext rest :=
  Yields.bind first proceeds fun _ value after isGood => second value after isGood.1 isGood.2

/-- What always fits leaves the rest to decide whether the whole fits. -/
theorem ReadsAs.first {β : Type} {next : α → Production β} {fitsNext : Prop} {goodNext : β → Prop}
    {rest : List Printed} (first : production.ReadsAs state True good following)
    (proceeds : ∀ value, (next value).Proceeds)
    (second : ∀ value after, good value → after.Shows following →
      (next value).ReadsAs after fitsNext goodNext rest) :
    (production >>= next).ReadsAs state fitsNext goodNext rest :=
  Yields.of_iff (first.bind proceeds second) (and_iff_right trivial)

/-- Where the rest always fits, the whole fits if the first part does. -/
theorem ReadsAs.last {β : Type} {next : α → Production β} {goodNext : β → Prop}
    {rest : List Printed} (first : production.ReadsAs state fits good following)
    (proceeds : ∀ value, (next value).Proceeds)
    (second : ∀ value after, good value → after.Shows following →
      (next value).ReadsAs after True goodNext rest) :
    (production >>= next).ReadsAs state fits goodNext rest :=
  Yields.of_iff (first.bind proceeds second) (and_iff_left trivial)

theorem readsAs_pure {value : α} (isGood : good value) (shows : state.Shows following) :
    (pure value : Production α).ReadsAs state True good following :=
  yields_pure ⟨isGood, shows⟩

/-- A production that gives the outcome of another reads as that does. -/
theorem ReadsAs.congr {other : Production α} {before : State}
    (reads : production.ReadsAs state fits good following)
    (same : other before = production state) : other.ReadsAs before fits good following :=
  Yields.congr reads same

theorem ReadsAs.of_iff {fitsToo : Prop} (reads : production.ReadsAs state fits good following)
    (same : fits ↔ fitsToo) : production.ReadsAs state fitsToo good following :=
  Yields.of_iff reads same

theorem ReadsAs.imp {goodNext : α → Prop} (reads : production.ReadsAs state fits good following)
    (implies : ∀ value, good value → goodNext value) :
    production.ReadsAs state fits goodNext following :=
  Yields.imp reads fun value _ isGood => ⟨implies value isGood.1, isGood.2⟩

theorem readsAs_take {printed : Printed} (shows : state.Shows (printed :: following)) :
    take.ReadsAs state True
      (fun token => token.kind = printed.kind ∧ token.value = printed.value) following :=
  readsAs_of_ok rfl ⟨shows.kind, shows.value⟩ shows.advance

theorem readsAs_expectAs {printed : Printed} {kind : Kind} (expected : String)
    (shows : state.Shows (printed :: following)) (kind_eq : printed.kind = kind) :
    (expectAs kind expected).ReadsAs state True
      (fun token => token.kind = printed.kind ∧ token.value = printed.value) following := by
  refine (readsAs_take shows).congr ?_
  rw [expectAs_run, if_pos (by rw [shows.kind, kind_eq])]
  rfl

theorem readsAs_expect {printed : Printed} {kind : Kind}
    (shows : state.Shows (printed :: following)) (kind_eq : printed.kind = kind) :
    (expect kind).ReadsAs state True
      (fun token => token.kind = printed.kind ∧ token.value = printed.value) following :=
  readsAs_expectAs kind.text shows kind_eq

theorem ReadsAs.deeper (reads : production.ReadsAs { state with nesting := state.nesting + 1 } fits
    good following) : (deeper production).ReadsAs state fits good following :=
  Yields.deeper (Yields.imp reads fun _ _ isGood => ⟨isGood.1, isGood.2.deeper _⟩)

theorem readsAs_tooDeep (tooMuch : ¬ fits) : (tooDeep : Production α).ReadsAs state fits good
    following :=
  Yields.of_iff yields_tooDeep (iff_of_false id tooMuch)

/-! ## Lists -/

section

variable {β γ : Type} {listing : Listing} {item : Production α} {closing : Printed}

/-- The tokens of a list: each item, and what stands between it and the next. -/
def listed (piece : β → Gap → List Printed) (between : List β → List Printed)
    (closing : List Printed) (gap : Gap) : List β → List Printed
  | [] => closing
  | first :: rest => piece first gap ++ between rest

/-- How a list of pieces is laid out, so that its items can be told apart. -/
structure Layout (listing : Listing) (piece : β → Gap → List Printed)
    (between : List β → List Printed) (closing : List Printed) (next : Gap) (items : List β) :
    Prop where
  /-- No item starts with the closing bracket. -/
  starts : ∀ item ∈ items, ∀ gap, ∃ first rest, piece item gap = first :: rest ∧
    first.kind ≠ listing.closing
  /-- What stands between items is passed. -/
  ends : ∀ rest, (∀ item ∈ rest, item ∈ items) → ∀ state : State, state.Shows (between rest) →
    (endItem listing).ReadsAs state True (fun _ => True) (listed piece between closing next rest)

theorem Layout.tail {piece : β → Gap → List Printed} {between : List β → List Printed}
    {closing : List Printed} {next : Gap} {first : β} {rest : List β}
    (layout : Layout listing piece between closing next (first :: rest)) :
    Layout listing piece between closing next rest where
  starts := fun item member => layout.starts item (List.mem_cons_of_mem _ member)
  ends := fun more within =>
    layout.ends more fun item member => List.mem_cons_of_mem _ (within item member)

/-- An item of a list is read with what stands between it and the next. -/
theorem readsAs_listItem {fitsItem : Prop} {good : α → Prop} {piece : β → Gap → List Printed}
    {between : List β → List Printed} {closing : List Printed} {next gap : Gap} {first : β}
    {rest : List β} (layout : Layout listing piece between closing next (first :: rest))
    (reads : ∀ state : State, state.Shows (piece first gap ++ between rest) →
      item.ReadsAs state fitsItem good (between rest))
    (shows : state.Shows (listed piece between closing gap (first :: rest))) :
    (listItem listing item).ReadsAs state fitsItem good
      (listed piece between closing next rest) := by
  refine ReadsAs.last (reads state shows)
    (fun _ => (proceeds_endItem listing).bind fun _ => proceeds_pure _) ?_
  intro value after isGood showsBetween
  refine ReadsAs.last (layout.ends rest (fun _ member => List.mem_cons_of_mem _ member)
    after showsBetween) (fun _ => proceeds_pure _) ?_
  intro _ afterEnd _ showsRest
  exact readsAs_pure isGood showsRest

/-- The items of a list are read up to its closing bracket, if all of them fit. -/
theorem readsAs_items {fitsItem : β → Prop} {piece : β → Gap → List Printed}
    {between : List β → List Printed} {next : Gap} {items : List β} {view : α → γ} {target : β → γ}
    (proceeds : item.Proceeds) (consumes : item.Consumes) (closes : closing.kind = listing.closing)
    (layout : Layout listing piece between (closing :: following) next items)
    (reads : ∀ entry ∈ items, ∀ (gap : Gap) (rest : List β) (state : State),
      (∀ item ∈ rest, item ∈ items) → state.Shows (piece entry gap ++ between rest) →
      item.ReadsAs state (fitsItem entry) (fun value => view value = target entry) (between rest))
    (gap : Gap) (shows : state.Shows (listed piece between (closing :: following) gap items)) :
    (manyWhile (fun state => state.kind ≠ listing.closing) (listItem listing item)).ReadsAs state
      (∀ entry ∈ items, fitsItem entry) (fun values => values.map view = items.map target)
      (closing :: following) := by
  induction items generalizing gap state with
  | nil =>
      have showsClosing : state.Shows (closing :: following) := shows
      have run : manyWhile (fun state => state.kind ≠ listing.closing) (listItem listing item)
          state = .ok [] state := by
        rw [manyWhile_run (proceeds.listItem listing) (consumes.listItem listing) shows.scanned,
          if_neg]
        simp [showsClosing.kind, closes]
      exact ReadsAs.of_iff (readsAs_of_ok run rfl showsClosing) (by simp)
  | cons first rest inductionHypothesis =>
      obtain ⟨token, tokens, printed, other⟩ := layout.starts first List.mem_cons_self gap
      have goesOn : state.kind ≠ listing.closing := by
        have showsToken := shows
        rw [listed, printed, List.cons_append] at showsToken
        rwa [showsToken.kind]
      have readItem := readsAs_listItem layout (fun state => reads first List.mem_cons_self gap rest
        state fun _ member => List.mem_cons_of_mem _ member) shows
      have whole : (listItem listing item >>= fun first =>
          manyWhile (fun state => state.kind ≠ listing.closing) (listItem listing item) >>=
            fun rest => (pure (first :: rest) : Production (List α))).ReadsAs state
          (fitsItem first ∧ ∀ entry ∈ rest, fitsItem entry)
          (fun values => values.map view = (first :: rest).map target) (closing :: following) := by
        refine readItem.bind (fun _ => (Proceeds.manyWhile (proceeds.listItem listing) _).bind
          fun _ => proceeds_pure _) ?_
        intro value after same showsRest
        refine ReadsAs.last (inductionHypothesis layout.tail
          (fun entry member gap more state within => reads entry (List.mem_cons_of_mem _ member)
            gap more state fun item member => List.mem_cons_of_mem _ (within item member))
          next showsRest) (fun _ => proceeds_pure _) ?_
        intro values final sameRest showsClosing
        exact readsAs_pure (by rw [List.map_cons, List.map_cons, same, sameRest]) showsClosing
      refine (whole.of_iff List.forall_mem_cons.symm).congr ?_
      rw [manyWhile_run (proceeds.listItem listing) (consumes.listItem listing) shows.scanned,
        if_pos (by simpa using goesOn)]

/-- A list is read item by item. Each value that is read looks like its item, and all items have to
fit. -/
theorem readsAs_listOf {fitsItem : β → Prop} {piece : β → Gap → List Printed}
    {between : List β → List Printed} {next : Gap} {items : List β} {view : α → γ} {target : β → γ}
    (proceeds : item.Proceeds) (consumes : item.Consumes) (closes : closing.kind = listing.closing)
    (layout : Layout listing piece between (closing :: following) next items)
    (reads : ∀ entry ∈ items, ∀ (gap : Gap) (rest : List β) (state : State),
      (∀ item ∈ rest, item ∈ items) → state.Shows (piece entry gap ++ between rest) →
      item.ReadsAs state (fitsItem entry) (fun value => view value = target entry) (between rest))
    (gap : Gap) (shows : state.Shows (listed piece between (closing :: following) gap items)) :
    (listOf listing item).ReadsAs state (∀ entry ∈ items, fitsItem entry)
      (fun values => values.map view = items.map target) following := by
  rw [listOf_eq]
  refine (readsAs_items proceeds consumes closes layout reads gap shows).last
    (fun _ => (proceeds_expect _).bind fun _ => proceeds_pure _) ?_
  intro values before same showsClosing
  refine ReadsAs.last (readsAs_expect showsClosing closes) (fun _ => proceeds_pure _) ?_
  intro _ after _ showsFollowing
  exact readsAs_pure same showsFollowing

end

end Production

end AgentScript
