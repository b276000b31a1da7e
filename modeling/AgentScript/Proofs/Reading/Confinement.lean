import AgentScript.Proofs.Reading.Recovery

/-!
Contract: reading that does not go past a line on which brackets are closed in order.

Owns:
- the border after such a line: a keyword that starts a statement on a later line;
- states in front of the border, and passing the tokens in front of it;
- results of productions that stay in front of the border, with the brackets open that were open
  before, and how such productions are put together;
- the place in front of the border, or at it, where reading resumes after a failed statement.

A bracket that closes another one than the bracket opened last would empty the open brackets of more
than one bracket. On a line without such brackets, a list of statements finds the brackets open that
were open when it began, whatever fails on the way.
-/

set_option autoImplicit false

namespace AgentScript

/-- Whether a keyword that starts statements may belong to the same statement as a token of this kind
before it. -/
def Kind.admitsKeyword (kind : Kind) : Bool :=
  kind = .dot || kind = .colon || kind = .keyword .exportKw || kind = .keyword .elseKw

/-- The end of a line, and the tokens on the lines after it. -/
structure Border where
  line : Nat
  /-- How many tokens there are from the start of the line on. -/
  total : Nat
  first : Lexed
  more : List Lexed
  ending : Lexed
  starts : first.token.kind.startsStatement = true
  below : line < first.token.position.line
  noKey : (more.headD ending).token.kind ≠ .colon

/-- The tokens after the border. -/
def Border.rest (border : Border) : List Lexed := border.first :: border.more

/-- Tokens of one line that close brackets in order, and no curly bracket is open after them. The last
of them is no token that a keyword on the next line could belong to. -/
inductive Enclosed (line : Nat) : List Kind → List Lexed → Prop where
  | nil {openBrackets : List Kind} : .openCurly ∉ openBrackets → Enclosed line openBrackets []
  | cons {openBrackets after : List Kind} {lexed : Lexed} {within : List Lexed} :
      lexed.token.kind.bracketsInOrder? openBrackets = some after →
      lexed.token.kind ≠ .endOfInput → lexed.token.position.line ≤ line → lexed.endLine = line →
      (lexed.token.kind.admitsKeyword = true → within ≠ []) → Enclosed line after within →
      Enclosed line openBrackets (lexed :: within)

namespace State

/-- A state in front of a border, or at it. -/
structure Confined (border : Border) (state : State) : Prop where
  ending : state.ending = border.ending
  ahead : ∃ within, state.upcoming = within ++ border.rest ∧
    Enclosed border.line state.openBrackets within
  notBelow : state.lastLine ≤ border.line
  bounded : state.upcoming.length ≤ border.total
  begun : state.upcoming.length < border.total → state.lastLine = border.line

/-- Whether a token in front of the border is ahead. -/
def Inside (border : Border) (state : State) : Prop :=
  border.rest.length < state.upcoming.length

end State

namespace State.Confined

variable {border : Border} {state : State}

/-- Either the border is ahead, or a token in front of it. -/
theorem upcoming_cases (confined : state.Confined border) :
    (state.upcoming = border.rest ∧ .openCurly ∉ state.openBrackets) ∨
      ∃ lexed within after, state.upcoming = lexed :: (within ++ border.rest) ∧
        state.kind = lexed.token.kind ∧ state.kind.bracketsInOrder? state.openBrackets = some after ∧
        state.kind ≠ .endOfInput ∧ lexed.token.position.line ≤ border.line ∧
        lexed.endLine = border.line ∧ (state.kind.admitsKeyword = true → within ≠ []) ∧
        Enclosed border.line after within := by
  obtain ⟨within, ahead, enclosed⟩ := confined.ahead
  cases enclosed with
  | nil noCurly => exact .inl ⟨ahead, noCurly⟩
  | cons step token starts ends admits rest =>
      have kind := State.kind_of_upcoming ahead
      rw [← kind] at step token admits
      exact .inr ⟨_, _, _, ahead, kind, step, token, starts, ends, admits, rest⟩

theorem kind_of_not_inside (confined : state.Confined border) (outside : ¬ state.Inside border) :
    state.upcoming = border.rest ∧ .openCurly ∉ state.openBrackets := by
  rcases confined.upcoming_cases with atBorder | ⟨lexed, within, _, ahead, _⟩
  · exact atBorder
  · refine absurd ?_ outside
    rw [State.Inside, ahead, List.length_cons, List.length_append]
    omega

/-- A token that starts no statement is in front of the border. -/
theorem inside_of_kind (confined : state.Confined border)
    (noStatement : state.kind.startsStatement = false) : state.Inside border := by
  by_contra outside
  obtain ⟨ahead, _⟩ := confined.kind_of_not_inside outside
  rw [State.kind_of_upcoming ahead, border.starts] at noStatement
  cases noStatement

theorem insideAt (confined : state.Confined border) {kind : Kind}
    (noStatement : kind.startsStatement = false) : state.kind = kind → state.Inside border :=
  fun here => confined.inside_of_kind (here ▸ noStatement)

/-- A curly bracket that is open is closed in front of the border. -/
theorem inside_of_open (confined : state.Confined border)
    (opened : .openCurly ∈ state.openBrackets) : state.Inside border := by
  by_contra outside
  exact (confined.kind_of_not_inside outside).2 opened

theorem kind_ne_endOfInput (confined : state.Confined border) : state.kind ≠ .endOfInput := by
  rcases confined.upcoming_cases with ⟨ahead, _⟩ | ⟨_, _, _, _, _, _, token, _⟩
  · intro ended
    have starts := border.starts
    rw [← State.kind_of_upcoming ahead, ended] at starts
    cases starts
  · exact token

/-- Passing a token in front of the border. -/
theorem advance (confined : state.Confined border) (inside : state.Inside border)
    {after : List Kind} (step : state.kind.bracketsInOrder? state.openBrackets = some after) :
    state.advance.Confined border ∧ state.advance.openBrackets = after ∧
      (state.kind.admitsKeyword = true → state.advance.Inside border) ∧
      state.advance.lastLine = border.line := by
  rcases confined.upcoming_cases with ⟨ahead, _⟩ |
    ⟨lexed, within, left, ahead, kind, inOrder, _, _, ends, admits, enclosed⟩
  · exact absurd inside (by rw [State.Inside, ahead]; omega)
  have upcoming := State.advance_upcoming_of ahead
  have brackets : state.advance.openBrackets = after := by
    rw [State.advance_openBrackets_of ahead, ← kind]
    exact Kind.bracketsAfter_eq step
  have line : state.advance.lastLine = border.line := by
    rw [State.advance_lastLine_of ahead, ends]
  obtain rfl : left = after := Option.some.inj (inOrder.symm.trans step)
  refine ⟨⟨?_, ⟨within, upcoming, brackets ▸ enclosed⟩, line.le, ?_, fun _ => line⟩, brackets,
    fun admitsHere => ?_, line⟩
  · rw [State.Reaches.advance_ending, confined.ending]
  · rw [State.Reaches.advance_upcoming]
    exact (List.tail_suffix _).length_le.trans confined.bounded
  · have some := List.length_pos_iff.2 (admits admitsHere)
    rw [State.Inside, upcoming, List.length_append]
    omega

theorem report (confined : state.Confined border) (diagnostic : Diagnostic) :
    (state.report diagnostic).Confined border :=
  ⟨confined.ending, confined.ahead, confined.notBelow, confined.bounded, confined.begun⟩

theorem deeper (confined : state.Confined border) (nesting : Nat) :
    { state with nesting := nesting }.Confined border :=
  ⟨confined.ending, confined.ahead, confined.notBelow, confined.bounded, confined.begun⟩

/-- What follows the border starts a fresh statement. -/
theorem onNewLine_of_not_inside (confined : state.Confined border)
    (outside : ¬ state.Inside border) : state.onNewLine = true := by
  obtain ⟨ahead, _⟩ := confined.kind_of_not_inside outside
  rw [State.onNewLine, State.current_of_upcoming ahead]
  exact decide_eq_true (Nat.lt_of_le_of_lt confined.notBelow border.below)

theorem startsFreshStatement_of_not_inside (confined : state.Confined border)
    (outside : ¬ state.Inside border) : Production.startsFreshStatement state = true := by
  obtain ⟨ahead, _⟩ := confined.kind_of_not_inside outside
  have peek : state.peek.kind ≠ .colon := by
    rw [State.peek, ahead, Border.rest, List.tail_cons, confined.ending]
    exact border.noKey
  rw [Production.startsFreshStatement, confined.onNewLine_of_not_inside outside,
    State.kind_of_upcoming ahead, border.starts]
  simpa using peek

/-- The tokens of the line after its first do not start a line. -/
theorem onNewLine_of_inside (confined : state.Confined border) (inside : state.Inside border)
    (line : state.lastLine = border.line) : state.onNewLine = false := by
  rcases confined.upcoming_cases with ⟨ahead, _⟩ | ⟨lexed, _, _, ahead, _, _, _, starts, _⟩
  · exact absurd inside (by rw [State.Inside, ahead]; omega)
  · rw [State.onNewLine, State.current_of_upcoming ahead, line]
    exact decide_eq_false (Nat.not_lt.2 starts)

end State.Confined

namespace Production

variable {α β : Type} {border : Border}

/-- A result in front of the border, with the brackets open that are asked for. A failure may have
opened more of them. -/
def Stays (border : Border) (left : List Kind) : EStateM.Result Diagnostic State α → Prop
  | .ok _ after => after.Confined border ∧ after.openBrackets = left
  | .error _ failed => failed.Confined border ∧ left <:+ failed.openBrackets

variable {left middle : List Kind} {state : State}

theorem stays_pure (confined : state.Confined border) (brackets : state.openBrackets = left)
    (value : α) : Stays border left ((pure value : Production α) state) :=
  ⟨confined, brackets⟩

theorem stays_throw (confined : state.Confined border) (floor : left <:+ state.openBrackets)
    (diagnostic : Diagnostic) : Stays border left ((throw diagnostic : Production α) state) :=
  ⟨confined, floor⟩

theorem stays_failHere (confined : state.Confined border) (floor : left <:+ state.openBrackets)
    (fault : Fault) : Stays border left ((failHere fault : Production α) state) :=
  ⟨confined, floor⟩

theorem stays_failUnexpected (confined : state.Confined border) (floor : left <:+ state.openBrackets)
    (expected : String) : Stays border left ((failUnexpected expected : Production α) state) :=
  ⟨confined, floor⟩

theorem Stays.bind {production : Production α} {next : α → Production β}
    (first : Stays border middle (production state)) (floor : left <:+ middle)
    (second : ∀ (value : α) (after : State), after.Confined border → after.openBrackets = middle →
      Stays border left (next value after)) :
    Stays border left ((production >>= next) state) := by
  cases result : production state with
  | ok value after =>
      rw [result] at first
      rw [bind_run_of_ok result]
      exact second value after first.1 first.2
  | error diagnostic failed =>
      rw [result] at first
      rw [bind_run_of_error result]
      exact ⟨first.1, floor.trans first.2⟩

/-- A step that is not the last of a form, and leaves the open brackets as they are. -/
theorem Stays.bind_same {production : Production α} {next : α → Production β}
    (first : Stays border left (production state))
    (second : ∀ (value : α) (after : State), after.Confined border → after.openBrackets = left →
      Stays border left (next value after)) :
    Stays border left ((production >>= next) state) :=
  first.bind List.suffix_rfl second

theorem Stays.bind_pure {production : Production α} (stays : Stays border left (production state))
    (finish : α → β) :
    Stays border left ((production >>= fun value => pure (finish value)) state) :=
  stays.bind_same fun _ _ confined brackets => stays_pure confined brackets _

theorem stays_ite {condition : Prop} [Decidable condition] {yes no : Production α}
    (left' : condition → Stays border left (yes state))
    (right' : ¬ condition → Stays border left (no state)) :
    Stays border left ((if condition then yes else no) state) := by
  rw [ite_run]
  split
  · next holds => exact left' holds
  · next fails => exact right' fails

/-- Passing an expected token in front of the border. -/
theorem stays_expectAs_bind {kind : Kind} {expected : String} {after : List Kind}
    {next : Token → Production β} (confined : state.Confined border)
    (inside : state.kind = kind → state.Inside border)
    (step : kind.bracketsInOrder? state.openBrackets = some after)
    (floor : left <:+ state.openBrackets)
    (onward : state.kind = kind → state.advance.Confined border →
      state.advance.openBrackets = after →
      (kind.admitsKeyword = true → state.advance.Inside border) →
      Stays border left (next state.current state.advance)) :
    Stays border left ((expectAs kind expected >>= next) state) := by
  by_cases here : state.kind = kind
  · rw [bind_run_of_ok ((expectAs_run _ _).trans (if_pos here))]
    obtain ⟨confinedAfter, brackets, admits, _⟩ :=
      confined.advance (inside here) (here.symm ▸ step)
    exact onward here confinedAfter brackets (here ▸ admits)
  · rw [bind_run_of_error ((expectAs_run _ _).trans (if_neg here))]
    exact ⟨confined, floor⟩

theorem stays_expectAs {kind : Kind} {expected : String} (confined : state.Confined border)
    (inside : state.kind = kind → state.Inside border)
    (step : kind.bracketsInOrder? state.openBrackets = some left)
    (floor : left <:+ state.openBrackets) :
    Stays border left (expectAs kind expected state) := by
  rw [expectAs_run]
  by_cases here : state.kind = kind
  · rw [if_pos here]
    obtain ⟨confinedAfter, brackets, _⟩ := confined.advance (inside here) (here.symm ▸ step)
    exact ⟨confinedAfter, brackets⟩
  · rw [if_neg here]
    exact ⟨confined, floor⟩

/-- Passing the current token in front of the border. -/
theorem stays_take_bind {after : List Kind} {next : Token → Production β}
    (confined : state.Confined border) (inside : state.Inside border)
    (step : state.kind.bracketsInOrder? state.openBrackets = some after)
    (onward : state.advance.Confined border → state.advance.openBrackets = after →
      (state.kind.admitsKeyword = true → state.advance.Inside border) →
      Stays border left (next state.current state.advance)) :
    Stays border left ((take >>= next) state) := by
  obtain ⟨confinedAfter, brackets, admits, _⟩ := confined.advance inside step
  rw [take_bind]
  exact onward confinedAfter brackets admits

/-- What follows a token that is neither a bracket nor the start of a statement. -/
theorem stays_after? {kind : Kind} {production : Production α} (confined : state.Confined border)
    (brackets : state.openBrackets = left) (noStatement : kind.startsStatement = false)
    (isPlain : kind.isBracket = false)
    (onward : state.advance.Confined border → state.advance.openBrackets = left →
      (kind.admitsKeyword = true → state.advance.Inside border) →
      Stays border left (production state.advance)) :
    Stays border left (after? kind production state) := by
  unfold after?
  rw [currentKind_bind]
  refine stays_ite (fun here => ?_) fun _ => stays_pure confined brackets _
  refine stays_take_bind confined (confined.insideAt noStatement here)
    (Kind.bracketsInOrder?_of_plain (here ▸ isPlain)) fun confined same admits => ?_
  exact (onward confined (same.trans brackets) (here ▸ admits)).bind_pure _

theorem stays_passIf {kind : Kind} (confined : state.Confined border)
    (brackets : state.openBrackets = left) (noStatement : kind.startsStatement = false)
    (isPlain : kind.isBracket = false) : Stays border left (passIf kind state) := by
  unfold passIf
  rw [currentKind_bind]
  refine stays_ite (fun here => ?_) fun _ => stays_pure confined brackets _
  exact stays_take_bind confined (confined.insideAt noStatement here)
    (Kind.bracketsInOrder?_of_plain (here ▸ isPlain))
    fun confined same _ => stays_pure confined (same.trans brackets) _

theorem stays_iterateWhile {continues : State → Bool} {round : α → Production α}
    (rounds : ∀ (value : α) (state : State), state.Confined border → state.openBrackets = left →
      continues state = true → Stays border left (round value state))
    (confined : state.Confined border) (brackets : state.openBrackets = left) (value : α) :
    Stays border left (iterateWhile continues round value state) := by
  unfold iterateWhile
  rw [get_bind]
  generalize state.ending :: state.upcoming = bound
  induction bound generalizing value state with
  | nil => exact stays_pure confined brackets value
  | cons _ bound inductionHypothesis =>
      unfold iterateWithin
      rw [get_bind]
      exact stays_ite
        (fun goesOn => (rounds value state confined brackets goesOn).bind_same
          fun next after confinedAfter bracketsAfter =>
            inductionHypothesis confinedAfter bracketsAfter next)
        fun _ => stays_pure confined brackets value

theorem stays_manyWhile {continues : State → Bool} {item : Production α}
    (items : ∀ state : State, state.Confined border → state.openBrackets = left →
      continues state = true → Stays border left (item state))
    (confined : state.Confined border) (brackets : state.openBrackets = left) :
    Stays border left (manyWhile continues item state) := by
  unfold manyWhile
  rw [get_bind]
  generalize state.ending :: state.upcoming = bound
  induction bound generalizing state with
  | nil => exact stays_pure confined brackets []
  | cons _ bound inductionHypothesis =>
      unfold manyWithin
      rw [get_bind]
      exact stays_ite
        (fun goesOn => (items state confined brackets goesOn).bind_same
          fun _ _ confinedAfter bracketsAfter =>
            (inductionHypothesis confinedAfter bracketsAfter).bind_pure _)
        fun _ => stays_pure confined brackets []

theorem stays_endItem (listing : Listing) (confined : state.Confined border)
    (brackets : state.openBrackets = left) : Stays border left (endItem listing state) := by
  unfold endItem
  rw [get_bind]
  refine stays_ite (fun comma => ?_) fun _ => stays_ite (fun _ => stays_pure confined brackets _)
    fun _ => stays_ite (fun _ => stays_pure confined brackets _)
      fun _ => stays_failUnexpected confined (brackets ▸ List.suffix_rfl) _
  exact stays_take_bind confined (confined.insideAt rfl comma)
    (Kind.bracketsInOrder?_of_plain (by rw [comma]; rfl))
    fun confined same _ => stays_pure confined (same.trans brackets) _

/-- Items in brackets, of which the opening one is passed. -/
theorem stays_listOf {listing : Listing} {item : Production α} {opener : Kind}
    (answers : listing.closing.opener? = some opener)
    (items : ∀ state : State, state.Confined border → state.openBrackets = opener :: left →
      state.kind ≠ listing.closing → Stays border (opener :: left) (item state))
    (confined : state.Confined border) (brackets : state.openBrackets = opener :: left) :
    Stays border left (listOf listing item state) := by
  have noStatement : listing.closing.startsStatement = false := by
    cases kind : listing.closing <;> first | rfl | (rw [kind] at answers; cases answers)
  unfold listOf
  refine (stays_manyWhile (fun state confined brackets goesOn => ?_) confined brackets).bind
    (List.suffix_cons _ _) fun _ after confined brackets => ?_
  · have notClosing : state.kind ≠ listing.closing := by simpa using goesOn
    refine (items state confined brackets notClosing).bind_same fun _ after confined brackets => ?_
    exact (stays_endItem listing confined brackets).bind_pure _
  · exact (stays_expectAs confined (confined.insideAt noStatement)
      ((Kind.bracketsInOrder?_of_closing answers).2 brackets)
      (brackets ▸ List.suffix_cons _ _)).bind_pure _

theorem Stays.deeper {production : Production α}
    (stays : Stays border left (production { state with nesting := state.nesting + 1 })) :
    Stays border left (deeper production state) := by
  unfold Production.deeper
  cases result : production { state with nesting := state.nesting + 1 } with
  | ok value after =>
      rw [result] at stays
      exact ⟨stays.1.deeper _, stays.2⟩
  | error diagnostic failed =>
      rw [result] at stays
      exact ⟨stays.1.deeper _, stays.2⟩

/-! ## Recovery -/

/-- The brackets that are open where a statement starts: none, or those of a block. -/
def StartsStatements (openBrackets : List Kind) : Prop :=
  openBrackets = [] ∨ ∃ outer, openBrackets = .openCurly :: outer

/-- Passing a token that does not end the block closes no bracket of the block or further out. -/
theorem exists_inner_advance {inner outer : List Kind} (home : StartsStatements outer)
    (confined : state.Confined border) (inside : state.Inside border)
    (brackets : state.openBrackets = inner ++ outer)
    (goesOn : inner = [] → outer ≠ [] → state.kind ≠ .closeCurly) :
    state.advance.Confined border ∧ state.advance.lastLine = border.line ∧
      ∃ left, state.advance.openBrackets = left ++ outer := by
  rcases confined.upcoming_cases with ⟨ahead, _⟩ | ⟨lexed, within, after, ahead, _, step, _⟩
  · exact absurd inside (by rw [State.Inside, ahead]; omega)
  obtain ⟨confinedAfter, bracketsAfter, _, line⟩ := confined.advance inside step
  refine ⟨confinedAfter, line, ?_⟩
  rw [bracketsAfter]
  rw [brackets] at step
  obtain isPlain | isOpener | ⟨opener, answers⟩ := state.kind.bracket_cases
  · rw [Kind.bracketsInOrder?_of_plain isPlain, Option.some.injEq] at step
    exact ⟨inner, step.symm⟩
  · rw [Kind.bracketsInOrder?_of_opener isOpener, Option.some.injEq] at step
    exact ⟨state.kind :: inner, step.symm⟩
  · rw [Kind.bracketsInOrder?_of_closing answers] at step
    cases inner with
    | cons innermost inner => exact ⟨inner, (List.cons.inj step).2.symm⟩
    | nil =>
        -- the only bracket that can be closed here is that of the block
        rcases home with none | ⟨further, isBlock⟩
        · rw [none] at step
          cases step
        · rw [isBlock] at step
          obtain ⟨rfl, _⟩ := List.cons.inj step
          refine absurd ?_ (goesOn rfl (by simp [isBlock]))
          cases kind : state.kind <;> rw [kind] at answers <;> cases answers

/-- Skipping stops at the border, where no block is open, and closes what is still open there. -/
theorem skipWithin_at_border {outer inner : List Kind} {head : Lexed} {bound : List Lexed}
    (home : StartsStatements outer) (confined : state.Confined border)
    (outside : ¬ state.Inside border) (brackets : state.openBrackets = inner ++ outer) :
    (skipWithin outer.length (head :: bound) state).Confined border ∧
      (skipWithin outer.length (head :: bound) state).openBrackets = outer := by
  obtain ⟨ahead, noCurly⟩ := confined.kind_of_not_inside outside
  obtain rfl : outer = [] := by
    rcases home with none | ⟨further, isBlock⟩
    · exact none
    · exact absurd (by simp [brackets, isBlock]) noCurly
  rw [skipWithin, if_neg confined.kind_ne_endOfInput, List.length_nil]
  by_cases opened : 0 < state.depth
  · rw [if_pos opened, if_pos (confined.startsFreshStatement_of_not_inside outside)]
    have closed : (state.closeTo 0).openBrackets = [] := State.closeTo_openBrackets brackets
    refine ⟨⟨confined.ending, ⟨[], ahead, ?_⟩, confined.notBelow, confined.bounded,
      confined.begun⟩, closed⟩
    rw [closed]
    exact .nil List.not_mem_nil
  · rw [if_neg opened, if_pos (by simp [confined.onNewLine_of_not_inside outside])]
    exact ⟨confined, List.length_eq_zero_iff.1 (Nat.eq_zero_of_not_pos opened)⟩

theorem confined_skipWithin {outer inner : List Kind} {bound : List Lexed}
    (home : StartsStatements outer) (confined : state.Confined border)
    (line : state.lastLine = border.line) (brackets : state.openBrackets = inner ++ outer)
    (enough : state.upcoming.length ≤ bound.length) :
    (skipWithin outer.length bound state).Confined border ∧
      (skipWithin outer.length bound state).openBrackets = outer := by
  induction bound generalizing state inner with
  | nil =>
      obtain ⟨within, ahead, _⟩ := confined.ahead
      rw [ahead, List.length_append, Border.rest, List.length_cons, List.length_nil] at enough
      omega
  | cons _ bound inductionHypothesis =>
      by_cases inside : state.Inside border
      · -- on the line, only the end of a block or of the line ends the skipping
        have depth := State.depth_of_openBrackets brackets
        have sameLine := confined.onNewLine_of_inside inside line
        rw [skipWithin, if_neg confined.kind_ne_endOfInput]
        have passed (goesOn : inner = [] → outer ≠ [] → state.kind ≠ .closeCurly) :
            (skipWithin outer.length bound state.advance).Confined border ∧
              (skipWithin outer.length bound state.advance).openBrackets = outer := by
          obtain ⟨confinedAfter, lineAfter, left, bracketsAfter⟩ :=
            exists_inner_advance home confined inside brackets goesOn
          have shorter : state.advance.upcoming.length ≤ bound.length := by
            rw [State.Reaches.advance_upcoming, List.length_tail]
            rw [List.length_cons] at enough
            omega
          exact inductionHypothesis confinedAfter lineAfter bracketsAfter shorter
        by_cases opened : outer.length < state.depth
        · rw [if_pos opened, if_neg (by simp [startsFreshStatement, sameLine])]
          refine passed fun closed => ?_
          rw [closed, List.length_nil] at depth
          omega
        · have closed : inner = [] := List.length_eq_zero_iff.1 (by omega)
          rw [if_neg opened]
          split_ifs with stops
          · exact ⟨confined, by rw [brackets, closed, List.nil_append]⟩
          · refine passed fun _ inBlock curly => stops ?_
            simp [curly, List.length_pos_iff.2 inBlock]
      · exact skipWithin_at_border home confined inside brackets

/-- Reading resumes in front of the border, or at it, with the brackets open that were open before the
failed statement. -/
theorem confined_recover {start failed : State} (home : StartsStatements start.openBrackets)
    (inside : start.Inside border) (goesOn : start.openBrackets ≠ [] → start.kind ≠ .closeCurly)
    (course : start.Reaches failed) (confinedStart : start.Confined border)
    (confined : failed.Confined border) (floor : start.openBrackets <:+ failed.openBrackets) :
    (recover start failed).Confined border ∧
      (recover start failed).openBrackets = start.openBrackets := by
  obtain ⟨inner, brackets⟩ := floor
  have suffix := course.upcoming_suffix
  unfold recover
  split_ifs with same
  · have unmoved : failed.upcoming = start.upcoming := suffix.eq_of_length same
    have insideFailed : failed.Inside border := by
      rw [State.Inside, unmoved]
      exact inside
    have kind : failed.kind = start.kind := by
      rw [State.kind, State.kind, State.current, State.current, unmoved, course.ending_eq]
    obtain ⟨confinedAfter, line, left, bracketsAfter⟩ := exists_inner_advance home confined
      insideFailed brackets.symm fun _ inBlock => kind ▸ goesOn inBlock
    exact confined_skipWithin home confinedAfter line bracketsAfter (Nat.le_refl _)
  · have shorter := suffix.length_le
    have bounded := confinedStart.bounded
    exact confined_skipWithin home confined (confined.begun (by omega)) brackets.symm (Nat.le_refl _)

end Production

end AgentScript
