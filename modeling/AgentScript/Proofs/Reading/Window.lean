import AgentScript.Proofs.Reading.Session
import AgentScript.Proofs.Scan.Partition
import AgentScript.Proofs.Scan.Separator
import Mathlib.Logic.Function.Iterate

/-!
Contract: the two tokens ahead, whatever calls have been made.

Owns:
- the tokens passed between two states, and that every action passes some, one after the other;
- the state after them, told from the tokens of the script;
- the same two tokens and lines as a window shows them that calls a scanner for one token at a time
  and is two tokens behind it.
-/

set_option autoImplicit false

namespace AgentScript

namespace State

/-- The tokens passed between two states, one after the other. Each is the current token of the state
that it is passed in, and nothing else moves what is ahead. -/
inductive Trail (start : State) : List Token → State → Prop where
  | refl : Trail start [] start
  | pass {passed : List Token} {state : State} :
      Trail start passed state → state.upcoming ≠ [] →
      Trail start (passed ++ [state.current]) state.advance
  | aside {passed : List Token} {state other : State} :
      Trail start passed state → other.upcoming = state.upcoming → other.ending = state.ending →
      other.lastLine = state.lastLine → Trail start passed other

namespace Trail

variable {start state after : State} {passed : List Token}

theorem trans {more : List Token} (first : start.Trail passed state)
    (second : state.Trail more after) : start.Trail (passed ++ more) after := by
  induction second with
  | refl =>
      rw [List.append_nil]
      exact first
  | pass _ ahead inductionHypothesis =>
      rw [← List.append_assoc]
      exact .pass inductionHypothesis ahead
  | aside _ upcoming ending lastLine inductionHypothesis =>
      exact .aside inductionHypothesis upcoming ending lastLine

/-- Whatever a course does, it passes tokens one after the other. -/
theorem of_reaches (course : start.Reaches after) : ∃ passed, start.Trail passed after := by
  induction course with
  | refl => exact ⟨[], .refl⟩
  | @advance start state _ inductionHypothesis =>
      obtain ⟨passed, trail⟩ := inductionHypothesis
      by_cases ended : state.upcoming = []
      · rw [advance_of_nil ended]
        exact ⟨passed, trail⟩
      · exact ⟨_, .pass trail ended⟩
  | report _ _ inductionHypothesis =>
      obtain ⟨passed, trail⟩ := inductionHypothesis
      exact ⟨passed, .aside trail rfl rfl rfl⟩
  | closeTo _ _ _ inductionHypothesis =>
      obtain ⟨passed, trail⟩ := inductionHypothesis
      exact ⟨passed, .aside trail rfl rfl rfl⟩
  | @nested start state _ _ _ outer inner =>
      obtain ⟨passed, trail⟩ := outer
      obtain ⟨more, within⟩ := inner
      have entered : start.Trail passed { state with nesting := state.nesting + 1 } :=
        .aside trail rfl rfl rfl
      exact ⟨passed ++ more, .aside (entered.trans within) rfl rfl rfl⟩

theorem of_act (state : State) (action : Action) :
    ∃ passed, state.Trail passed (state.act action) := by
  cases action with
  | call call =>
      obtain ⟨last, course, ends⟩ := call.course state
      obtain ⟨passed, trail⟩ := of_reaches course
      rcases ends with ends | ⟨depth, ends⟩
      · rw [act, ends]
        exact ⟨passed, trail⟩
      · rw [act, ends]
        exact ⟨passed, .aside trail rfl rfl rfl⟩
  | enter =>
      simp only [act]
      split
      · exact ⟨[], .aside .refl rfl rfl rfl⟩
      · exact ⟨[], .refl⟩
  | leave => exact ⟨[], .aside .refl rfl rfl rfl⟩

theorem of_follow (state : State) (actions : List Action) :
    ∃ passed, state.Trail passed (state.follow actions) := by
  induction actions generalizing state with
  | nil => exact ⟨[], .refl⟩
  | cons action actions inductionHypothesis =>
      obtain ⟨passed, first⟩ := of_act state action
      obtain ⟨more, rest⟩ := inductionHypothesis (state.act action)
      exact ⟨passed ++ more, first.trans rest⟩

/-- What is passed comes first among the tokens ahead at the start, and what is ahead follows it. -/
theorem split (trail : start.Trail passed state) :
    ∃ front, start.upcoming = front ++ state.upcoming ∧ front.map Lexed.token = passed ∧
      state.ending = start.ending ∧
      state.lastLine = front.foldl (fun _ lexed => lexed.endLine) start.lastLine := by
  induction trail with
  | refl => exact ⟨[], rfl, rfl, rfl, rfl⟩
  | @pass passed state _ ahead inductionHypothesis =>
      obtain ⟨front, split, tokens, ending, lastLine⟩ := inductionHypothesis
      obtain ⟨lexed, rest, view⟩ := List.exists_cons_of_ne_nil ahead
      refine ⟨front ++ [lexed], ?_, ?_, (Reaches.advance_ending state).trans ending, ?_⟩
      · rw [split, Reaches.advance_upcoming, view, List.append_assoc]
        rfl
      · simp [tokens, current, view]
      · simp [advance, view]
  | aside _ upcoming ending lastLine inductionHypothesis =>
      obtain ⟨front, split, tokens, endingBefore, lastLineBefore⟩ := inductionHypothesis
      exact ⟨front, by rw [upcoming, split], tokens, ending.trans endingBefore,
        lastLine.trans lastLineBefore⟩

end Trail

end State

/-! ## Scanning on demand -/

/-- After calls for the first tokens, a scanner stands in front of the others, on the line where the
last of the first ends. -/
theorem Scanner.nextTokens_front (scanner : Scanner) {front rest : List Lexed}
    (split : scanner.cursor.scan.tokens = front ++ rest) :
    (scanner.nextTokens front.length).2.cursor.scan = ⟨rest, scanner.cursor.scan.ending⟩ ∧
      (scanner.nextTokens front.length).2.position.line =
        front.foldl (fun _ lexed => lexed.endLine) scanner.position.line := by
  induction front generalizing scanner with
  | nil => exact ⟨congrArg (Scan.mk · _) split, rfl⟩
  | cons first front inductionHypothesis =>
      obtain ⟨token, rfl, onward⟩ := Cursor.scan_cons split
      change scanner.next.2.cursor.scan = _ at onward
      have following := inductionHypothesis scanner.next.2 (congrArg Scan.tokens onward)
      rw [onward] at following
      rw [List.length_cons, nextTokens_succ, List.foldl_cons, Cursor.next_endLine token]
      exact following

/-- Two tokens and the lines they end on, with the scanner that the next one is called from, and the
line that the last passed token ends on. -/
structure Window where
  scanner : Scanner
  current : Token
  currentEnd : Nat
  peek : Token
  peekEnd : Nat
  lastLine : Nat
deriving DecidableEq, Repr

namespace Window

/-- The window over the first two tokens of a scanner. -/
def ofScanner (scanner : Scanner) : Window :=
  let (current, behind) := scanner.next
  let (peek, ahead) := behind.next
  ⟨ahead, current, behind.position.line, peek, ahead.position.line, 0⟩

/-- Moves the window by one token, for which the scanner is called. At the end of input it stays. -/
def advance (window : Window) : Window :=
  if window.current.kind = .endOfInput then window
  else
    let (token, ahead) := window.scanner.next
    ⟨ahead, window.peek, window.peekEnd, token, ahead.position.line, window.currentEnd⟩

/-- A window over the two tokens that are next at a cursor. -/
structure StandsAt (window : Window) (cursor : Cursor) : Prop where
  current : window.current = cursor.next.1.token
  currentEnd : window.currentEnd = cursor.next.2.position.line
  peek : window.peek = cursor.next.2.next.1.token
  peekEnd : window.peekEnd = cursor.next.2.next.2.position.line
  scanner : window.scanner.cursor = cursor.next.2.next.2

theorem standsAt_ofScanner (scanner : Scanner) : (ofScanner scanner).StandsAt scanner.cursor :=
  ⟨rfl, rfl, rfl, rfl, rfl⟩

theorem StandsAt.advance {window : Window} {cursor : Cursor} (stands : window.StandsAt cursor)
    (token : cursor.next.1.token.kind ≠ .endOfInput) :
    window.advance.StandsAt cursor.next.2 ∧
      window.advance.lastLine = cursor.next.2.position.line := by
  obtain ⟨scanner, current, currentEnd, peek, peekEnd, lastLine⟩ := window
  obtain ⟨cursorAhead, sink⟩ := scanner
  obtain ⟨rfl, rfl, rfl, rfl, rfl⟩ := stands
  unfold Window.advance
  rw [if_neg token]
  exact ⟨⟨rfl, rfl, rfl, rfl, rfl⟩, rfl⟩

/-- A window moved over the first tokens stands in front of the others. -/
theorem StandsAt.iterate {window : Window} {cursor : Cursor} (stands : window.StandsAt cursor)
    {front rest : List Lexed} (split : cursor.scan.tokens = front ++ rest) :
    ∃ there : Cursor, there.scan = ⟨rest, cursor.scan.ending⟩ ∧
      (Window.advance^[front.length] window).StandsAt there ∧
      (Window.advance^[front.length] window).lastLine =
        front.foldl (fun _ lexed => lexed.endLine) window.lastLine := by
  induction front generalizing window cursor with
  | nil => exact ⟨cursor, congrArg (Scan.mk · _) split, stands, rfl⟩
  | cons first front inductionHypothesis =>
      obtain ⟨token, rfl, onward⟩ := Cursor.scan_cons split
      obtain ⟨standsNext, lastLine⟩ := stands.advance token
      have following := inductionHypothesis standsNext (congrArg Scan.tokens onward)
      rw [onward] at following
      rw [List.length_cons, Function.iterate_succ_apply, List.foldl_cons,
        Cursor.next_endLine token, ← lastLine]
      exact following

end Window

/-- The two tokens that come next at a cursor are the first two of its scan. -/
theorem Cursor.next_scan (cursor : Cursor) :
    cursor.next.1.token = (cursor.scan.tokens.headD cursor.scan.ending).token ∧
      cursor.next.2.next.1.token = (cursor.scan.tokens.tail.headD cursor.scan.ending).token := by
  have first (cursor : Cursor) :
      cursor.next.1.token = (cursor.scan.tokens.headD cursor.scan.ending).token := by
    by_cases ended : cursor.next.1.token.kind = .endOfInput
    · rw [scan_of_end ended]
      rfl
    · rw [scan_of_token ended]
      rfl
  refine ⟨first cursor, ?_⟩
  by_cases ended : cursor.next.1.token.kind = .endOfInput
  · rw [scan_of_end ended, next_next_of_end ended]
    rfl
  · rw [first, scan_of_token ended]
    rfl

/-- What a state and a window over a scanner have in common. -/
structure State.ShownBy (state : State) (window : Window) : Prop where
  current : state.current = window.current
  peek : state.peek = window.peek
  lastLine : state.lastLine = window.lastLine

/-! ## The state after calls -/

/-- The token at a place of a script. Past the end there is the end of input at every place. -/
def tokenAt (source : String) (place : Nat) : Option Token :=
  (tokenize source).1[min place ((tokenize source).1.length - 1)]?

/-- The line that a scanner stands on after so many calls for the next token; zero before the first.
-/
def lineAfter (source : String) (count : Nat) : Nat :=
  if count = 0 then 0 else ((Scanner.ofSource source).nextTokens count).2.position.line

section

variable {source : String} {state : State} {front : List Lexed}

theorem tokenize_of_split
    (split : (Cursor.ofSource source).scan.tokens = front ++ state.upcoming)
    (ending : state.ending = (Cursor.ofSource source).scan.ending) :
    (tokenize source).1 =
      front.map Lexed.token ++ (state.upcoming ++ [state.ending]).map Lexed.token := by
  rw [ending, ← List.map_append, ← List.append_assoc, ← split]
  rfl

theorem tokenAt_of_split
    (split : (Cursor.ofSource source).scan.tokens = front ++ state.upcoming)
    (ending : state.ending = (Cursor.ofSource source).scan.ending) :
    tokenAt source front.length = some state.current ∧
      tokenAt source (front.length + 1) = some state.peek := by
  unfold tokenAt State.current State.peek
  rw [tokenize_of_split split ending]
  cases state.upcoming with
  | nil => simp
  | cons lexed rest =>
      cases rest with
      | nil => simp
      | cons second rest => simp

theorem lineAfter_of_split {rest : List Lexed}
    (split : (Cursor.ofSource source).scan.tokens = front ++ rest) :
    lineAfter source front.length = front.foldl (fun _ lexed => lexed.endLine) 0 := by
  unfold lineAfter
  cases front with
  | nil => rfl
  | cons first front =>
      rw [if_neg (by simp)]
      exact ((Scanner.ofSource source).nextTokens_front split).2

theorem shownBy_of_split
    (split : (Cursor.ofSource source).scan.tokens = front ++ state.upcoming)
    (ending : state.ending = (Cursor.ofSource source).scan.ending)
    (lastLine : state.lastLine = front.foldl (fun _ lexed => lexed.endLine) 0) :
    state.ShownBy (Window.advance^[front.length] (Window.ofScanner (Scanner.ofSource source))) := by
  obtain ⟨there, ahead, stands, line⟩ :=
    (Window.standsAt_ofScanner (Scanner.ofSource source)).iterate split
  obtain ⟨first, second⟩ := there.next_scan
  rw [ahead] at first second
  refine ⟨?_, ?_, lastLine.trans line.symm⟩
  · rw [stands.current, first, State.current, ending]
    rfl
  · rw [stands.peek, second, State.peek, ending]
    rfl

end

/-- Whatever calls are made on a new state, some that succeed and some that fail: the tokens that were
passed are the first of the script, in order; the current token and the one after it are those that
follow; the last line is the one that a scanner stands on after as many tokens; and a window moved as
often over a scanner shows the same. -/
theorem follow_shows_next (source : String) (actions : List Action) :
    let state := (State.ofSource source).follow actions
    ∃ passed, (∀ others, (State.ofSource source).Trail others state ↔ others = passed) ∧
      passed = (tokenize source).1.take passed.length ∧
      passed.length < (tokenize source).1.length ∧
      tokenAt source passed.length = some state.current ∧
      tokenAt source (passed.length + 1) = some state.peek ∧
      state.lastLine = lineAfter source passed.length ∧
      (state.onNewLine = true ↔ lineAfter source passed.length < state.current.position.line) ∧
      state.ShownBy
        (Window.advance^[passed.length] (Window.ofScanner (Scanner.ofSource source))) := by
  intro state
  obtain ⟨passed, trail⟩ := State.Trail.of_follow (State.ofSource source) actions
  obtain ⟨front, split, rfl, ending, lastLine⟩ := trail.split
  have tokens := tokenize_of_split split ending
  have line : state.lastLine = lineAfter source front.length :=
    lastLine.trans (lineAfter_of_split split).symm
  obtain ⟨current, peek⟩ := tokenAt_of_split split ending
  refine ⟨front.map Lexed.token, fun others => ⟨fun other => ?_, fun same => same ▸ trail⟩, ?_⟩
  · obtain ⟨otherFront, otherSplit, rfl, _⟩ := other.split
    rw [List.append_cancel_right (otherSplit.symm.trans split)]
  · rw [List.length_map]
    refine ⟨?_, ?_, current, peek, line, ?_, shownBy_of_split split ending lastLine⟩
    · rw [tokens, List.take_left' (List.length_map ..)]
    · simp [tokens]
    · rw [← line]
      simp [State.onNewLine]

/-- A template of two lines ends on the second, so what follows it there is on no new line. -/
example :
    let state := (State.ofSource "x = \x60a\nb\x60 y").follow
      [.call (.expect .identifier "name"), .call .block, .call .advance, .call (.expression .call)]
    state.lastLine = 2 ∧ state.current.value = "y" ∧ state.onNewLine = false := by
  decide +kernel

end AgentScript
