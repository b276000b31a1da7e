import AgentScript.Proofs.Reading.Progress.Productions
import AgentScript.Proofs.Scan.Order
import AgentScript.Proofs.Tree.Tokens

/-!
Contract: the tokens that a reading passes, and what it keeps of them.

Owns:
- the tokens passed between two states of a reading, which lie in source order;
- productions whose values keep only tokens that are passed for them, and how such productions are put
  together.
-/

set_option autoImplicit false

namespace AgentScript

/-! ## Tokens passed between two states -/

namespace State

/-- A token that is passed between two states. -/
def Passes (start after : State) (token : Token) : Prop :=
  ∃ passed, start.upcoming = passed ++ after.upcoming ∧ token ∈ passed.map Lexed.token

/-- A scanned state with the tokens ahead in source order. -/
structure Ordered (state : State) : Prop where
  scanned : state.Scanned
  pairwise : (state.upcoming.map Lexed.token).Pairwise fun left right =>
    left.position.Before right.position

section

variable {first start middle after last : State} {token : Token}

theorem Passes.widen (passes : start.Passes after token) (left : first.Reaches start)
    (right : after.Reaches last) : first.Passes last token := by
  obtain ⟨passed, split, member⟩ := passes
  obtain ⟨before, splitBefore⟩ := left.upcoming_suffix
  obtain ⟨more, splitMore⟩ := right.upcoming_suffix
  refine ⟨before ++ passed ++ more, ?_, ?_⟩
  · rw [← splitBefore, split, ← splitMore]
    simp
  · rw [List.map_append, List.map_append]
    exact List.mem_append_left _ (List.mem_append_right _ member)

theorem Passes.mem (passes : start.Passes after token) :
    token ∈ start.upcoming.map Lexed.token := by
  obtain ⟨passed, split, member⟩ := passes
  rw [split, List.map_append]
  exact List.mem_append_left _ member

/-- What passes a token passes the current one. -/
theorem passes_current_of_lt (course : start.Reaches after)
    (shorter : after.upcoming.length < start.upcoming.length) :
    start.Passes after start.current := by
  obtain ⟨passed, split⟩ := course.upcoming_suffix
  cases passed with
  | nil =>
      rw [← split] at shorter
      exact absurd shorter (Nat.lt_irrefl _)
  | cons lexed more => exact ⟨lexed :: more, split.symm, by simp [State.current, ← split]⟩

theorem Scanned.passes_current (scanned : start.Scanned) (isToken : start.kind ≠ .endOfInput)
    (course : start.advance.Reaches after) : start.Passes after start.current := by
  obtain ⟨lexed, ahead, current⟩ := scanned.exists_current isToken
  have passes : start.Passes start.advance start.current :=
    ⟨[lexed], ahead, by rw [← current]; exact List.mem_singleton_self _⟩
  exact passes.widen (.refl start) course

namespace Ordered

theorem of_reaches (ordered : start.Ordered) (course : start.Reaches after) : after.Ordered :=
  ⟨ordered.scanned.of_reaches course,
    ordered.pairwise.sublist (course.upcoming_suffix.map _).sublist⟩

theorem advance (ordered : start.Ordered) : start.advance.Ordered :=
  ordered.of_reaches (Reaches.refl start).advance

theorem deeper (ordered : start.Ordered) (nesting : Nat) :
    { start with nesting := nesting }.Ordered :=
  ⟨ordered.scanned.deeper nesting, ordered.pairwise⟩

/-- What is passed up to a state stands before what is passed from there on. -/
theorem before (ordered : start.Ordered) {left right : Token} (passesLeft : start.Passes middle left)
    (passesRight : middle.Passes after right) : left.position.Before right.position := by
  obtain ⟨passed, split, member⟩ := passesLeft
  have pairwise := ordered.pairwise
  rw [split, List.map_append] at pairwise
  exact (List.pairwise_append.1 pairwise).2.2 left member right passesRight.mem

/-- Nothing is passed from a state on that stands before its current token. -/
theorem current_le (ordered : start.Ordered) (passes : start.Passes after token) :
    start.current.position ≤ token.position := by
  have member := passes.mem
  have isToken : start.kind ≠ .endOfInput := by
    intro ended
    rw [ordered.scanned.kind_eq_endOfInput_iff.1 ended] at member
    cases member
  obtain ⟨lexed, ahead, current⟩ := ordered.scanned.exists_current isToken
  have pairwise := ordered.pairwise
  rw [ahead, List.map_cons, current] at member pairwise
  rcases List.mem_cons.1 member with rfl | later
  · exact Position.le_rfl
  · exact ((List.pairwise_cons.1 pairwise).1 token later).le

end Ordered

theorem ordered_ofSource (source : String) : (State.ofSource source).Ordered := by
  refine ⟨State.scanned_ofSource source, ?_⟩
  have pairwise := (Cursor.ofSource source).scan_pairwise
  rw [Scan.allTokens, List.map_append] at pairwise
  exact (List.pairwise_append.1 pairwise).1

end

end State

theorem Node.KeptAmong.widen {first start after last : State} {node : Node}
    (kept : node.KeptAmong (start.Passes after)) (left : first.Reaches start)
    (right : after.Reaches last) : node.KeptAmong (first.Passes last) :=
  kept.mono fun _ passes => passes.widen left right

namespace Production

variable {α : Type}

/-! ## Productions that gather tokens -/

/-- What is read keeps only tokens that are passed for it. -/
def Gathers (production : Production α) (kept : (Token → Prop) → α → Prop) : Prop :=
  ∀ (state after : State) (value : α), state.Ordered → production state = .ok value after →
    kept (state.Passes after) value

/-- Among more tokens still more is kept. -/
def Widens (kept : (Token → Prop) → α → Prop) : Prop :=
  ∀ (small large : Token → Prop) (value : α), (∀ token, small token → large token) →
    kept small value → kept large value

theorem widens_node (node : α → Node) : Widens fun among value => (node value).KeptAmong among :=
  fun _ _ _ included kept => kept.mono included

theorem gathers_tooDeep (kept : (Token → Prop) → α → Prop) :
    (tooDeep : Production α).Gathers kept := fun _ _ _ _ read => nomatch read

section

variable {production : Production α} {kept : (Token → Prop) → α → Prop}

theorem Gathers.deeper (gathers : production.Gathers kept) : (deeper production).Gathers kept := by
  intro state after value ordered read
  obtain ⟨inside, readInside, rfl⟩ := deeper_ok_iff.1 read
  exact gathers { state with nesting := state.nesting + 1 } inside value (ordered.deeper _) readInside

theorem Gathers.after? (gathers : production.Gathers kept) (widens : Widens kept) (kind : Kind) :
    (after? kind production).Gathers fun among value? => ∀ value ∈ value?, kept among value := by
  intro state after value? ordered read
  obtain ⟨_, value, readValue, rfl⟩ | ⟨_, rfl, _⟩ := after?_ok_iff.1 read
  · rintro _ ⟨⟩
    exact widens _ _ value (fun _ passes => passes.widen (State.Reaches.refl state).advance (.refl _))
      (gathers _ _ _ ordered.advance readValue)
  · simp

variable (proceeds : production.Proceeds) (consumes : production.Consumes)

include proceeds consumes in
theorem Gathers.manyWhile (gathers : production.Gathers kept) (widens : Widens kept)
    (continues : State → Bool) :
    (manyWhile continues production).Gathers fun among values =>
      ∀ value ∈ values, kept among value := by
  intro state after values ordered read
  have repeated := (manyWhile_ok_iff proceeds consumes ordered.scanned).1 read
  clear read
  induction repeated with
  | stop => simp
  | @item state middle after first rest _ readFirst repeated inductionHypothesis =>
      have course := proceeds.of_ok readFirst
      refine List.forall_mem_cons.2 ⟨?_, fun value member => ?_⟩
      · exact widens _ _ first
          (fun _ passes => passes.widen (.refl state) (repeated.reaches proceeds))
          (gathers _ _ _ ordered readFirst)
      · exact widens _ _ value (fun _ passes => passes.widen course (.refl after))
          (inductionHypothesis (ordered.of_reaches course) value member)

theorem Gathers.listItem (gathers : production.Gathers kept) (widens : Widens kept)
    (listing : Listing) : (listItem listing production).Gathers kept := by
  intro state after value ordered read
  obtain ⟨first, middle, readFirst, readEnd⟩ := bind_ok_iff.1 read
  obtain ⟨_, next, ended, ⟨⟩⟩ := bind_ok_iff.1 readEnd
  exact widens _ _ _
    (fun _ passes => passes.widen (.refl state) ((proceeds_endItem listing).of_ok ended))
    (gathers _ _ _ ordered readFirst)

include proceeds consumes in
theorem Gathers.listOf (gathers : production.Gathers kept) (widens : Widens kept)
    (listing : Listing) :
    (listOf listing production).Gathers fun among values => ∀ value ∈ values, kept among value := by
  intro state after values ordered read
  rw [listOf_eq] at read
  obtain ⟨_, before, readItems, readClosing⟩ := bind_ok_iff.1 read
  obtain ⟨_, ⟨⟩⟩ := expect_bind_ok_iff.1 readClosing
  have gathered := (gathers.listItem widens listing).manyWhile (proceeds.listItem listing)
    (consumes.listItem listing) widens _ _ _ _ ordered readItems
  exact fun value member => widens _ _ value
    (fun _ passes => passes.widen (.refl state) (State.Reaches.refl before).advance)
    (gathered value member)

end

end Production

end AgentScript
