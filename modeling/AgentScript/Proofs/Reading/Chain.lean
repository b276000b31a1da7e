import AgentScript.Proofs.Reading.Ahead
import AgentScript.Proofs.Reading.Inversion
import AgentScript.Proofs.Reading.Succession
import AgentScript.Proofs.Tree.Chain

/-!
Contract: a chain of operands is read as its tree.

Owns:
- the loop that continues an expression, on accesses and on operators;
- that a level reads, for every binding power, the links whose operators bind tighter, and reports
  too deep a nesting exactly when their tree takes more levels than there is room for;
- scripts that consist of one chain.

While the loop runs, no operator that is read already binds looser than the next one. This is what
lets each operator take all that is read so far as its left side.
-/

set_option autoImplicit false

namespace AgentScript

/-- How tightly the operator of a link binds. -/
def Link.power (link : Link) : BindingPower := link.operator.kind.power

theorem BindingPower.lt_trans {first second third : BindingPower} (left : first < second)
    (right : second < third) : first < third :=
  Nat.lt_trans left right

theorem Link.power_lt_power_iff {left right : Link} :
    left.power < right.power ↔ left.tier < right.tier :=
  Kind.power_lt_power_iff left.joins right.joins

/-- The links at the start that bind tighter than a power, and the others. -/
theorem exists_tighter (power : BindingPower) (links : List Link) :
    ∃ tighter others, links = tighter ++ others ∧ (∀ link ∈ tighter, power < link.power) ∧
      ∀ link ∈ others.head?, ¬ power < link.power := by
  induction links with
  | nil => exact ⟨[], [], rfl, by simp, by simp⟩
  | cons first rest inductionHypothesis =>
      by_cases binds : power < first.power
      · obtain ⟨tighter, others, rfl, areTighter, stops⟩ := inductionHypothesis
        exact ⟨first :: tighter, others, rfl, List.forall_mem_cons.2 ⟨binds, areTighter⟩, stops⟩
      · refine ⟨[], first :: rest, rfl, by simp, ?_⟩
        rintro _ ⟨⟩
        exact binds

/-- A name, number or string stands for its tree. -/
theorem Operand.tokenOperand?_base (operand : Operand) (spelled : operand.base.WellSpelled) :
    Production.tokenOperand? operand.base = some operand.base.atom := by
  unfold Production.tokenOperand? Token.atom
  rcases operand.base_kind with kind | kind | kind
  · rw [kind]
  · rw [Token.WellSpelled, kind] at spelled
    obtain ⟨value, found⟩ := Decimal.ofText?_isSome spelled
    rw [kind, found]
    rfl
  · rw [kind]

/-! ## How tightly the next token binds -/

namespace State

variable {state : State}

theorem power_eq (anyLine : state.kind.needsSameLine = false) : state.power = state.kind.power := by
  rw [State.power, anyLine, Bool.false_and, if_neg Bool.false_ne_true]

theorem power_eq_default (loose : state.kind.power = .default) : state.power = .default := by
  rw [State.power, loose, ite_self]

namespace Ahead

variable {rest : List Token}

theorem power_of_link {link : Link} (ahead : state.Ahead (link.tokens ++ rest)) :
    state.power = link.power := by
  have kind : state.kind = link.operator.kind := ahead.kind
  rw [State.power_eq (by rw [kind, Kind.needsSameLine_of_joins link.joins]), kind]
  rfl

theorem power_of_access {access : Access} (ahead : state.Ahead (access.tokens ++ rest)) :
    state.power = .member := by
  have kind : state.kind = .dot := ahead.kind.trans access.dot_kind
  rw [State.power_eq (by rw [kind]; rfl), kind]
  rfl

end Ahead

end State

/-- Tokens of which the first, if there is one, does not continue an expression. -/
def Loose (tokens : List Token) : Prop := ∀ token ∈ tokens.head?, token.kind.power = .default

theorem State.Ahead.power_of_loose {state : State} {rest : List Token} (ahead : state.Ahead rest)
    (loose : Loose rest) : state.power = .default := by
  refine State.power_eq_default ?_
  cases rest with
  | nil =>
      rw [ahead.kind_of_nil]
      rfl
  | cons token rest =>
      rw [ahead.kind]
      exact loose token rfl

/-- The tokens of links, one after the other. -/
def tokensOfLinks (links : List Link) : List Token := links.flatMap Link.tokens

theorem tokensOfLinks_cons (link : Link) (links : List Link) :
    tokensOfLinks (link :: links) = link.tokens ++ tokensOfLinks links := List.flatMap_cons

theorem tokensOfLinks_append (left right : List Link) :
    tokensOfLinks (left ++ right) = tokensOfLinks left ++ tokensOfLinks right := List.flatMap_append

/-- In front of links of which the first does not bind tighter than asked for, nothing does. -/
theorem State.Ahead.not_lt_power {state : State} {power : BindingPower} {links : List Link}
    {rest : List Token} (ahead : state.Ahead (tokensOfLinks links ++ rest))
    (stops : ∀ link ∈ links.head?, ¬ power < link.power) (loose : Loose rest) :
    ¬ power < state.power := by
  cases links with
  | nil =>
      have aheadRest : state.Ahead rest := ahead
      rw [aheadRest.power_of_loose loose]
      exact Nat.not_lt_zero _
  | cons link links =>
      rw [tokensOfLinks_cons, List.append_assoc] at ahead
      rw [ahead.power_of_link]
      exact stops link rfl

/-- What stops an operator that binds tighter than asked for is an operator left over by it, or what
stops the whole chain. -/
theorem Link.stops_append {power : BindingPower} {link : Link} {later remaining : List Link}
    (binds : power < link.power) (laterStops : ∀ other ∈ later.head?, ¬ link.power < other.power)
    (stops : ∀ other ∈ remaining.head?, ¬ power < other.power) :
    ∀ other ∈ (later ++ remaining).head?, ¬ link.power < other.power := by
  cases later with
  | nil => exact fun other isHead both => stops other isHead (BindingPower.lt_trans binds both)
  | cons other later => exact laterStops

/-- The operator that stops another one is not tighter than this one and all those before it. -/
theorem Link.tier_le_of_stops {done absorbed : List Link} {link next : Link}
    (doneTighter : ∀ other ∈ done, link.tier ≤ other.tier)
    (absorbedTighter : ∀ other ∈ absorbed, link.tier < other.tier)
    (stops : ¬ link.power < next.power) :
    ∀ other ∈ done ++ link :: absorbed, next.tier ≤ other.tier := by
  intro other member
  have notTighter : next.tier ≤ link.tier :=
    Nat.not_lt.1 fun tighter => stops (Link.power_lt_power_iff.2 tighter)
  rcases List.mem_append.1 member with inDone | inRest
  · exact notTighter.trans (doneTighter other inDone)
  · rcases List.mem_cons.1 inRest with rfl | inAbsorbed
    · exact notTighter
    · exact notTighter.trans (Nat.le_of_lt (absorbedTighter other inAbsorbed))

namespace Production

variable {inner : Level} {room : Nat} {power : BindingPower} {state : State} {rest : List Token}

/-- The level reads a chain up to an operator that does not bind tighter than asked for. -/
def ReadsChains (inner : Level) (room : Nat) : Prop :=
  ∀ (power : BindingPower) (first : Operand) (taken remaining : List Link) (rest : List Token)
    (state : State), power < .call → (∀ link ∈ taken, power < link.power) →
    (∀ link ∈ remaining.head?, ¬ power < link.power) → Loose rest →
    state.Ahead (first.tokens ++ tokensOfLinks taken ++ tokensOfLinks remaining ++ rest) →
    (inner.expression power).Yields state ((treeOf first taken).levels 0 ≤ room) fun read after =>
      read = treeOf first taken ∧ after.Ahead (tokensOfLinks remaining ++ rest)

/-- The loop that continues an expression. -/
abbrev continued (inner : Level) (power : BindingPower) : Expr → Production Expr :=
  iterateWhile (fun state => power < state.power) (continuation inner)

section

variable (proceeds : LevelProceeds inner)

include proceeds in
theorem continued_run (scanned : state.Scanned) (left : Expr) :
    continued inner power left state =
      if power < state.power then (continuation inner left >>= continued inner power) state
      else .ok left state := by
  have run := iterateWhile_run (proceeds_continuation proceeds)
    (continuation_consumes proceeds power) scanned left
  simpa using run

include proceeds in
/-- The loop goes through all accesses. -/
theorem exists_continued_accesses (accesses : List Access) (object : Expr) (below : power < .call)
    (ahead : state.Ahead (accesses.flatMap Access.tokens ++ rest)) :
    ∃ after, after.Ahead rest ∧
      continued inner power object state =
        continued inner power (accesses.foldl Access.tree object) after := by
  induction accesses generalizing object state with
  | nil => exact ⟨state, ahead, rfl⟩
  | cons access accesses inductionHypothesis =>
      rw [List.flatMap_cons, List.append_assoc] at ahead
      have dot : state.kind = .dot := ahead.kind.trans access.dot_kind
      have name : state.advance.kind = access.name.kind := ahead.advance.kind
      have read : continuation inner object state =
          .ok (access.tree object) state.advance.advance := by
        rw [continuation_run, dot]
        refine member_ok_iff.2 ⟨by rw [name, access.name_namesMember], ?_, rfl⟩
        rw [ahead.current, ahead.advance.current]
        rfl
      obtain ⟨after, aheadAfter, run⟩ := inductionHypothesis (access.tree object)
        ahead.advance.advance
      refine ⟨after, aheadAfter, ?_⟩
      have binds : power < .member := BindingPower.lt_trans below (by decide)
      rw [continued_run proceeds ahead.scanned, ahead.power_of_access, if_pos binds,
        List.foldl_cons, ← run]
      exact bind_run_of_ok read

/-- A round of the loop on a link: the operator takes the links after it that bind tighter. -/
theorem yields_link (reads : ReadsChains inner room) (left : Expr) (link : Link)
    (absorbed remaining : List Link) (tighter : ∀ other ∈ absorbed, link.power < other.power)
    (stops : ∀ other ∈ remaining.head?, ¬ link.power < other.power) (loose : Loose rest)
    (ahead : state.Ahead (link.tokens ++ tokensOfLinks absorbed ++ tokensOfLinks remaining ++ rest)) :
    (continuation inner left).Yields state ((treeOf link.operand absorbed).levels 0 ≤ room)
      fun read after => read = link.node left (treeOf link.operand absorbed) ∧
        after.Ahead (tokensOfLinks remaining ++ rest) := by
  have kind : state.kind = link.operator.kind := ahead.kind
  have current : state.current = link.operator := ahead.current
  have boundTo : state.power = link.power :=
    State.Ahead.power_of_link (by simpa only [List.append_assoc] using ahead)
  have belowCall : link.power < .call :=
    BindingPower.lt_trans (Kind.power_lt_unary_of_joins link.joins) (by decide)
  have right := reads link.power link.operand absorbed remaining rest state.advance belowCall tighter
    stops loose ahead.advance
  have whole : (inner.expression link.power >>= fun right =>
      (pure (link.node left right) : Production Expr)).Yields state.advance
      ((treeOf link.operand absorbed).levels 0 ≤ room ∧ True) fun read after =>
        read = link.node left (treeOf link.operand absorbed) ∧
          after.Ahead (tokensOfLinks remaining ++ rest) :=
    right.bind (fun _ => proceeds_pure _) fun _ read after isTree =>
      yields_pure ⟨by rw [isTree.1], isTree.2⟩
  refine (whole.of_iff (and_iff_left trivial)).congr ?_
  rw [continuation_run, kind, Kind.infixForm?_of_joins link.joins, boundTo]
  unfold Link.node
  by_cases isPipe : link.operator.kind = .pipe
  · simp only [isPipe, if_true, pipe, take_bind, current]
  · simp only [isPipe, if_false, binary, take_bind, current]

include proceeds in
/-- The loop goes through all links whose operators bind tighter than asked for. -/
theorem yields_links (reads : ReadsChains inner room) (first : Operand)
    (done taken remaining : List Link) (tighter : ∀ link ∈ taken, power < link.power)
    (stops : ∀ link ∈ remaining.head?, ¬ power < link.power) (loose : Loose rest)
    (noneLooser : ∀ next ∈ taken.head?, ∀ other ∈ done, next.tier ≤ other.tier)
    (fits : (treeOf first done).levels 0 ≤ room + 1)
    (ahead : state.Ahead (tokensOfLinks taken ++ tokensOfLinks remaining ++ rest)) :
    (continued inner power (treeOf first done)).Yields state
      ((treeOf first (done ++ taken)).levels 0 ≤ room + 1) fun read after =>
        read = treeOf first (done ++ taken) ∧ after.Ahead (tokensOfLinks remaining ++ rest) := by
  induction size : taken.length using Nat.strongRecOn generalizing done taken state with
  | ind size inductionHypothesis =>
      cases taken with
      | nil =>
          have aheadRest : state.Ahead (tokensOfLinks remaining ++ rest) := ahead
          have run : continued inner power (treeOf first done) state = _ :=
            continued_run proceeds aheadRest.scanned (treeOf first done)
          rw [if_neg (aheadRest.not_lt_power stops loose)] at run
          rw [List.append_nil]
          exact (yields_of_ok run ⟨rfl, aheadRest⟩).of_iff (iff_of_true trivial fits)
      | cons link more =>
          -- the operator takes the links that bind tighter; the others wait for it
          obtain ⟨absorbed, later, rfl, absorbedTighter, laterStops⟩ := exists_tighter link.power more
          have binds : power < link.power := tighter link List.mem_cons_self
          have laterTighter : ∀ other ∈ later, power < other.power := fun other member =>
            tighter other (List.mem_cons_of_mem _ (List.mem_append_right _ member))
          have doneTighter : ∀ other ∈ done, link.tier ≤ other.tier := noneLooser link rfl
          have absorbedTier : ∀ other ∈ absorbed, link.tier < other.tier := fun other member =>
            Link.power_lt_power_iff.1 (absorbedTighter other member)
          have node : treeOf first (done ++ link :: absorbed) =
              link.node (treeOf first done) (treeOf link.operand absorbed) :=
            treeOf_append doneTighter absorbedTier
          have together : done ++ link :: (absorbed ++ later) =
              done ++ link :: absorbed ++ later := by
            simp
          have aheadLink : state.Ahead (link.tokens ++ tokensOfLinks absorbed ++
              tokensOfLinks (later ++ remaining) ++ rest) := by
            simpa [tokensOfLinks_cons, tokensOfLinks_append] using ahead
          have bound : state.power = link.power :=
            State.Ahead.power_of_link (by simpa only [List.append_assoc] using aheadLink)
          have round := yields_link reads (treeOf first done) link absorbed (later ++ remaining)
            absorbedTighter (Link.stops_append binds laterStops stops) loose aheadLink
          have noneLooserNext : ∀ next ∈ later.head?, ∀ other ∈ done ++ link :: absorbed,
              next.tier ≤ other.tier := fun next isNext =>
            Link.tier_le_of_stops doneTighter absorbedTier (laterStops next isNext)
          have whole : (continuation inner (treeOf first done) >>= continued inner power).Yields state
              ((treeOf link.operand absorbed).levels 0 ≤ room ∧
                (treeOf first (done ++ link :: (absorbed ++ later))).levels 0 ≤ room + 1)
              fun read after => read = treeOf first (done ++ link :: (absorbed ++ later)) ∧
                after.Ahead (tokensOfLinks remaining ++ rest) := by
            refine round.bind (fun _ => .iterateWhile (proceeds_continuation proceeds) _ _) ?_
            rintro rightFits _ after ⟨rfl, aheadLater⟩
            rw [← node, together]
            refine inductionHypothesis later.length ?_ _ later laterTighter noneLooserNext ?_ ?_ rfl
            · simp at size ⊢
              omega
            · rw [node, Link.levels_node]
              omega
            · simpa [tokensOfLinks_append] using aheadLater
          have run : continued inner power (treeOf first done) state = _ :=
            continued_run proceeds ahead.scanned (treeOf first done)
          rw [bound, if_pos binds] at run
          refine (whole.of_iff (and_iff_right_of_imp fun wholeFits => ?_)).congr run
          have atMost := levels_treeOf_append_le first (done ++ link :: absorbed) later
          rw [node, Link.levels_node, ← together] at atMost
          omega

/-- A name, number or string is read by itself, before its accesses. -/
theorem operand_run_base (first : Operand) (noSigns : first.signs = [])
    (ahead : state.Ahead (first.tokens ++ rest)) :
    operand inner state = .ok first.base.atom state.advance ∧
      state.advance.Ahead (first.accesses.flatMap Access.tokens ++ rest) := by
  rw [Operand.tokens, noSigns, List.nil_append, List.cons_append] at ahead
  have form : state.kind.operandForm? = some .primary := by
    rw [ahead.kind]
    rcases first.base_kind with kind | kind | kind <;> rw [kind] <;> rfl
  refine ⟨?_, ahead.advance⟩
  rw [operand_run, form]
  refine primary_ok_iff.2 ⟨?_, rfl⟩
  rw [ahead.current]
  exact first.tokenOperand?_base ahead.wellSpelled

/-- An operand with a sign before it is read whole. -/
theorem yields_operand_signed (reads : ReadsChains inner room) (first : Operand) {sign : Token}
    {signs : List Token} (signed : first.signs = sign :: signs) (links : List Link)
    (loose : Loose rest) (ahead : state.Ahead (first.tokens ++ tokensOfLinks links ++ rest)) :
    (operand inner).Yields state (first.tree.levels 0 ≤ room + 1) fun read after =>
      read = first.tree ∧ after.Ahead (tokensOfLinks links ++ rest) := by
  obtain ⟨_, base, accesses, signsKind, baseKind⟩ := first
  subst signed
  obtain ⟨signKind, restKind⟩ := List.forall_mem_cons.1 signsKind
  let unsigned : Operand := ⟨signs, base, accesses, restKind, baseKind⟩
  have aheadSign : state.Ahead (sign :: (unsigned.tokens ++ tokensOfLinks [] ++
      tokensOfLinks links ++ rest)) := by
    simpa [Operand.tokens, tokensOfLinks, unsigned] using ahead
  have stops : ∀ link ∈ links.head?, ¬ BindingPower.unary < link.power := fun link _ =>
    Nat.lt_asymm (Kind.power_lt_unary_of_joins link.joins)
  have inside := reads .unary unsigned [] links rest state.advance (by decide) (by simp) stops loose
    aheadSign.advance
  rw [treeOf_nil] at inside
  have whole : (inner.expression .unary >>= fun value =>
      (pure (.unary sign value) : Production Expr)).Yields state.advance
      (unsigned.tree.levels 0 ≤ room ∧ True) fun read after =>
        read = .unary sign unsigned.tree ∧ after.Ahead (tokensOfLinks links ++ rest) :=
    inside.bind (fun _ => proceeds_pure _) fun _ read after isTree =>
      yields_pure ⟨by rw [isTree.1], isTree.2⟩
  refine (whole.of_iff ?_).congr ?_
  · rw [and_iff_left trivial]
    exact Nat.succ_le_succ_iff.symm
  · have form : state.kind.operandForm? = some .unary := by
      rw [aheadSign.kind]
      rcases signKind with kind | kind <;> rw [kind] <;> rfl
    rw [operand_run, form]
    simp only [unary, take_bind, aheadSign.current]

include proceeds in
theorem yields_expressionAt (reads : ReadsChains inner room) (first : Operand)
    (taken remaining : List Link) (below : power < .call)
    (tighter : ∀ link ∈ taken, power < link.power)
    (stops : ∀ link ∈ remaining.head?, ¬ power < link.power) (loose : Loose rest)
    (ahead : state.Ahead (first.tokens ++ tokensOfLinks taken ++ tokensOfLinks remaining ++ rest)) :
    (expressionAt inner power).Yields state ((treeOf first taken).levels 0 ≤ room + 1)
      fun read after => read = treeOf first taken ∧
        after.Ahead (tokensOfLinks remaining ++ rest) := by
  -- what is left to do once the operand is read
  have goesOn (after : State) (fits : first.tree.levels 0 ≤ room + 1)
      (aheadLinks : after.Ahead (tokensOfLinks taken ++ tokensOfLinks remaining ++ rest)) :
      (continued inner power first.tree).Yields after ((treeOf first taken).levels 0 ≤ room + 1)
        fun read after => read = treeOf first taken ∧
          after.Ahead (tokensOfLinks remaining ++ rest) := by
    have whole := yields_links proceeds reads first [] taken remaining tighter stops loose
      (fun _ _ _ member => nomatch member) (by rwa [treeOf_nil]) aheadLinks
    rwa [treeOf_nil, List.nil_append] at whole
  have atLeast : first.tree.levels 0 ≤ (treeOf first taken).levels 0 := by
    rw [← treeOf_nil first]
    exact levels_treeOf_append_le first [] taken
  cases signed : first.signs with
  | nil =>
      have alone : first.tree = first.accessed := by rw [Operand.tree, signed, List.foldr_nil]
      obtain ⟨read, aheadAccesses⟩ : operand inner state = .ok first.base.atom state.advance ∧ _ :=
        operand_run_base first signed (by simpa only [List.append_assoc] using ahead)
      obtain ⟨after, aheadLinks, run⟩ :=
        exists_continued_accesses proceeds first.accesses first.base.atom below aheadAccesses
      refine (goesOn after ?_ (by simpa only [List.append_assoc] using aheadLinks)).congr ?_
      · rw [alone, first.levels_accessed]
        exact Nat.le_add_left 1 room
      · rw [alone, Operand.accessed, ← run]
        exact bind_run_of_ok read
  | cons sign signs =>
      have whole : (operand inner >>= continued inner power).Yields state
          (first.tree.levels 0 ≤ room + 1 ∧ (treeOf first taken).levels 0 ≤ room + 1)
          fun read after => read = treeOf first taken ∧
            after.Ahead (tokensOfLinks remaining ++ rest) := by
        refine (yields_operand_signed reads first signed (taken ++ remaining) loose
          (by simpa [tokensOfLinks_append] using ahead)).bind
          (fun _ => .iterateWhile (proceeds_continuation proceeds) _ _) ?_
        rintro fits _ after ⟨rfl, aheadLinks⟩
        exact goesOn after fits (by simpa [tokensOfLinks_append] using aheadLinks)
      exact whole.of_iff (and_iff_right_of_imp fun fits => Nat.le_trans atLeast fits)

end

/-- With so many levels to enter, the chains are read whose trees take no more levels. -/
theorem readsChains_withRoom (room : Nat) : ReadsChains (Level.withRoom room) room := by
  intro power first taken remaining rest state below tighter stops loose ahead
  induction room generalizing power first taken remaining rest state with
  | zero =>
      exact yields_tooDeep.of_iff (iff_of_false id (Nat.not_le.2 (Expr.levels_pos 0 _)))
  | succ room inductionHypothesis =>
      refine Yields.deeper ?_
      refine (yields_expressionAt (levelProceeds_withRoom room) inductionHypothesis first taken
        remaining below tighter stops loose (ahead.deeper _)).imp fun read after isTree => ?_
      exact ⟨isTree.1, isTree.2.deeper _⟩

/-- After a name, number or string of a chain stands no sign that only follows a name. -/
theorem noAssign_of_ahead {accesses : List Access} {links : List Link}
    (ahead : state.Ahead (accesses.flatMap Access.tokens ++ links.flatMap Link.tokens)) :
    state.kind ≠ .assign ∧ state.kind ≠ .colon := by
  cases accesses with
  | cons access accesses =>
      have kind : state.kind = .dot := ahead.kind.trans access.dot_kind
      simp [kind]
  | nil =>
      cases links with
      | nil => simp [State.Ahead.kind_of_nil ahead]
      | cons link links =>
          have kind : state.kind = link.operator.kind := ahead.kind
          rw [kind]
          exact Kind.of_joins link.joins (by decide)

theorem current_of_ahead {chain : Chain} (ahead : state.Ahead chain.tokens) :
    state.current = chain.first.head := by
  obtain ⟨rest, tokens⟩ := chain.first.exists_tokens
  rw [Chain.tokens, tokens] at ahead
  exact ahead.current

/-- A chain starts no statement of another form. -/
theorem statement_run_of_chain (inner : Level) (chain : Chain) (ahead : state.Ahead chain.tokens) :
    Production.statement inner state = expressionStatement inner state := by
  have kind : state.kind = chain.first.head.kind := congrArg Token.kind (current_of_ahead ahead)
  have noForm : state.kind.statementForm? = none := by
    rw [kind]
    exact (by decide : ∀ kind ∈ [Kind.not, .dash, .identifier, .number, .string],
      kind.statementForm? = none) _ chain.first.head_kind
  have starts : startsAssignment state = false := by
    obtain ⟨⟨signs, base, accesses, signsKind, baseKind⟩, links⟩ := chain
    cases signs with
    | nil =>
        rw [Chain.tokens, Operand.tokens, List.nil_append, List.cons_append] at ahead
        obtain ⟨noAssign, noColon⟩ := noAssign_of_ahead ahead.advance
        rw [startsAssignment, State.peek_eq_current_advance]
        change (_ && (decide (state.advance.kind = _) || decide (state.advance.kind = _))) = false
        simp [noAssign, noColon]
    | cons sign signs =>
        rw [startsAssignment, kind]
        change (decide (sign.kind = _) && _) = false
        rcases signsKind sign List.mem_cons_self with kind | kind <;> rw [kind] <;> rfl
  rw [statement_run, noForm, starts]
  rfl

theorem yields_statement_of_chain (chain : Chain) (ahead : state.Ahead chain.tokens) :
    (Production.statement (Level.withRoom room)).Yields state (chain.tree.levels 0 ≤ room)
      fun read after => read = .expression chain.first.head chain.tree ∧ after.Ahead [] := by
  have binds : ∀ link ∈ chain.links, BindingPower.default < link.operator.kind.power :=
    fun link _ => Kind.of_joins link.joins (by decide)
  have value := readsChains_withRoom room .default chain.first chain.links [] [] state (by decide)
    binds (fun _ isHead => nomatch isHead) (fun _ isHead => nomatch isHead)
    (by simpa [Chain.tokens, tokensOfLinks] using ahead)
  have whole : ((Level.withRoom room).expression .default >>= fun value =>
      (pure (.expression chain.first.head value) : Production Stmt)).Yields state
      (chain.tree.levels 0 ≤ room ∧ True) fun read after =>
        read = .expression chain.first.head chain.tree ∧ after.Ahead [] :=
    value.bind (fun _ => proceeds_pure _) fun _ read after isTree =>
      yields_pure ⟨by rw [isTree.1, Chain.tree], isTree.2⟩
  refine (whole.of_iff (and_iff_left trivial)).congr ?_
  rw [statement_run_of_chain _ chain ahead, expressionStatement, get_bind,
    current_of_ahead ahead]

end Production

/-- A script that is one chain is read as the tree of the chain, or reports too deep a nesting if
this tree takes too many levels. -/
theorem parse_chain_cases {source : String} {chain : Chain} {ending : Token}
    (clean : (tokenize source).2.entries = [])
    (tokens : (tokenize source).1 = chain.tokens ++ [ending]) :
    (chain.tree.levels 0 ≤ maxNesting ∧
        parse source = (⟨[.expression chain.first.head chain.tree]⟩, Sink.empty)) ∨
      (maxNesting < chain.tree.levels 0 ∧ (parse source).2.HoldsTooDeep) := by
  have ahead := State.Ahead.ofSource clean tokens
  have proceeds := Production.proceeds_statement (Production.levelProceeds_withRoom maxNesting)
  have kind : (State.ofSource source).kind = chain.first.head.kind :=
    congrArg Token.kind (Production.current_of_ahead ahead)
  have starts : (State.ofSource source).kind ≠ .endOfInput ∧
      (State.ofSource source).kind ≠ .semicolon := by
    rw [kind]
    exact (by decide : ∀ kind ∈ [Kind.not, .dash, .identifier, .number, .string],
      kind ≠ .endOfInput ∧ kind ≠ .semicolon) _ chain.first.head_kind
  have isOpen : Production.endsStatements false (State.ofSource source).kind = false := by
    simp [Production.endsStatements, starts.1]
  obtain ⟨last, upcoming, _⟩ := ahead.scanned.exists_current starts.1
  have statement : (Production.statement (Level.withRoom maxNesting)).Yields _ _ _ :=
    Production.yields_statement_of_chain chain ahead
  rw [parse_eq, upcoming]
  obtain ⟨fits, _, after, read, ⟨rfl, aheadEnd⟩⟩ | ⟨tooMuch, tooDeep⟩ := statement
  · left
    refine ⟨fits, ?_⟩
    have ended : Production.endsStatements false after.kind = true := by
      rw [aheadEnd.kind_of_nil]
      rfl
    have separated : Production.checkSeparated false after = after := by
      rw [Production.checkSeparated, ended, Bool.true_or, Bool.true_or, if_pos rfl]
    simp only [Production.statementsWithin, isOpen, starts.2, read, separated,
      Production.statementsWithin_of_ends ended, Bool.false_eq_true, if_false, aheadEnd.clean]
  · exact .inr ⟨Nat.not_le.1 tooMuch, Production.statementsWithin_holdsTooDeep proceeds isOpen
      starts.2 tooDeep last _⟩

/-- A script that is one chain is read as the tree that precedence gives the chain. -/
theorem parse_chain {source : String} {chain : Chain} {ending : Token}
    (clean : (tokenize source).2.entries = [])
    (tokens : (tokenize source).1 = chain.tokens ++ [ending])
    (shallow : ∀ entry ∈ (parse source).2.entries, ¬ entry.IsTooDeep) :
    (parse source).2.entries = [] ∧
      (parse source).1.statements = [.expression chain.first.head chain.tree] := by
  obtain ⟨_, whole⟩ | ⟨_, entry, member, tooDeep⟩ := parse_chain_cases clean tokens
  · rw [whole]
    exact ⟨rfl, rfl⟩
  · exact absurd tooDeep (shallow entry member)

/-- Differences group to the left, also over a line break, with a product inside. -/
theorem parse_chain_difference :
    (parse "a - b * c\n- !d.e").2.entries = [] ∧
      (parse "a - b * c\n- !d.e").1.statements =
        [.expression ⟨.identifier, "a", ⟨1, 1⟩⟩
          (.binary ⟨.dash, "-", ⟨2, 1⟩⟩
            (.binary ⟨.dash, "-", ⟨1, 3⟩⟩ (.identifier ⟨.identifier, "a", ⟨1, 1⟩⟩)
              (.binary ⟨.star, "*", ⟨1, 7⟩⟩ (.identifier ⟨.identifier, "b", ⟨1, 5⟩⟩)
                (.identifier ⟨.identifier, "c", ⟨1, 9⟩⟩)))
            (.unary ⟨.not, "!", ⟨2, 3⟩⟩
              (.member ⟨.dot, ".", ⟨2, 5⟩⟩ (.identifier ⟨.identifier, "d", ⟨2, 4⟩⟩)
                ⟨.identifier, "e", ⟨2, 6⟩⟩)))] := by
  let a : Operand := ⟨[], ⟨.identifier, "a", ⟨1, 1⟩⟩, [], by simp, .inl rfl⟩
  let b : Operand := ⟨[], ⟨.identifier, "b", ⟨1, 5⟩⟩, [], by simp, .inl rfl⟩
  let c : Operand := ⟨[], ⟨.identifier, "c", ⟨1, 9⟩⟩, [], by simp, .inl rfl⟩
  let access : Access := ⟨⟨.dot, ".", ⟨2, 5⟩⟩, ⟨.identifier, "e", ⟨2, 6⟩⟩, rfl, rfl⟩
  let d : Operand := ⟨[⟨.not, "!", ⟨2, 3⟩⟩], ⟨.identifier, "d", ⟨2, 4⟩⟩, [access], by simp, .inl rfl⟩
  let less : Link := ⟨⟨.dash, "-", ⟨1, 3⟩⟩, b, by decide⟩
  let times : Link := ⟨⟨.star, "*", ⟨1, 7⟩⟩, c, by decide⟩
  let lessToo : Link := ⟨⟨.dash, "-", ⟨2, 1⟩⟩, d, by decide⟩
  let chain : Chain := ⟨a, [less, times, lessToo]⟩
  have clean : (parse "a - b * c\n- !d.e").2.entries = [] := by decide +kernel
  have tokens : (tokenize "a - b * c\n- !d.e").1 =
      chain.tokens ++ [⟨.endOfInput, "", ⟨2, 7⟩⟩] := by decide +kernel
  obtain ⟨_, read⟩ := parse_chain (by decide +kernel) tokens (by rw [clean]; simp)
  have outer : treeOf a [less, times, lessToo] =
      lessToo.node (treeOf a [less, times]) (treeOf d []) :=
    @treeOf_of_loosestCut? _ ⟨[less, times], lessToo, []⟩ a rfl
  have inner : treeOf a [less, times] = less.node (treeOf a []) (treeOf b [times]) :=
    @treeOf_of_loosestCut? _ ⟨[], less, [times]⟩ a rfl
  have product : treeOf b [times] = times.node (treeOf b []) (treeOf c []) :=
    @treeOf_of_loosestCut? _ ⟨[], times, []⟩ b rfl
  refine ⟨clean, read.trans ?_⟩
  rw [Chain.tree, outer, inner, product]
  simp [treeOf_nil, Link.node, Operand.tree, Operand.accessed, Operand.head, Access.tree, Token.atom,
    Production.wordOperand, a, b, c, d, access, less, times, lessToo, chain]

end AgentScript
