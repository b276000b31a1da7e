import AgentScript.Grammar.Expression
import AgentScript.Proofs.Tree.Levels
import Mathlib.Tactic.Common

/-!
Contract: chains of operands joined by operators, and the tree that precedence gives a chain.

Owns:
- the operators that join operands, in tiers from the loosest to the tightest;
- operands, chains of them, and their tokens;
- the tree of a chain, which has the last of the loosest operators at its top;
- that a chain may be cut at any operator that no operator before it is looser than, and every
  operator after it is tighter than.

Does not own: how a chain is read. The tree of a chain splits the whole chain at once and knows
nothing of binding powers.
-/

set_option autoImplicit false

namespace AgentScript

/-! ## Operators -/

/-- The operators that join operands, the loosest first. Those of one tier group to the left. -/
def operatorTiers : List (List Kind) :=
  [[.pipe], [.nullish], [.or], [.and], [.equals, .notEquals],
    [.less, .lessEquals, .greater, .greaterEquals], [.plus, .dash], [.star, .slash, .percent]]

namespace Kind

/-- Whether a token of this kind joins operands. -/
def joins (kind : Kind) : Bool := kind ∈ operatorTiers.flatten

/-- The place of an operator among the tiers. -/
def tier (kind : Kind) : Nat := operatorTiers.findIdx fun tier => kind ∈ tier

variable {kind : Kind}

/-- What holds of every operator in the tiers holds of a kind that joins operands. -/
@[elab_as_elim] theorem of_joins {motive : Kind → Prop} (joins : kind.joins = true)
    (all : ∀ operator ∈ operatorTiers.flatten, motive operator) : motive kind :=
  all kind (of_decide_eq_true joins)

/-- The binding powers of the operators keep the order of the tiers. -/
theorem rank_power_of_joins (joins : kind.joins = true) : kind.power.rank = kind.tier + 1 :=
  of_joins joins (by decide)

theorem infixForm?_of_joins (joins : kind.joins = true) :
    kind.infixForm? = some (if kind = .pipe then .pipe else .binary) :=
  of_joins joins (by decide)

theorem needsSameLine_of_joins (joins : kind.joins = true) : kind.needsSameLine = false :=
  of_joins joins (by decide)

theorem power_lt_unary_of_joins (joins : kind.joins = true) : kind.power < .unary :=
  of_joins joins (by decide)

end Kind

theorem Kind.power_lt_power_iff {left right : Kind} (joinsLeft : left.joins = true)
    (joinsRight : right.joins = true) : left.power < right.power ↔ left.tier < right.tier := by
  change left.power.rank < right.power.rank ↔ _
  rw [rank_power_of_joins joinsLeft, rank_power_of_joins joinsRight]
  exact Nat.add_lt_add_iff_right

/-! ## Chains -/

/-- A dot and the name of a property. -/
structure Access where
  dot : Token
  name : Token
  dot_kind : dot.kind = .dot
  name_namesMember : name.kind.namesMember = true

/-- A name, number or string with the signs before it and the accesses after it. -/
structure Operand where
  signs : List Token
  base : Token
  accesses : List Access
  signs_kind : ∀ sign ∈ signs, sign.kind = .not ∨ sign.kind = .dash
  base_kind : base.kind = .identifier ∨ base.kind = .number ∨ base.kind = .string

/-- An operator and the operand after it. -/
structure Link where
  operator : Token
  operand : Operand
  joins : operator.kind.joins = true

/-- An operand, and any number of links after it. -/
structure Chain where
  first : Operand
  links : List Link

namespace Access

def tokens (access : Access) : List Token := [access.dot, access.name]

def tree (object : Expr) (access : Access) : Expr := .member access.dot object access.name

end Access

/-- The tree of a name, number or string by itself. Each number that is scanned has a value. -/
def Token.atom (token : Token) : Expr :=
  match token.kind with
  | .number => .number token ((Decimal.ofText? token.value.toList).getD ⟨0, 0⟩)
  | .string => .string token
  | _ => Production.wordOperand token

namespace Operand

def tokens (operand : Operand) : List Token :=
  operand.signs ++ operand.base :: operand.accesses.flatMap Access.tokens

/-- The first token of an operand. -/
def head (operand : Operand) : Token := operand.signs.headD operand.base

theorem head_kind (operand : Operand) :
    operand.head.kind ∈ [Kind.not, .dash, .identifier, .number, .string] := by
  obtain ⟨signs, base, accesses, signsKind, baseKind⟩ := operand
  cases signs with
  | nil =>
      change base.kind ∈ _
      rcases baseKind with kind | kind | kind <;> simp [kind]
  | cons sign signs =>
      change sign.kind ∈ _
      rcases signsKind sign List.mem_cons_self with kind | kind <;> simp [kind]

theorem exists_tokens (operand : Operand) : ∃ rest, operand.tokens = operand.head :: rest := by
  unfold tokens head
  cases operand.signs with
  | nil => exact ⟨_, rfl⟩
  | cons sign signs => exact ⟨_, rfl⟩

/-- The tree of an operand without its signs. -/
def accessed (operand : Operand) : Expr := operand.accesses.foldl Access.tree operand.base.atom

/-- The tree of an operand: the signs apply to the whole row of accesses, the last sign innermost. -/
def tree (operand : Operand) : Expr := operand.signs.foldr Expr.unary operand.accessed

end Operand

namespace Link

def tokens (link : Link) : List Token := link.operator :: link.operand.tokens

/-- The place of the operator of a link among the tiers. -/
def tier (link : Link) : Nat := link.operator.kind.tier

/-- The node of an operator over its two sides. -/
def node (link : Link) (left right : Expr) : Expr :=
  if link.operator.kind = .pipe then .pipe link.operator left right
  else .binary link.operator left right

end Link

/-! ## The tree of a chain -/

/-- Links cut at one of them. -/
structure Cut where
  before : List Link
  link : Link
  after : List Link

/-- Links cut at the last of the loosest operators. -/
def loosestCut? : List Link → Option Cut
  | [] => none
  | link :: rest =>
      match loosestCut? rest with
      | none => some ⟨[], link, rest⟩
      | some cut =>
          if cut.link.tier ≤ link.tier then some { cut with before := link :: cut.before }
          else some ⟨[], link, rest⟩

theorem loosestCut?_eq_none {links : List Link} (uncut : loosestCut? links = none) :
    links = [] := by
  cases links with
  | nil => rfl
  | cons link rest =>
      unfold loosestCut? at uncut
      split at uncut
      · nomatch uncut
      · split at uncut <;> nomatch uncut

theorem eq_of_loosestCut? {links : List Link} {cut : Cut} (cutsAt : loosestCut? links = some cut) :
    links = cut.before ++ cut.link :: cut.after := by
  induction links generalizing cut with
  | nil => nomatch cutsAt
  | cons link rest inductionHypothesis =>
      unfold loosestCut? at cutsAt
      split at cutsAt
      · cases cutsAt
        rfl
      · next cutRest restEq =>
          split at cutsAt
          · cases cutsAt
            rw [inductionHypothesis restEq, List.cons_append]
          · cases cutsAt
            rfl

/-- What links are cut at is not tighter than the links before it, and looser than those after it. -/
theorem loosest_of_loosestCut? {links : List Link} {cut : Cut}
    (cutsAt : loosestCut? links = some cut) :
    (∀ other ∈ cut.before, cut.link.tier ≤ other.tier) ∧
      ∀ other ∈ cut.after, cut.link.tier < other.tier := by
  induction links generalizing cut with
  | nil => nomatch cutsAt
  | cons link rest inductionHypothesis =>
      unfold loosestCut? at cutsAt
      split at cutsAt
      · next uncut =>
          cases cutsAt
          simp [loosestCut?_eq_none uncut]
      · next cutRest restEq =>
          obtain ⟨before, after⟩ := inductionHypothesis restEq
          split at cutsAt
          · next looser =>
              cases cutsAt
              exact ⟨List.forall_mem_cons.2 ⟨looser, before⟩, after⟩
          · next tighter =>
              cases cutsAt
              refine ⟨by simp, fun other member => ?_⟩
              rw [eq_of_loosestCut? restEq] at member
              have atLeast : cutRest.link.tier ≤ other.tier := by
                rcases List.mem_append.1 member with inBefore | later
                · exact before other inBefore
                · rcases List.mem_cons.1 later with rfl | inAfter
                  · exact Nat.le_refl _
                  · exact Nat.le_of_lt (after other inAfter)
              exact Nat.lt_of_lt_of_le (Nat.not_le.1 tighter) atLeast

/-- Links are cut at the link that is not tighter than those before it and looser than those after
it. -/
theorem loosestCut?_append {before after : List Link} {link : Link}
    (beforeTighter : ∀ other ∈ before, link.tier ≤ other.tier)
    (afterTighter : ∀ other ∈ after, link.tier < other.tier) :
    loosestCut? (before ++ link :: after) = some ⟨before, link, after⟩ := by
  induction before with
  | nil =>
      rw [List.nil_append, loosestCut?]
      split
      · rfl
      · next cut cutsAt =>
          have later : cut.link ∈ after := by
            rw [eq_of_loosestCut? cutsAt]
            simp
          rw [if_neg (Nat.not_le.2 (afterTighter cut.link later))]
  | cons first before inductionHypothesis =>
      have cutRest := inductionHypothesis fun other member =>
        beforeTighter other (List.mem_cons_of_mem _ member)
      rw [List.cons_append, loosestCut?, cutRest]
      exact if_pos (beforeTighter first List.mem_cons_self)

/-- The tree of an operand and the links after it. -/
def treeOf (first : Operand) (links : List Link) : Expr :=
  match _cutsAt : loosestCut? links with
  | none => first.tree
  | some cut => cut.link.node (treeOf first cut.before) (treeOf cut.link.operand cut.after)
termination_by links.length
decreasing_by
  all_goals
    rw [eq_of_loosestCut? _cutsAt]
    simp only [List.length_append, List.length_cons]
    omega

@[simp] theorem treeOf_nil (first : Operand) : treeOf first [] = first.tree := by
  unfold treeOf
  rfl

theorem treeOf_of_loosestCut? {links : List Link} {cut : Cut} (first : Operand)
    (cutsAt : loosestCut? links = some cut) :
    treeOf first links =
      cut.link.node (treeOf first cut.before) (treeOf cut.link.operand cut.after) := by
  rw [treeOf]
  split
  · next uncut => nomatch uncut.symm.trans cutsAt
  · next other cutEq =>
      obtain rfl := Option.some.inj (cutEq.symm.trans cutsAt)
      rfl

theorem treeOf_append {first : Operand} {before after : List Link} {link : Link}
    (beforeTighter : ∀ other ∈ before, link.tier ≤ other.tier)
    (afterTighter : ∀ other ∈ after, link.tier < other.tier) :
    treeOf first (before ++ link :: after) =
      link.node (treeOf first before) (treeOf link.operand after) :=
  treeOf_of_loosestCut? first (loosestCut?_append beforeTighter afterTighter)

/-! ## Levels -/

theorem Token.levels_atom (token : Token) : token.atom.levels 0 = 1 := by
  unfold Token.atom Production.wordOperand
  split <;> repeat' split
  all_goals rfl

theorem Operand.levels_accessed (operand : Operand) : operand.accessed.levels 0 = 1 := by
  have kept (accesses : List Access) (object : Expr) :
      (accesses.foldl Access.tree object).levels 0 = object.levels 0 := by
    induction accesses generalizing object with
    | nil => rfl
    | cons access rest inductionHypothesis => exact inductionHypothesis (access.tree object)
  exact (kept _ _).trans operand.base.levels_atom

theorem Link.levels_node (link : Link) (left right : Expr) :
    (link.node left right).levels 0 = max (left.levels 0) (right.levels 0 + 1) := by
  unfold Link.node
  split <;> rfl

/-- A chain takes no fewer levels than a chain it starts with. -/
theorem levels_treeOf_append_le (first : Operand) (before after : List Link) :
    (treeOf first before).levels 0 ≤ (treeOf first (before ++ after)).levels 0 := by
  induction size : (before ++ after).length using Nat.strongRecOn
    generalizing first before after with
  | ind size inductionHypothesis =>
      cases found : loosestCut? (before ++ after) with
      | none =>
          obtain ⟨rfl, rfl⟩ := List.append_eq_nil_iff.1 (loosestCut?_eq_none found)
          exact Nat.le_refl _
      | some cut =>
          obtain ⟨left, link, right⟩ := cut
          have leftTighter : ∀ other ∈ left, link.tier ≤ other.tier :=
            (loosest_of_loosestCut? found).1
          have rightTighter : ∀ other ∈ right, link.tier < other.tier :=
            (loosest_of_loosestCut? found).2
          have split : before ++ after = left ++ link :: right := eq_of_loosestCut? found
          rw [split, treeOf_append leftTighter rightTighter, Link.levels_node]
          rcases List.append_eq_append_iff.1 split with ⟨more, rfl, rfl⟩ | ⟨more, rfl, rest⟩
          · -- the cut is in the links that are added
            have atMost := inductionHypothesis _ (by simp at size ⊢; omega) first before more rfl
            exact Nat.le_trans atMost (Nat.le_max_left _ _)
          · cases more with
            | nil =>
                rw [List.append_nil]
                exact Nat.le_max_left _ _
            | cons other more =>
                -- the cut is in the links that are there already
                rw [List.cons_append, List.cons.injEq] at rest
                obtain ⟨rfl, rfl⟩ := rest
                have atMost := inductionHypothesis _ (by simp at size ⊢; omega) link.operand more
                  after rfl
                have moreTighter : ∀ other ∈ more, link.tier < other.tier := fun other member =>
                  rightTighter other (List.mem_append_left _ member)
                rw [treeOf_append leftTighter moreTighter, Link.levels_node]
                omega

namespace Chain

def tokens (chain : Chain) : List Token :=
  chain.first.tokens ++ chain.links.flatMap Link.tokens

/-- The tree of a chain: that of its operand if there is but one, and otherwise a node for the last
of its loosest operators over the trees of what stands on either side of it. -/
def tree (chain : Chain) : Expr := treeOf chain.first chain.links

end Chain

end AgentScript
