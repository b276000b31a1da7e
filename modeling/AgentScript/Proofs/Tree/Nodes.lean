import AgentScript.Proofs.Tree.Levels
import Mathlib.Tactic.Common

/-!
Contract: the parts of a tree and the ways down to them.

Owns:
- the parts that stand directly in a part, each with the level of nesting that stepping into it
  enters, if it enters one;
- the ways from a part down to the parts below it, with the number of levels they enter;
- that a property handed on from every part to those in it holds of everything below;
- that no way down enters more levels than the tree takes.

Names and types are no parts: nothing stands in them, and no level is entered for them.
-/

set_option autoImplicit false

namespace AgentScript

/-- A part of a tree. -/
inductive Node where
  | program (program : Program)
  | statement (statement : Stmt)
  | block (block : Block)
  | expression (expression : Expr)

/-- The level that stepping into a statement enters: a conditional is one by itself. -/
def Stmt.entry : Stmt → Nat
  | .conditional .. => 1
  | _ => 0

/-- The parts of an expression. What stands to the left of an operator, and what is called, accessed
or indexed, is at the level of the whole. -/
def Expr.children : Expr → List (Nat × Expr)
  | .identifier _ | .number .. | .string _ | .template _ | .boolean .. | .null _ => []
  | .binary _ left right | .pipe _ left right => [(0, left), (1, right)]
  | .unary _ operand => [(1, operand)]
  | .call _ function arguments => (0, function) :: arguments.map fun argument => (1, argument)
  | .member _ base _ => [(0, base)]
  | .index _ base position => [(0, base), (1, position)]
  | .array _ elements => elements.map fun element => (1, element)
  | .object _ entries => entries.map fun entry => (1, entry.2)

namespace Node

/-- Statements as parts of a program, a block or a conditional. -/
def ofStatements (statements : List Stmt) : List (Nat × Node) :=
  statements.map fun statement => (statement.entry, .statement statement)

/-- Blocks as parts of a statement. -/
def ofBlocks (blocks : List Block) : List (Nat × Node) := blocks.map fun block => (1, .block block)

/-- Expressions that belong to a statement itself. -/
def ofValues (values : List Expr) : List (Nat × Node) :=
  values.map fun value => (1, .expression value)

end Node

open Node in
/-- The parts of a statement. -/
def Stmt.children : Stmt → List (Nat × Node)
  | .assignment _ _ value | .expression _ value | .throwValue _ value => ofValues [value]
  | .block body | .tool _ _ _ _ body => ofBlocks [body]
  | .conditional _ condition consequence alternative? =>
      ofValues [condition] ++ ofBlocks [consequence] ++ ofStatements alternative?.toList
  | .whileLoop _ value body | .forOf _ _ value body => ofValues [value] ++ ofBlocks [body]
  | .breakLoop _ | .continueLoop _ | .importNames .. => []
  | .returnValue _ value? => ofValues value?.toList
  | .attempt _ body handler? finalizer? =>
      ofBlocks (body :: (handler?.map Prod.snd).toList ++ finalizer?.toList)
  | .config _ _ _ entries => ofValues (entries.map Prod.snd)
  | .exported _ declaration => [(1, .statement declaration)]

namespace Node

/-- The parts that stand directly in a part, each with the level that stepping into it enters. -/
def children : Node → List (Nat × Node)
  | .program tree => ofStatements tree.statements
  | .statement part => part.children
  | .block body => ofStatements body.statements
  | .expression value => value.children.map fun child => (child.1, .expression child.2)

/-- A way from a part down to one below it, and the number of levels it enters. -/
inductive Way : Node → Nat → Node → Prop where
  | here (node : Node) : Way node 0 node
  | step {node child below : Node} {entered levels : Nat} :
      (entered, child) ∈ node.children → Way child levels below →
      Way node (entered + levels) below

/-- Everything below a part, and the part itself, has a property. -/
def Every (good : Node → Prop) (node : Node) : Prop :=
  ∀ (levels : Nat) (below : Node), node.Way levels below → good below

section

variable {good : Node → Prop} {node : Node}

/-- A property that is handed on from every part to those in it holds of everything below. -/
theorem every_of_handedOn (handsOn : ∀ node : Node, good node → ∀ child ∈ node.children, good child.2)
    (start : good node) : node.Every good := by
  intro levels below way
  induction way with
  | here => exact start
  | step isChild _ inductionHypothesis =>
      exact inductionHypothesis (handsOn _ start _ isChild)

theorem every_of_children (start : good node) (children : ∀ child ∈ node.children, child.2.Every good) :
    node.Every good := by
  intro levels below way
  cases way with
  | here => exact start
  | step isChild onward => exact children _ isChild _ _ onward

/-- A property that says nothing of expressions holds of everything below one. -/
theorem every_expression (silent : ∀ expression, good (.expression expression)) (expression : Expr) :
    (Node.expression expression).Every good := by
  have handsOn : ∀ node : Node, (∃ expression, node = .expression expression) →
      ∀ child ∈ node.children, ∃ expression, child.2 = .expression expression := by
    rintro _ ⟨expression, rfl⟩
    exact List.forall_mem_map.2 fun part _ => ⟨part.2, rfl⟩
  intro levels below way
  obtain ⟨part, rfl⟩ := every_of_handedOn handsOn ⟨expression, rfl⟩ levels below way
  exact silent part

end

section

variable (property : Node → Prop)

theorem forall_ofStatements {statements : List Stmt}
    (holds : ∀ statement ∈ statements, property (.statement statement)) :
    ∀ child ∈ ofStatements statements, property child.2 :=
  List.forall_mem_map.2 holds

theorem forall_ofBlocks {blocks : List Block} (holds : ∀ body ∈ blocks, property (.block body)) :
    ∀ child ∈ ofBlocks blocks, property child.2 :=
  List.forall_mem_map.2 holds

theorem forall_ofValues {values : List Expr} (holds : ∀ value ∈ values, property (.expression value)) :
    ∀ child ∈ ofValues values, property child.2 :=
  List.forall_mem_map.2 holds

end

/-! ## Levels -/

/-- The levels that can be entered below a part, the one that is entered with it left out. -/
def levels : Node → Nat
  | .program tree => tree.levels 0
  | .statement part => part.levels 0 - part.entry
  | .block body => body.levels 0 - 1
  | .expression value => value.levels 0 - 1

end Node

theorem Expr.children_levels_le (value : Expr) :
    ∀ child ∈ value.children, child.1 + (child.2.levels 0 - 1) ≤ value.levels 0 - 1 := by
  have within {exprs : List Expr} {bound : Nat} (fits : levelsOfExprs 0 exprs ≤ bound) :
      ∀ expr ∈ exprs, 1 + (expr.levels 0 - 1) ≤ bound := by
    intro expr member
    have positive := expr.levels_pos 0
    have one := levelsOfExprs_le_iff.1 fits expr member
    omega
  cases value with
  | identifier | number | string | template | boolean | null => simp [children]
  | binary _ left right | pipe _ left right =>
      have positive := right.levels_pos 0
      simp only [children, levels, List.forall_mem_cons]
      exact ⟨by omega, by omega, by simp⟩
  | unary _ operand =>
      have positive := operand.levels_pos 0
      simp only [children, levels, List.forall_mem_cons]
      exact ⟨by omega, by simp⟩
  | call _ function arguments =>
      simp only [children, levels, List.forall_mem_cons, List.forall_mem_map]
      exact ⟨by omega, within (by omega)⟩
  | member _ base _ => simp [children, levels]
  | index _ base position =>
      have positive := position.levels_pos 0
      simp only [children, levels, List.forall_mem_cons]
      exact ⟨by omega, by omega, by simp⟩
  | array _ elements =>
      simp only [children, levels, List.forall_mem_map]
      exact within (Nat.le_refl _)
  | object _ entries =>
      simp only [children, levels, List.forall_mem_map]
      intro entry member
      have positive := entry.2.levels_pos 0
      have one := levelsOfEntries_le_iff.1 (Nat.le_refl (levelsOfEntries 0 entries)) entry member
      omega

theorem Stmt.entry_le_levels (statement : Stmt) : statement.entry ≤ statement.levels 0 := by
  cases statement with
  | conditional _ _ _ alternative? => cases alternative? <;> simp [entry, levels]
  | _ => exact Nat.zero_le _

namespace Node

variable {bound : Nat}

theorem ofStatements_levels_le {statements : List Stmt}
    (fit : ∀ statement ∈ statements, statement.levels 0 ≤ bound) :
    ∀ child ∈ ofStatements statements, child.1 + child.2.levels ≤ bound := by
  refine List.forall_mem_map.2 fun part member => ?_
  have entered := part.entry_le_levels
  have one := fit part member
  simp only [levels]
  omega

theorem ofBlocks_levels_le {blocks : List Block} (fit : ∀ block ∈ blocks, block.levels 0 ≤ bound) :
    ∀ child ∈ ofBlocks blocks, child.1 + child.2.levels ≤ bound := by
  refine List.forall_mem_map.2 fun body member => ?_
  have positive := body.levels_pos 0
  have one := fit body member
  simp only [levels]
  omega

theorem ofValues_levels_le {values : List Expr} (fit : ∀ value ∈ values, value.levels 0 ≤ bound) :
    ∀ child ∈ ofValues values, child.1 + child.2.levels ≤ bound := by
  refine List.forall_mem_map.2 fun value member => ?_
  have positive := value.levels_pos 0
  have one := fit value member
  simp only [levels]
  omega

end Node

open Node in
theorem Stmt.children_levels_le (statement : Stmt) :
    ∀ child ∈ statement.children,
      child.1 + child.2.levels ≤ statement.levels 0 - statement.entry := by
  have ofValue {value : Expr} {bound : Nat} (fits : value.levels 0 ≤ bound) :
      ∀ child ∈ ofValues [value], child.1 + child.2.levels ≤ bound :=
    ofValues_levels_le (List.forall_mem_singleton.2 fits)
  have ofBlock {body : Block} {bound : Nat} (fits : body.levels 0 ≤ bound) :
      ∀ child ∈ ofBlocks [body], child.1 + child.2.levels ≤ bound :=
    ofBlocks_levels_le (List.forall_mem_singleton.2 fits)
  cases statement with
  | assignment | expression | throwValue => exact ofValue (Nat.le_refl _)
  | block | tool => exact ofBlock (Nat.le_refl _)
  | conditional _ condition consequence alternative? =>
      simp only [children, List.forall_mem_append]
      cases alternative? with
      | none =>
          simp only [levels, entry]
          exact ⟨⟨ofValue (by omega), ofBlock (by omega)⟩, ofStatements_levels_le nofun⟩
      | some alternative =>
          simp only [levels, entry]
          exact ⟨⟨ofValue (by omega), ofBlock (by omega)⟩,
            ofStatements_levels_le (List.forall_mem_singleton.2 (by omega))⟩
  | whileLoop | forOf =>
      simp only [children, levels, entry, List.forall_mem_append]
      exact ⟨ofValue (by omega), ofBlock (by omega)⟩
  | breakLoop | continueLoop | importNames => exact nofun
  | returnValue _ value? =>
      cases value? with
      | none => exact nofun
      | some value => exact ofValue (Nat.le_refl _)
  | attempt _ body handler? finalizer? =>
      simp only [children, levels, entry]
      refine ofBlocks_levels_le ?_
      simp only [List.cons_append, List.forall_mem_cons, List.forall_mem_append, Option.mem_toList]
      refine ⟨by omega, fun block member => ?_, fun block member => ?_⟩
      · obtain ⟨⟨_, _⟩, rfl, rfl⟩ := Option.map_eq_some_iff.1 member
        simp only [levelsOfHandler]
        omega
      · cases member
        simp only [levelsOfBlock?]
        omega
  | config _ _ _ entries =>
      refine ofValues_levels_le (List.forall_mem_map.2 ?_)
      exact levelsOfEntries_le_iff.1 (Nat.le_refl (levelsOfEntries 0 entries))
  | exported _ declaration =>
      have entered := declaration.entry_le_levels
      exact List.forall_mem_singleton.2 (by simp only [levels, entry, Node.levels]; omega)

namespace Node

theorem children_levels_le (node : Node) :
    ∀ child ∈ node.children, child.1 + child.2.levels ≤ node.levels := by
  cases node with
  | program tree =>
      exact ofStatements_levels_le (levelsOfStmts_le_iff.1 (Nat.le_refl _))
  | statement part => exact part.children_levels_le
  | block body =>
      obtain ⟨_, statements⟩ := body
      exact ofStatements_levels_le (levelsOfStmts_le_iff.1 (Nat.le_refl _))
  | expression value =>
      exact List.forall_mem_map.2 value.children_levels_le

/-- A way down enters no more levels than can be entered. -/
theorem Way.levels_le {node below : Node} {levels : Nat} (way : node.Way levels below) :
    levels + below.levels ≤ node.levels := by
  induction way with
  | here => omega
  | step isChild _ inductionHypothesis =>
      have one := children_levels_le _ _ isChild
      simp only at one
      omega

end Node

end AgentScript
