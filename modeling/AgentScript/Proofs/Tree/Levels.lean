import AgentScript.Tree.Stmt

/-!
Contract: how many levels of nesting the forms of a tree take.

Owns: the levels that reading an expression or a block enters, itself included, and those that the
rest of a statement enters.

The left side of an operator, what is called, and what is accessed or indexed are read at the level
of the whole. Everything else inside an expression is one level further in, and so is what stands in
parentheses, of which the tree keeps nothing. Hence the number of parentheses is a parameter.
-/

set_option autoImplicit false

namespace AgentScript

mutual

/-- The levels that an expression takes when every operator and every index in it stands in the
given number of pairs of parentheses, and nothing else does. -/
def Expr.levels (pairs : Nat) : Expr → Nat
  | .identifier _ | .number .. | .string _ | .template _ | .boolean .. | .null _ => 1
  | .binary _ left right | .pipe _ left right =>
      max (left.levels pairs) (right.levels pairs + 1) + pairs
  | .unary _ operand => operand.levels pairs + 1 + pairs
  | .call _ function arguments => max (function.levels pairs) (levelsOfExprs pairs arguments + 1)
  | .member _ object _ => object.levels pairs
  | .index _ object position => max (object.levels pairs) (position.levels pairs + 1) + pairs
  | .array _ elements => levelsOfExprs pairs elements + 1
  | .object _ entries => levelsOfEntries pairs entries + 1

def levelsOfExprs (pairs : Nat) : List Expr → Nat
  | [] => 0
  | expr :: rest => max (expr.levels pairs) (levelsOfExprs pairs rest)

def levelsOfEntries (pairs : Nat) : List (String × Expr) → Nat
  | [] => 0
  | (_, value) :: rest => max (value.levels pairs) (levelsOfEntries pairs rest)

end

theorem Expr.levels_pos (pairs : Nat) : ∀ expr : Expr, 0 < expr.levels pairs
  | .identifier _ | .number .. | .string _ | .template _ | .boolean .. | .null _ => Nat.one_pos
  | .binary .. | .pipe .. | .unary .. | .call .. | .index .. | .array .. | .object .. => by
      rw [Expr.levels]
      omega
  | .member _ base _ => by
      rw [Expr.levels]
      exact base.levels_pos pairs

theorem levelsOfExprs_le_iff {pairs bound : Nat} {exprs : List Expr} :
    levelsOfExprs pairs exprs ≤ bound ↔ ∀ expr ∈ exprs, expr.levels pairs ≤ bound := by
  induction exprs with
  | nil => simp [levelsOfExprs]
  | cons expr rest inductionHypothesis =>
      rw [levelsOfExprs, Nat.max_le, inductionHypothesis, List.forall_mem_cons]

theorem levelsOfEntries_le_iff {pairs bound : Nat} {entries : List (String × Expr)} :
    levelsOfEntries pairs entries ≤ bound ↔ ∀ entry ∈ entries, entry.2.levels pairs ≤ bound := by
  induction entries with
  | nil => simp [levelsOfEntries]
  | cons entry rest inductionHypothesis =>
      rw [levelsOfEntries, Nat.max_le, inductionHypothesis, List.forall_mem_cons]

mutual

/-- The levels that a statement takes. A conditional and an exported statement are levels of their
own. -/
def Stmt.levels (pairs : Nat) : Stmt → Nat
  | .assignment _ _ value | .expression _ value | .throwValue _ value => value.levels pairs
  | .block body | .tool _ _ _ _ body => body.levels pairs
  | .conditional _ condition consequence none =>
      max (condition.levels pairs) (consequence.levels pairs) + 1
  | .conditional _ condition consequence (some alternative) =>
      max (max (condition.levels pairs) (consequence.levels pairs)) (alternative.levels pairs) + 1
  | .whileLoop _ condition body => max (condition.levels pairs) (body.levels pairs)
  | .forOf _ _ iterable body => max (iterable.levels pairs) (body.levels pairs)
  | .breakLoop _ | .continueLoop _ | .returnValue _ none | .importNames .. => 0
  | .returnValue _ (some value) => value.levels pairs
  | .attempt _ body handler? finalizer? =>
      max (body.levels pairs)
        (max (levelsOfHandler pairs handler?) (levelsOfBlock? pairs finalizer?))
  | .config _ _ _ entries => levelsOfEntries pairs entries
  | .exported _ statement => statement.levels pairs + 1

def Block.levels (pairs : Nat) : Block → Nat
  | .mk _ statements => levelsOfStmts pairs statements + 1

def levelsOfStmts (pairs : Nat) : List Stmt → Nat
  | [] => 0
  | statement :: rest => max (statement.levels pairs) (levelsOfStmts pairs rest)

def levelsOfHandler (pairs : Nat) : Option (Token × Block) → Nat
  | none => 0
  | some (_, body) => body.levels pairs

def levelsOfBlock? (pairs : Nat) : Option Block → Nat
  | none => 0
  | some body => body.levels pairs

end

theorem Block.levels_pos (pairs : Nat) : ∀ block : Block, 0 < block.levels pairs
  | .mk _ _ => Nat.succ_pos _

theorem levelsOfStmts_le_iff {pairs bound : Nat} {statements : List Stmt} :
    levelsOfStmts pairs statements ≤ bound ↔
      ∀ statement ∈ statements, statement.levels pairs ≤ bound := by
  induction statements with
  | nil => simp [levelsOfStmts]
  | cons statement rest inductionHypothesis =>
      rw [levelsOfStmts, Nat.max_le, inductionHypothesis, List.forall_mem_cons]

/-- The levels that a program takes. -/
def Program.levels (pairs : Nat) (program : Program) : Nat := levelsOfStmts pairs program.statements

end AgentScript
