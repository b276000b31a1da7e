import AgentScript.Tree.Stmt

/-!
Contract: how many statements a tree holds.

Owns: the number of statements and blocks in a statement, a block and a program.

A block counts as well as the statements in it, and a block that is an alternative counts as a
statement besides. Expressions hold no statements.
-/

set_option autoImplicit false

namespace AgentScript

mutual

/-- The number of statements and blocks in a statement, itself included. -/
def Stmt.size : Stmt → Nat
  | .assignment .. | .expression .. | .breakLoop _ | .continueLoop _ | .returnValue .. |
    .throwValue .. | .config .. | .importNames .. => 1
  | .block body | .whileLoop _ _ body | .forOf _ _ _ body | .tool _ _ _ _ body => body.size + 1
  | .conditional _ _ consequence none => consequence.size + 1
  | .conditional _ _ consequence (some alternative) => consequence.size + alternative.size + 1
  | .attempt _ body handler? finalizer? =>
      body.size + sizeOfHandler handler? + sizeOfBlock? finalizer? + 1
  | .exported _ statement => statement.size + 1

/-- The number of statements and blocks in a block, itself included. -/
def Block.size : Block → Nat
  | .mk _ statements => sizeOfStmts statements + 1

def sizeOfStmts : List Stmt → Nat
  | [] => 0
  | statement :: rest => statement.size + sizeOfStmts rest

def sizeOfHandler : Option (Token × Block) → Nat
  | none => 0
  | some (_, body) => body.size

def sizeOfBlock? : Option Block → Nat
  | none => 0
  | some body => body.size

end

/-- The number of statements and blocks in a program. -/
def Program.size (program : Program) : Nat := sizeOfStmts program.statements

end AgentScript
