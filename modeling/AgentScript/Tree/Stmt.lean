import AgentScript.Tree.Expr
import AgentScript.Tree.TypeExpr

/-!
Contract: statements, blocks and programs.

Owns: the forms of statements. Each keeps its first token; a name is kept as the token that holds it.
-/

set_option autoImplicit false

namespace AgentScript

/-- What a configured declaration declares. -/
inductive ConfigKind where
  | mcp
  | model
  | agent
deriving DecidableEq, Repr

/-- A parameter of a tool. -/
structure Parameter where
  name : Token
  declaredType? : Option TypeExpr
deriving DecidableEq, Repr

mutual

inductive Stmt where
  | assignment (name : Token) (declaredType? : Option TypeExpr) (value : Expr)
  | expression (first : Token) (value : Expr)
  | block (body : Block)
  | conditional (keyword : Token) (condition : Expr) (consequence : Block)
      (alternative? : Option Stmt)
  | whileLoop (keyword : Token) (condition : Expr) (body : Block)
  | forOf (keyword : Token) (loopVariable : Token) (iterable : Expr) (body : Block)
  | breakLoop (keyword : Token)
  | continueLoop (keyword : Token)
  | returnValue (keyword : Token) (value? : Option Expr)
  | throwValue (keyword : Token) (value : Expr)
  | attempt (keyword : Token) (body : Block) (handler? : Option (Token × Block))
      (finalizer? : Option Block)
  | config (kind : ConfigKind) (keyword : Token) (name : Token) (entries : List (String × Expr))
  | tool (keyword : Token) (name : Token) (parameters : List Parameter)
      (returnType? : Option TypeExpr) (body : Block)
  | importNames (keyword : Token) (names : List Token) (source : String) (braced : Bool)
  | exported (keyword : Token) (statement : Stmt)

/-- Statements between curly brackets, with the opening one. -/
inductive Block where
  | mk (brace : Token) (statements : List Stmt)

end

namespace Block

def brace : Block → Token
  | mk brace _ => brace

def statements : Block → List Stmt
  | mk _ statements => statements

end Block

namespace Stmt

/-- The first token of a statement. -/
def token : Stmt → Token
  | assignment name _ _ => name
  | expression first _ => first
  | block body => body.brace
  | conditional keyword _ _ _ => keyword
  | whileLoop keyword _ _ => keyword
  | forOf keyword _ _ _ => keyword
  | breakLoop keyword => keyword
  | continueLoop keyword => keyword
  | returnValue keyword _ => keyword
  | throwValue keyword _ => keyword
  | attempt keyword _ _ _ => keyword
  | config _ keyword _ _ => keyword
  | tool keyword _ _ _ _ => keyword
  | importNames keyword _ _ _ => keyword
  | exported keyword _ => keyword

/-- Whether a statement may be exported: it declares something or gives a name a value. -/
def isExportable : Stmt → Bool
  | assignment .. | config .. | tool .. => true
  | _ => false

/-- The value a statement gives to a setting: a declaration to one of its keys, an assignment to a
key of its object literal, an export whatever the exported statement gives. -/
def setting? (key : String) : Stmt → Option Expr
  | config _ _ _ entries => Entries.get? entries key
  | assignment _ _ value => value.setting? key
  | exported _ statement => statement.setting? key
  | _ => none

end Stmt

/-- The statements of a script, in order. -/
structure Program where
  statements : List Stmt

/-- The text of a program's first token. -/
def Program.firstText (program : Program) : String :=
  match program.statements with
  | [] => ""
  | first :: _ => first.token.value

end AgentScript
