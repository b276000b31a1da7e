import AgentScript.Literal.Escapes
import AgentScript.Scan.Lexeme
import AgentScript.Tree.Stmt

/-!
Contract: the canonical text of a tree.

Owns: one written form for every tree, with an operator application in parentheses, one statement on
a line, and the statements of a block two columns further in than the block.

An expression is always on one line: line feeds inside strings and templates are escaped. Therefore a
statement can be written straight at its depth, and no line of it has to be moved afterwards. For the
trees that reading builds, moving the lines of a block as a whole gives the same text.
-/

set_option autoImplicit false

namespace AgentScript

/-- Texts one after the other with a separator between neighbours. -/
def joined (separator : String) : List String → String
  | [] => ""
  | [text] => text
  | text :: next :: texts => text ++ separator ++ joined separator (next :: texts)

/-- Whether a text would be read as one name. -/
def isPlainName (text : String) : Bool :=
  match text.toList with
  | [] => false
  | first :: rest =>
      startsWord first && rest.all continuesWord && (Keyword.ofWord? text).isNone

/-- A key of an object literal: bare if it reads as a name. -/
def keyText (key : String) : String := if isPlainName key then key else stringLiteral key

/-- The start of a line at the given depth. -/
def margin (depth : Nat) : String := String.ofList (List.replicate (2 * depth) ' ')

mutual

/-- The canonical text of an expression. -/
def Expr.text : Expr → String
  | .identifier token => token.value
  | .number token _ => token.value
  | .string token => stringLiteral token.value
  | .template token => templateLiteral token.value
  | .boolean _ value => if value then "true" else "false"
  | .null _ => "null"
  | .binary operator left right =>
      "(" ++ left.text ++ " " ++ operator.value ++ " " ++ right.text ++ ")"
  | .unary operator operand => "(" ++ operator.value ++ operand.text ++ ")"
  | .pipe _ left right => "(" ++ left.text ++ " | " ++ right.text ++ ")"
  | .call _ function arguments => function.text ++ "(" ++ joined ", " (exprTexts arguments) ++ ")"
  | .member _ object property => object.text ++ "." ++ property.value
  | .index _ object position => "(" ++ object.text ++ "[" ++ position.text ++ "])"
  | .array _ elements => "[" ++ joined ", " (exprTexts elements) ++ "]"
  | .object _ entries => "\x7b" ++ joined ", " (entryTexts entries) ++ "\x7d"

/-- The canonical texts of expressions. -/
def exprTexts : List Expr → List String
  | [] => []
  | expr :: rest => expr.text :: exprTexts rest

/-- The canonical texts of the entries of an object literal. -/
def entryTexts : List (String × Expr) → List String
  | [] => []
  | (key, value) :: rest => (keyText key ++ ": " ++ value.text) :: entryTexts rest

end

/-- A name with the type declared for it. -/
def typedName (name : Token) : Option TypeExpr → String
  | none => name.value
  | some type => name.value ++ ": " ++ type.text

def Parameter.text (parameter : Parameter) : String :=
  typedName parameter.name parameter.declaredType?

/-- Lines between curly brackets, one step further in than the given depth. -/
def braced (depth : Nat) : List String → String
  | [] => "\x7b\x7d"
  | line :: lines =>
      "\x7b\n" ++ joined "" ((line :: lines).map fun line => margin (depth + 1) ++ line ++ "\n")
        ++ margin depth ++ "\x7d"

/-- The canonical text of a list of imported names. -/
def importedNames (names : List Token) (inBraces : Bool) : String :=
  let names := joined ", " (names.map Token.value)
  if inBraces then "\x7b " ++ names ++ " \x7d" else names

mutual

/-- The canonical text of a statement whose first line stands at the given depth. -/
def Stmt.text (depth : Nat) : Stmt → String
  | .assignment name declaredType? value => typedName name declaredType? ++ " = " ++ value.text
  | .expression _ value => value.text
  | .block body => body.text depth
  | .conditional _ condition consequence none =>
      "if (" ++ condition.text ++ ") " ++ consequence.text depth
  | .conditional _ condition consequence (some alternative) =>
      "if (" ++ condition.text ++ ") " ++ consequence.text depth ++ " else "
        ++ alternative.text depth
  | .whileLoop _ condition body => "while (" ++ condition.text ++ ") " ++ body.text depth
  | .forOf _ loopVariable iterable body =>
      "for (" ++ loopVariable.value ++ " of " ++ iterable.text ++ ") " ++ body.text depth
  | .breakLoop _ => "break"
  | .continueLoop _ => "continue"
  | .returnValue _ none => "return"
  | .returnValue _ (some value) => "return " ++ value.text
  | .throwValue _ value => "throw " ++ value.text
  | .attempt _ body handler? finalizer? =>
      "try " ++ body.text depth ++ handlerText depth handler? ++ finalizerText depth finalizer?
  | .config _ keyword name entries =>
      keyword.value ++ " " ++ name.value ++ " "
        ++ braced depth (entries.map fun (key, value) => key ++ ": " ++ value.text)
  | .tool _ name parameters returnType? body =>
      "tool " ++ name.value ++ "(" ++ joined ", " (parameters.map Parameter.text) ++ ")"
        ++ (match returnType? with
          | none => ""
          | some type => ": " ++ type.text)
        ++ " " ++ body.text depth
  | .importNames _ names source inBraces =>
      "import " ++ importedNames names inBraces ++ " from " ++ stringLiteral source
  | .exported _ statement => "export " ++ statement.text depth

/-- The canonical text of a block whose first line stands at the given depth. -/
def Block.text (depth : Nat) : Block → String
  | .mk _ statements => braced depth (stmtTexts (depth + 1) statements)

/-- The canonical texts of statements at the given depth. -/
def stmtTexts (depth : Nat) : List Stmt → List String
  | [] => []
  | statement :: rest => statement.text depth :: stmtTexts depth rest

/-- The canonical text of a catch clause. -/
def handlerText (depth : Nat) : Option (Token × Block) → String
  | none => ""
  | some (parameter, block) => " catch (" ++ parameter.value ++ ") " ++ block.text depth

/-- The canonical text of a finally clause. -/
def finalizerText (depth : Nat) : Option Block → String
  | none => ""
  | some block => " finally " ++ block.text depth

end

/-- The canonical text of a program. -/
def Program.text (program : Program) : String := joined "\n" (stmtTexts 0 program.statements)

end AgentScript
