import AgentScript.Tree.Text

/-!
Contract: the tokens that the canonical text of a tree is made of.

Owns:
- what may stand before a token in a canonical text, and a token with it;
- the tokens of types, expressions, statements, blocks and programs, in order.

Does not own: that the canonical text is the text of these tokens, or that it is read as them.
-/

set_option autoImplicit false

namespace AgentScript

/-- What stands before a token in a canonical text. The start of the whole text counts as the start
of a line. -/
inductive Gap where
  | none
  | space
  | line (depth : Nat)
  | top
deriving DecidableEq, Repr

namespace Gap

def text : Gap → List Char
  | none | top => []
  | space => [' ']
  | line depth => '\n' :: List.replicate (2 * depth) ' '

/-- Whether the gap breaks the line. -/
def breaks : Gap → Bool
  | none | space | top => false
  | line _ => true

theorem ne_top_of_breaks {gap : Gap} (breaks : gap.breaks = true) : gap ≠ top := by
  rintro rfl
  cases breaks

end Gap

/-- A token of a canonical text, with what stands before it. -/
structure Printed where
  gap : Gap
  kind : Kind
  value : String
deriving DecidableEq, Repr

/-- How a token with the given kind and value is written in a canonical text. -/
def tokenText (kind : Kind) (value : String) : List Char :=
  match kind with
  | .string => (stringLiteral value).toList
  | .template => (templateLiteral value).toList
  | _ => value.toList

def Printed.text (printed : Printed) : List Char :=
  printed.gap.text ++ tokenText printed.kind printed.value

/-- The text of tokens one after the other. -/
def printedText (tokens : List Printed) : List Char := tokens.flatMap Printed.text

namespace Printed

/-- Pieces with commas between them. Each piece is printed after a gap. -/
def separated (gap : Gap) : List (Gap → List Printed) → List Printed
  | [] => []
  | piece :: pieces =>
      piece gap ++ pieces.flatMap fun piece => ⟨.none, .comma, ","⟩ :: piece .space

/-- Pieces between curly brackets, each on a line one step further in than the given depth. -/
def bracedLines (depth : Nat) (gap : Gap) (pieces : List (Gap → List Printed)) : List Printed :=
  ⟨gap, .openCurly, "\x7b"⟩ :: pieces.flatMap (fun piece => piece (.line (depth + 1))) ++
    [⟨if pieces.isEmpty then .none else .line depth, .closeCurly, "\x7d"⟩]

/-- A word that may be a keyword. -/
def word (gap : Gap) (value : String) : Printed := ⟨gap, wordKind value.toList, value⟩

def keyword (gap : Gap) (keyword : Keyword) : Printed := ⟨gap, .keyword keyword, keyword.word⟩

def name (gap : Gap) (token : Token) : Printed := ⟨gap, .identifier, token.value⟩

/-- A key of an object literal. -/
def key (gap : Gap) (value : String) : Printed :=
  ⟨gap, if isPlainName value then .identifier else .string, value⟩

def operator (gap : Gap) (token : Token) : Printed := ⟨gap, token.kind, token.value⟩

def openParen (gap : Gap) : Printed := ⟨gap, .openParen, "("⟩

def closeParen : Printed := ⟨.none, .closeParen, ")"⟩

def openBracket (gap : Gap) : Printed := ⟨gap, .openBracket, "["⟩

def closeBracket : Printed := ⟨.none, .closeBracket, "]"⟩

def colon : Printed := ⟨.none, .colon, ":"⟩

end Printed

open Printed

def TypeExpr.printed (gap : Gap) : TypeExpr → List Printed
  | named name => [word gap name]
  | array element => element.printed gap ++ [openBracket .none, closeBracket]

mutual

def Expr.printed : Expr → Gap → List Printed
  | .identifier token, gap => [name gap token]
  | .number token _, gap => [operator gap token]
  | .string token, gap => [operator gap token]
  | .template token, gap => [operator gap token]
  | .boolean _ value, gap => [⟨gap, .identifier, if value then "true" else "false"⟩]
  | .null _, gap => [⟨gap, .identifier, "null"⟩]
  | .binary token left right, gap =>
      openParen gap :: left.printed .none ++ operator .space token :: right.printed .space ++
        [closeParen]
  | .unary token operand, gap =>
      openParen gap :: operator .none token :: operand.printed .none ++ [closeParen]
  | .pipe _ left right, gap =>
      openParen gap :: left.printed .none ++ ⟨.space, .pipe, "|"⟩ :: right.printed .space ++
        [closeParen]
  | .call _ function arguments, gap =>
      function.printed gap ++ openParen .none :: separated .none (exprsPrinted arguments) ++
        [closeParen]
  | .member _ object property, gap =>
      object.printed gap ++ [⟨.none, .dot, "."⟩, operator .none property]
  | .index _ object position, gap =>
      openParen gap :: object.printed .none ++ openBracket .none :: position.printed .none ++
        [closeBracket, closeParen]
  | .array _ elements, gap =>
      openBracket gap :: separated .none (exprsPrinted elements) ++ [closeBracket]
  | .object _ entries, gap =>
      ⟨gap, .openCurly, "\x7b"⟩ :: separated .none (entriesPrinted entries) ++
        [⟨.none, .closeCurly, "\x7d"⟩]

def exprsPrinted : List Expr → List (Gap → List Printed)
  | [] => []
  | expr :: rest => expr.printed :: exprsPrinted rest

def entriesPrinted : List (String × Expr) → List (Gap → List Printed)
  | [] => []
  | (text, value) :: rest =>
      (fun gap => key gap text :: colon :: value.printed .space) :: entriesPrinted rest

end

/-- The type after a colon, if there is one. -/
def typePrinted : Option TypeExpr → List Printed
  | none => []
  | some type => colon :: type.printed .space

def Parameter.printed (parameter : Parameter) (gap : Gap) : List Printed :=
  Printed.name gap parameter.name :: typePrinted parameter.declaredType?

/-- An entry of a configured declaration. -/
def configEntryPrinted (entry : String × Expr) (gap : Gap) : List Printed :=
  word gap entry.1 :: colon :: entry.2.printed .space

/-- The names of an import. -/
def namesPrinted (names : List Token) (inBraces : Bool) : List Printed :=
  let pieces := names.map fun token gap => [name gap token]
  if inBraces then
    ⟨.space, .openCurly, "\x7b"⟩ :: separated .space pieces ++ [⟨.space, .closeCurly, "\x7d"⟩]
  else separated .space pieces

mutual

def Stmt.printed (depth : Nat) : Stmt → Gap → List Printed
  | .assignment target declaredType? value, gap =>
      name gap target :: typePrinted declaredType? ++ ⟨.space, .assign, "="⟩ :: value.printed .space
  | .expression _ value, gap => value.printed gap
  | .block body, gap => body.printed depth gap
  | .conditional _ condition consequence none, gap =>
      keyword gap .ifKw :: openParen .space :: condition.printed .none ++ closeParen ::
        consequence.printed depth .space
  | .conditional _ condition consequence (some alternative), gap =>
      keyword gap .ifKw :: openParen .space :: condition.printed .none ++ closeParen ::
        consequence.printed depth .space ++ keyword .space .elseKw ::
        alternative.printed depth .space
  | .whileLoop _ condition body, gap =>
      keyword gap .whileKw :: openParen .space :: condition.printed .none ++ closeParen ::
        body.printed depth .space
  | .forOf _ loopVariable iterable body, gap =>
      keyword gap .forKw :: openParen .space :: name .none loopVariable ::
        keyword .space .ofKw :: iterable.printed .space ++ closeParen :: body.printed depth .space
  | .breakLoop _, gap => [keyword gap .breakKw]
  | .continueLoop _, gap => [keyword gap .continueKw]
  | .returnValue _ none, gap => [keyword gap .returnKw]
  | .returnValue _ (some value), gap => keyword gap .returnKw :: value.printed .space
  | .throwValue _ value, gap => keyword gap .throwKw :: value.printed .space
  | .attempt _ body handler? finalizer?, gap =>
      keyword gap .tryKw :: body.printed depth .space ++ handlerPrinted depth handler? ++
        finalizerPrinted depth finalizer?
  | .config _ token target entries, gap =>
      operator gap token :: name .space target ::
        bracedLines depth .space (entries.map configEntryPrinted)
  | .tool _ target parameters returnType? body, gap =>
      keyword gap .toolKw :: name .space target :: openParen .none ::
        separated .none (parameters.map Parameter.printed) ++ closeParen ::
        typePrinted returnType? ++ body.printed depth .space
  | .importNames _ names source inBraces, gap =>
      keyword gap .importKw :: namesPrinted names inBraces ++
        [keyword .space .fromKw, ⟨.space, .string, source⟩]
  | .exported _ statement, gap => keyword gap .exportKw :: statement.printed depth .space

def Block.printed (depth : Nat) : Block → Gap → List Printed
  | .mk _ statements, gap => bracedLines depth gap (stmtsPrinted (depth + 1) statements)

def stmtsPrinted (depth : Nat) : List Stmt → List (Gap → List Printed)
  | [] => []
  | statement :: rest => statement.printed depth :: stmtsPrinted depth rest

def handlerPrinted (depth : Nat) : Option (Token × Block) → List Printed
  | none => []
  | some (parameter, block) =>
      keyword .space .catchKw :: openParen .space :: name .none parameter :: closeParen ::
        block.printed depth .space

def finalizerPrinted (depth : Nat) : Option Block → List Printed
  | none => []
  | some block => keyword .space .finallyKw :: block.printed depth .space

end

/-- The first statement stands at the start of the text, every other on a line of its own. -/
def Program.printed (program : Program) : List Printed :=
  match stmtsPrinted 0 program.statements with
  | [] => []
  | first :: rest => first .top ++ rest.flatMap fun piece => piece (.line 0)

theorem exprsPrinted_eq_map (exprs : List Expr) : exprsPrinted exprs = exprs.map Expr.printed := by
  induction exprs with
  | nil => rfl
  | cons expr rest inductionHypothesis => rw [exprsPrinted, inductionHypothesis, List.map_cons]

/-- An entry of an object literal. -/
def entryPrinted (entry : String × Expr) (gap : Gap) : List Printed :=
  key gap entry.1 :: colon :: entry.2.printed .space

theorem entriesPrinted_eq_map (entries : List (String × Expr)) :
    entriesPrinted entries = entries.map entryPrinted := by
  induction entries with
  | nil => rfl
  | cons entry rest inductionHypothesis =>
      rw [entriesPrinted, inductionHypothesis, List.map_cons]
      rfl

theorem stmtsPrinted_eq_map (depth : Nat) (statements : List Stmt) :
    stmtsPrinted depth statements = statements.map (Stmt.printed depth) := by
  induction statements with
  | nil => rfl
  | cons statement rest inductionHypothesis =>
      rw [stmtsPrinted, inductionHypothesis, List.map_cons]

end AgentScript
