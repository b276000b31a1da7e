import AgentScript.Grammar.Declaration
import AgentScript.Proofs.Token.FixedText

/-!
Contract: the trees that reading can build.

Owns: which tokens the forms of a tree keep, which names and keys they have, and how forms may be
nested in one another.

Nothing here refers to the order of the tokens of a script or to the brackets around a form.
-/

set_option autoImplicit false

namespace AgentScript

/-- A token of the given kind, with a text that this kind allows. -/
def Token.Is (kind : Kind) (token : Token) : Prop := token.kind = kind ∧ token.WellSpelled

/-- A type whose innermost name is one that a type may have. -/
def TypeExpr.WellFormed (type : TypeExpr) : Prop :=
  ∃ kind : Kind, kind.namesType = true ∧ kind.Allows type.baseName

/-- A name or a keyword, which may stand as a key of a declaration. -/
def IsMemberName (name : String) : Prop :=
  ∃ kind : Kind, kind.namesMember = true ∧ kind.Allows name

/-- The words that stand for values where a name would stand for a variable. -/
def IsValueWord (word : String) : Prop := word = "true" ∨ word = "false" ∨ word = "null"

inductive Expr.WellFormed : Expr → Prop where
  | identifier {token : Token} :
      token.Is .identifier → ¬ IsValueWord token.value → WellFormed (.identifier token)
  | number {token : Token} {value : Decimal} :
      token.Is .number → Decimal.ofText? token.value.toList = some value →
      WellFormed (.number token value)
  | string {token : Token} : token.Is .string → WellFormed (.string token)
  | template {token : Token} : token.Is .template → WellFormed (.template token)
  | boolean {token : Token} {value : Bool} :
      token.Is .identifier → token.value = (if value then "true" else "false") →
      WellFormed (.boolean token value)
  | null {token : Token} : token.Is .identifier → token.value = "null" → WellFormed (.null token)
  | binary {operator : Token} {left right : Expr} :
      operator.kind.infixForm? = some .binary → operator.WellSpelled →
      WellFormed left → WellFormed right → WellFormed (.binary operator left right)
  | unary {operator : Token} {operand : Expr} :
      operator.kind.operandForm? = some .unary → operator.WellSpelled →
      WellFormed operand → WellFormed (.unary operator operand)
  | pipe {operator : Token} {left right : Expr} :
      operator.Is .pipe → WellFormed left → WellFormed right →
      WellFormed (.pipe operator left right)
  | call {paren : Token} {function : Expr} {arguments : List Expr} :
      paren.Is .openParen → WellFormed function →
      (∀ argument ∈ arguments, WellFormed argument) → WellFormed (.call paren function arguments)
  | member {dot property : Token} {object : Expr} :
      dot.Is .dot → property.kind.namesMember = true → property.WellSpelled →
      WellFormed object → WellFormed (.member dot object property)
  | index {bracket : Token} {object position : Expr} :
      bracket.Is .openBracket → WellFormed object → WellFormed position →
      WellFormed (.index bracket object position)
  | array {bracket : Token} {elements : List Expr} :
      bracket.Is .openBracket → (∀ element ∈ elements, WellFormed element) →
      WellFormed (.array bracket elements)
  | object {brace : Token} {entries : List (String × Expr)} :
      brace.Is .openCurly → (Entries.keys entries).Nodup →
      (∀ entry ∈ entries, WellFormed entry.2) → WellFormed (.object brace entries)

structure Parameter.WellFormed (parameter : Parameter) : Prop where
  name : parameter.name.Is .identifier
  type : ∀ type ∈ parameter.declaredType?, type.WellFormed

namespace Stmt

/-- Whether a statement is a block, which only stands as an alternative. -/
def isBlock : Stmt → Bool
  | block _ => true
  | _ => false

/-- Whether a statement may follow `else`. -/
def isAlternative : Stmt → Bool
  | block _ | conditional .. => true
  | _ => false

/-- Statements as reading builds them. What is asked of a block is asked of it as a statement. -/
inductive WellFormed : Stmt → Prop where
  | assignment {name : Token} {type? : Option TypeExpr} {value : Expr} :
      name.Is .identifier → (∀ type ∈ type?, type.WellFormed) → value.WellFormed →
      WellFormed (.assignment name type? value)
  | expression {first : Token} {value : Expr} :
      value.WellFormed → WellFormed (.expression first value)
  | block {brace : Token} {statements : List Stmt} :
      brace.Is .openCurly → (∀ statement ∈ statements, WellFormed statement) →
      (∀ statement ∈ statements, statement.isBlock = false) →
      WellFormed (.block (.mk brace statements))
  | conditional {keyword : Token} {condition : Expr} {consequence : Block}
      {alternative? : Option Stmt} :
      keyword.Is (.keyword .ifKw) → condition.WellFormed → WellFormed (.block consequence) →
      (∀ alternative ∈ alternative?, WellFormed alternative) →
      (∀ alternative ∈ alternative?, alternative.isAlternative = true) →
      WellFormed (.conditional keyword condition consequence alternative?)
  | whileLoop {keyword : Token} {condition : Expr} {body : Block} :
      keyword.Is (.keyword .whileKw) → condition.WellFormed → WellFormed (.block body) →
      WellFormed (.whileLoop keyword condition body)
  | forOf {keyword loopVariable : Token} {iterable : Expr} {body : Block} :
      keyword.Is (.keyword .forKw) → loopVariable.Is .identifier → iterable.WellFormed →
      WellFormed (.block body) → WellFormed (.forOf keyword loopVariable iterable body)
  | breakLoop {keyword : Token} :
      keyword.Is (.keyword .breakKw) → WellFormed (.breakLoop keyword)
  | continueLoop {keyword : Token} :
      keyword.Is (.keyword .continueKw) → WellFormed (.continueLoop keyword)
  | returnValue {keyword : Token} {value? : Option Expr} :
      keyword.Is (.keyword .returnKw) → (∀ value ∈ value?, value.WellFormed) →
      WellFormed (.returnValue keyword value?)
  | throwValue {keyword : Token} {value : Expr} :
      keyword.Is (.keyword .throwKw) → value.WellFormed → WellFormed (.throwValue keyword value)
  | attempt {keyword : Token} {body : Block} {handler? : Option (Token × Block)}
      {finalizer? : Option Block} :
      keyword.Is (.keyword .tryKw) → WellFormed (.block body) →
      (∀ handler ∈ handler?, handler.1.Is .identifier) →
      (∀ handler ∈ handler?, WellFormed (.block handler.2)) →
      (∀ finalizer ∈ finalizer?, WellFormed (.block finalizer)) →
      (handler?.isNone && finalizer?.isNone) = false →
      WellFormed (.attempt keyword body handler? finalizer?)
  | config {kind : ConfigKind} {keyword name : Token} {entries : List (String × Expr)} :
      keyword.kind.statementForm? = some .config → keyword.WellSpelled →
      kind = Production.configKind keyword.kind → name.Is .identifier →
      (Entries.keys entries).Nodup → (∀ entry ∈ entries, IsMemberName entry.1) →
      (∀ entry ∈ entries, entry.2.WellFormed) → WellFormed (.config kind keyword name entries)
  | tool {keyword name : Token} {parameters : List Parameter} {returnType? : Option TypeExpr}
      {body : Block} :
      keyword.Is (.keyword .toolKw) → name.Is .identifier →
      (∀ parameter ∈ parameters, parameter.WellFormed) →
      (∀ type ∈ returnType?, type.WellFormed) → WellFormed (.block body) →
      WellFormed (.tool keyword name parameters returnType? body)
  | importNames {keyword : Token} {names : List Token} {source : String} {inBraces : Bool} :
      keyword.Is (.keyword .importKw) → names ≠ [] → (∀ name ∈ names, name.Is .identifier) →
      (inBraces = false → names.length = 1) →
      WellFormed (.importNames keyword names source inBraces)
  | exported {keyword : Token} {statement : Stmt} :
      keyword.Is (.keyword .exportKw) → statement.isExportable = true → WellFormed statement →
      WellFormed (.exported keyword statement)

end Stmt

/-- Every statement of a script is well formed, and none of them is a block. -/
structure Program.WellFormed (program : Program) : Prop where
  statements : ∀ statement ∈ program.statements, statement.WellFormed
  noBlock : ∀ statement ∈ program.statements, statement.isBlock = false

end AgentScript
