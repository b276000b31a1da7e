import AgentScript.Proofs.Tree.Nodes
import AgentScript.Proofs.Tree.WellFormed

/-!
Contract: what every part of a tree satisfies by its form.

Owns:
- the law of an expression, of a statement, of a block and of a program, in the words of a tree alone;
- that a well-formed tree is lawful in every part of it.

A well-formed tree refers to the kinds of its tokens. Lawfulness says what follows for their texts.
-/

set_option autoImplicit false

namespace AgentScript

/-- The signs of binary operators. -/
def binarySigns : List String :=
  ["??", "||", "&&", "==", "!=", "<", "<=", ">", ">=", "+", "-", "*", "/", "%"]

/-- The signs of prefix operators. -/
def unarySigns : List String := ["!", "-"]

/-- The keyword that a configured declaration begins with. -/
def ConfigKind.keyword : ConfigKind → Keyword
  | .mcp => .mcpKw
  | .model => .modelKw
  | .agent => .agentKw

/-- The names that a statement itself binds. -/
def Stmt.boundNames : Stmt → List Token
  | .assignment name _ _ | .config _ _ name _ => [name]
  | .tool _ name parameters _ _ => name :: parameters.map Parameter.name
  | .forOf _ loopVariable _ _ => [loopVariable]
  | .attempt _ _ handler? _ => (handler?.map Prod.fst).toList
  | .importNames _ names _ _ => names
  | .expression .. | .block _ | .conditional .. | .whileLoop .. | .breakLoop _ | .continueLoop _
  | .returnValue .. | .throwValue .. | .exported .. => []

/-- Operators are among the known signs, keys differ, and the words for values are no names. -/
def Expr.Lawful : Expr → Prop
  | .identifier token => ¬ IsValueWord token.value
  | .binary operator _ _ => operator.value ∈ binarySigns
  | .unary operator _ => operator.value ∈ unarySigns
  | .object _ entries => (Entries.keys entries).Nodup
  | .number .. | .string _ | .template _ | .boolean .. | .null _ | .pipe .. | .call .. | .member ..
  | .index .. | .array .. => True

namespace Stmt

/-- What the form of a statement asks of the parts of it. -/
def FormLawful : Stmt → Prop
  | .conditional _ _ _ alternative? =>
      ∀ alternative ∈ alternative?, alternative.isAlternative = true
  | .attempt _ _ handler? finalizer? => handler?.isSome = true ∨ finalizer?.isSome = true
  | .config kind keyword _ entries =>
      keyword.kind = .keyword kind.keyword ∧ (Entries.keys entries).Nodup ∧
        ∀ key ∈ Entries.keys entries, isPlainName key = true ∨ (Keyword.ofWord? key).isSome = true
  | .importNames _ names _ braced => names ≠ [] ∧ (braced = false → names.length = 1)
  | .exported _ statement => statement.isExportable = true
  | .assignment .. | .expression .. | .block _ | .whileLoop .. | .forOf .. | .breakLoop _
  | .continueLoop _ | .returnValue .. | .throwValue .. | .tool .. => True

/-- A statement of a lawful form that binds plain names. -/
structure Lawful (statement : Stmt) : Prop where
  form : statement.FormLawful
  names : ∀ name ∈ statement.boundNames, isPlainName name.value = true

end Stmt

namespace Node

/-- The law of a part. A list of statements holds no block: one only stands as an alternative. -/
def Lawful : Node → Prop
  | .program tree => ∀ statement ∈ tree.statements, statement.isBlock = false
  | .block body => ∀ statement ∈ body.statements, statement.isBlock = false
  | .statement part => part.Lawful
  | .expression value => value.Lawful

/-- What reading asks of a part. -/
def WellFormed : Node → Prop
  | .program tree => tree.WellFormed
  | .block body => (Stmt.block body).WellFormed
  | .statement part => part.WellFormed
  | .expression value => value.WellFormed

end Node

/-! ## The parts of a well-formed part -/

theorem Expr.WellFormed.children {value : Expr} (good : value.WellFormed) :
    ∀ child ∈ value.children, child.2.WellFormed := by
  cases good with
  | identifier | number | string | template | boolean | null => simp [Expr.children]
  | binary _ _ left right | pipe _ left right => simpa [Expr.children] using ⟨left, right⟩
  | unary _ _ operand => simpa [Expr.children] using operand
  | call _ function arguments => simpa [Expr.children] using ⟨function, arguments⟩
  | member _ _ _ base => simpa [Expr.children] using base
  | index _ base position => simpa [Expr.children] using ⟨base, position⟩
  | array _ elements => simpa [Expr.children] using elements
  | object _ _ entries => exact List.forall_mem_map.2 entries

open Node in
theorem Stmt.WellFormed.children {statement : Stmt} (good : statement.WellFormed) :
    ∀ child ∈ statement.children, child.2.WellFormed := by
  have ofValue {value : Expr} (formed : value.WellFormed) :
      ∀ child ∈ ofValues [value], child.2.WellFormed :=
    forall_ofValues Node.WellFormed (List.forall_mem_singleton.2 formed)
  have ofBlock {body : Block} (formed : (Stmt.block body).WellFormed) :
      ∀ child ∈ ofBlocks [body], child.2.WellFormed :=
    forall_ofBlocks Node.WellFormed (List.forall_mem_singleton.2 formed)
  cases good with
  | assignment _ _ value | expression value | throwValue _ value => exact ofValue value
  | block brace statements noBlock => exact ofBlock (.block brace statements noBlock)
  | tool _ _ _ _ body => exact ofBlock body
  | conditional _ condition consequence alternative =>
      have others := forall_ofStatements Node.WellFormed fun statement member =>
        alternative statement (Option.mem_toList.1 member)
      simp only [Stmt.children, List.forall_mem_append]
      exact ⟨⟨ofValue condition, ofBlock consequence⟩, others⟩
  | whileLoop _ value body | forOf _ _ value body =>
      simp only [Stmt.children, List.forall_mem_append]
      exact ⟨ofValue value, ofBlock body⟩
  | breakLoop | continueLoop | importNames => simp [Stmt.children]
  | returnValue _ value =>
      exact forall_ofValues Node.WellFormed fun one member => value one (Option.mem_toList.1 member)
  | @attempt _ body handler? finalizer? _ bodyGood _ handler finalizer _ =>
      refine forall_ofBlocks Node.WellFormed ?_
      simp only [List.cons_append, List.forall_mem_cons, List.forall_mem_append, Option.mem_toList]
      refine ⟨bodyGood, fun block member => ?_, finalizer⟩
      obtain ⟨clause, isHandler, rfl⟩ := Option.map_eq_some_iff.1 member
      exact handler clause isHandler
  | config _ _ _ _ _ _ values => exact forall_ofValues Node.WellFormed (List.forall_mem_map.2 values)
  | exported _ _ declaration => exact List.forall_mem_singleton.2 declaration

theorem Node.WellFormed.children {node : Node} (good : node.WellFormed) :
    ∀ child ∈ node.children, child.2.WellFormed := by
  cases node with
  | program tree => exact forall_ofStatements Node.WellFormed good.statements
  | statement part => exact Stmt.WellFormed.children good
  | block body =>
      cases good with
      | block _ statements _ => exact forall_ofStatements Node.WellFormed statements
  | expression value => exact List.forall_mem_map.2 (Expr.WellFormed.children good)

/-! ## Lawfulness of a well-formed part -/

theorem Kind.Allows.mem_binarySigns {kind : Kind} {text : String} (allows : kind.Allows text)
    (binary : kind.infixForm? = some .binary) : text ∈ binarySigns := by
  cases kind <;> cases binary <;> cases allows <;> decide

theorem Kind.Allows.mem_unarySigns {kind : Kind} {text : String} (allows : kind.Allows text)
    (unary : kind.operandForm? = some .unary) : text ∈ unarySigns := by
  cases kind <;> cases unary <;> cases allows <;> decide

theorem Expr.WellFormed.lawful {value : Expr} (good : value.WellFormed) : value.Lawful := by
  cases good with
  | identifier _ noWord => exact noWord
  | binary binary spelled => exact spelled.mem_binarySigns binary
  | unary unary spelled => exact spelled.mem_unarySigns unary
  | object _ differ => exact differ
  | number | string | template | boolean | null | pipe | call | member | index | array => trivial

theorem Token.Is.isPlainName {name : Token} (identifier : name.Is .identifier) :
    isPlainName name.value = true := by
  obtain ⟨kind, spelled⟩ := identifier
  rwa [Token.WellSpelled, kind] at spelled

theorem IsMemberName.isPlainName_or_reserved {key : String} (names : IsMemberName key) :
    isPlainName key = true ∨ (Keyword.ofWord? key).isSome = true := by
  obtain ⟨kind, isName, allows⟩ := names
  cases kind with
  | identifier => exact .inl allows
  | keyword word =>
      cases allows
      exact .inr (by rw [Keyword.ofWord?_word]; rfl)
  | _ => cases isName

theorem Kind.eq_keyword_configKind {kind : Kind} (starts : kind.statementForm? = some .config) :
    kind = .keyword (Production.configKind kind).keyword := by
  cases kind with
  | keyword word => cases word <;> cases starts <;> rfl
  | _ => cases starts

theorem Stmt.WellFormed.lawful {statement : Stmt} (good : statement.WellFormed) :
    statement.Lawful := by
  have plain {names : List Token} (identifiers : ∀ name ∈ names, name.Is .identifier) :
      ∀ name ∈ names, isPlainName name.value = true :=
    fun name member => (identifiers name member).isPlainName
  cases good with
  | assignment name => exact ⟨trivial, plain (by simpa [boundNames] using name)⟩
  | expression | block | whileLoop | breakLoop | continueLoop | returnValue | throwValue =>
      exact ⟨trivial, plain (by simp [boundNames])⟩
  | conditional _ _ _ _ alternative => exact ⟨alternative, plain (by simp [boundNames])⟩
  | forOf _ loopVariable => exact ⟨trivial, plain (by simpa [boundNames] using loopVariable)⟩
  | @attempt _ _ handler? finalizer? _ _ handlerName _ _ clause =>
      refine ⟨?_, plain fun name member => ?_⟩
      · cases handler? <;> cases finalizer? <;> simp_all [FormLawful]
      · obtain ⟨handler, isHandler, rfl⟩ := Option.map_eq_some_iff.1 (Option.mem_toList.1 member)
        exact handlerName handler isHandler
  | config starts _ kind name differ keys =>
      refine ⟨⟨?_, differ, ?_⟩, plain (by simpa [boundNames] using name)⟩
      · rw [kind]
        exact Kind.eq_keyword_configKind starts
      · exact List.forall_mem_map.2 fun entry member => (keys entry member).isPlainName_or_reserved
  | tool _ name parameters =>
      refine ⟨trivial, plain ?_⟩
      simpa [boundNames] using ⟨name, fun parameter member => (parameters parameter member).name⟩
  | importNames _ some names single => exact ⟨⟨some, single⟩, plain names⟩
  | exported _ exportable => exact ⟨exportable, plain (by simp [boundNames])⟩

theorem Node.WellFormed.lawful {node : Node} (good : node.WellFormed) : node.Lawful := by
  cases node with
  | program tree => exact good.noBlock
  | statement part => exact Stmt.WellFormed.lawful good
  | block body =>
      cases good with
      | block _ _ noBlock => exact noBlock
  | expression value => exact Expr.WellFormed.lawful good

theorem Node.WellFormed.every {node : Node} (good : node.WellFormed) :
    node.Every Node.WellFormed :=
  Node.every_of_handedOn (fun _ => Node.WellFormed.children) good

theorem Node.WellFormed.every_lawful {node : Node} (good : node.WellFormed) :
    node.Every Node.Lawful :=
  fun levels below way => (good.every levels below way).lawful

end AgentScript
