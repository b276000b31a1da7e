import AgentScript.Proofs.Scan.Order
import AgentScript.Proofs.Tree.Lawful

/-!
Contract: the tokens that a tree keeps, and lists of statements in source order.

Owns:
- the tokens that a part keeps itself, and those it keeps anywhere below;
- lists of statements that stand one after the other, with all of their tokens;
- parts that keep only some tokens, and whose lists of statements are in source order.
-/

set_option autoImplicit false

namespace AgentScript

/-- The tokens that an expression keeps itself: the one it comes from, and the name of a property. -/
def Expr.ownTokens : Expr → List Token
  | .member dot _ property => [dot, property]
  | value => [value.token]

/-- The tokens that a statement keeps itself: its first one, and the names it binds. -/
def Stmt.ownTokens (statement : Stmt) : List Token := statement.token :: statement.boundNames

namespace Node

/-- The tokens that a part keeps itself. -/
def ownTokens : Node → List Token
  | .program _ => []
  | .statement part => part.ownTokens
  | .block body => [body.brace]
  | .expression value => value.ownTokens

/-- A token that is kept in a part or anywhere below it. -/
def Keeps (node : Node) (token : Token) : Prop :=
  ∃ levels below, node.Way levels below ∧ token ∈ below.ownTokens

variable {node : Node} {token : Token}

theorem keeps_iff : node.Keeps token ↔
    token ∈ node.ownTokens ∨ ∃ child ∈ node.children, child.2.Keeps token := by
  constructor
  · rintro ⟨levels, below, way, own⟩
    cases way with
    | here => exact .inl own
    | step isChild onward => exact .inr ⟨_, isChild, _, _, onward, own⟩
  · rintro (own | ⟨⟨entered, child⟩, isChild, levels, below, onward, own⟩)
    · exact ⟨0, node, .here node, own⟩
    · exact ⟨entered + levels, below, .step isChild onward, own⟩

end Node

/-- Statements in the order of their places. All tokens of a statement stand at its own place or
after that, and before the statements after it. -/
structure StatementsInOrder (statements : List Stmt) : Prop where
  increasing : statements.Pairwise fun first second =>
    first.token.position.Before second.token.position
  within : ∀ statement ∈ statements, ∀ token, (Node.statement statement).Keeps token →
    statement.token.position ≤ token.position
  apart : statements.Pairwise fun first second =>
    ∀ token, (Node.statement first).Keeps token → token.position.Before second.token.position

namespace Node

/-- The statements of a program and of a block are in source order. -/
def InSourceOrder : Node → Prop
  | .program tree => StatementsInOrder tree.statements
  | .block body => StatementsInOrder body.statements
  | .statement _ | .expression _ => True

/-- Only such tokens are kept, and all lists of statements are in source order. -/
structure KeptAmong (among : Token → Prop) (node : Node) : Prop where
  tokens : ∀ token, node.Keeps token → among token
  order : node.Every InSourceOrder

variable {node : Node} {among : Token → Prop}

theorem KeptAmong.mono {larger : Token → Prop} (kept : node.KeptAmong among)
    (included : ∀ token, among token → larger token) : node.KeptAmong larger :=
  ⟨fun token keeps => included token (kept.tokens token keeps), kept.order⟩

theorem keptAmong_of_children (own : ∀ token ∈ node.ownTokens, among token)
    (order : node.InSourceOrder) (children : ∀ child ∈ node.children, child.2.KeptAmong among) :
    node.KeptAmong among where
  tokens := by
    intro token keeps
    rcases keeps_iff.1 keeps with isOwn | ⟨child, isChild, keepsBelow⟩
    · exact own token isOwn
    · exact (children child isChild).tokens token keepsBelow
  order := every_of_children order fun child isChild => (children child isChild).order

theorem keptAmong_expression {value : Expr} (own : ∀ token ∈ value.ownTokens, among token)
    (parts : ∀ part ∈ value.children, (Node.expression part.2).KeptAmong among) :
    (Node.expression value).KeptAmong among :=
  keptAmong_of_children own trivial (List.forall_mem_map.2 parts)

theorem keptAmong_statement {statement : Stmt} (first : among statement.token)
    (names : ∀ name ∈ statement.boundNames, among name)
    (parts : ∀ part ∈ statement.children, part.2.KeptAmong among) :
    (Node.statement statement).KeptAmong among :=
  keptAmong_of_children (List.forall_mem_cons.2 ⟨first, names⟩) trivial parts

theorem keptAmong_ofValue {value : Expr} (kept : (Node.expression value).KeptAmong among) :
    ∀ child ∈ ofValues [value], child.2.KeptAmong among :=
  forall_ofValues _ (List.forall_mem_singleton.2 kept)

theorem keptAmong_ofBlock {body : Block} (kept : (Node.block body).KeptAmong among) :
    ∀ child ∈ ofBlocks [body], child.2.KeptAmong among :=
  forall_ofBlocks _ (List.forall_mem_singleton.2 kept)

end Node

end AgentScript
