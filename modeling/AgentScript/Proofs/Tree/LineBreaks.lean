import AgentScript.Proofs.Text.Control
import AgentScript.Proofs.Tree.Lawful
import AgentScript.Proofs.Tree.Legible
import Mathlib.Algebra.GroupWithZero.Nat

/-!
Contract: the control characters in the canonical text of a well-formed tree.

Owns:
- the line breaks that programs, blocks and declarations are written with, counted over the tree;
- that a canonical text has these line breaks and no other control character, which holds of every
  part of a program;
- that the text of an expression has none at all.

A line break is written by the gap before a token and by nothing else. Therefore the text is free of
control characters token by token, and its line breaks are counted over the gaps.
-/

set_option autoImplicit false

namespace AgentScript

open Printed

/-! ## Line breaks that are written -/

/-- The line breaks between curly brackets around the given number of lines. -/
def bracedLineBreaks (lines : Nat) : Nat := if lines = 0 then 0 else lines + 1

mutual

/-- The line breaks that the blocks and declarations of a statement are written with. -/
def Stmt.lineBreaks : Stmt → Nat
  | .block body => body.lineBreaks
  | .conditional _ _ consequence none => consequence.lineBreaks
  | .conditional _ _ consequence (some alternative) =>
      consequence.lineBreaks + alternative.lineBreaks
  | .whileLoop _ _ body => body.lineBreaks
  | .forOf _ _ _ body => body.lineBreaks
  | .attempt _ body handler? finalizer? =>
      body.lineBreaks + handlerLineBreaks handler? + finalizerLineBreaks finalizer?
  | .config _ _ _ entries => bracedLineBreaks entries.length
  | .tool _ _ _ _ body => body.lineBreaks
  | .exported _ statement => statement.lineBreaks
  | .assignment .. | .expression .. | .breakLoop _ | .continueLoop _ | .returnValue ..
  | .throwValue .. | .importNames .. => 0

/-- The line breaks that a block is written with. -/
def Block.lineBreaks : Block → Nat
  | .mk _ statements => bracedLineBreaks statements.length + stmtsLineBreaks statements

/-- The line breaks inside statements. -/
def stmtsLineBreaks : List Stmt → Nat
  | [] => 0
  | statement :: rest => statement.lineBreaks + stmtsLineBreaks rest

def handlerLineBreaks : Option (Token × Block) → Nat
  | none => 0
  | some (_, block) => block.lineBreaks

def finalizerLineBreaks : Option Block → Nat
  | none => 0
  | some block => block.lineBreaks

end

/-- The line breaks that a program is written with: those between its statements and those inside
them. -/
def Program.lineBreaks (program : Program) : Nat :=
  program.statements.length - 1 + stmtsLineBreaks program.statements

theorem stmtsLineBreaks_eq_sum (statements : List Stmt) :
    stmtsLineBreaks statements = (statements.map Stmt.lineBreaks).sum := by
  induction statements with
  | nil => rfl
  | cons statement rest inductionHypothesis =>
      rw [stmtsLineBreaks, inductionHypothesis, List.map_cons, List.sum_cons]

/-! ## Gaps that break the line -/

/-- The line breaks in the gaps before printed tokens. -/
def feeds (tokens : List Printed) : Nat := tokens.countP fun printed => printed.gap.breaks

/-- The line breaks in a gap. -/
def Gap.feeds (gap : Gap) : Nat := if gap.breaks then 1 else 0

@[simp] theorem Gap.feeds_none : Gap.feeds .none = 0 := rfl

@[simp] theorem Gap.feeds_top : Gap.feeds .top = 0 := rfl

@[simp] theorem Gap.feeds_space : Gap.feeds .space = 0 := rfl

@[simp] theorem Gap.feeds_line (depth : Nat) : Gap.feeds (.line depth) = 1 := rfl

@[simp] theorem feeds_nil : feeds [] = 0 := rfl

@[simp] theorem feeds_cons (printed : Printed) (rest : List Printed) :
    feeds (printed :: rest) = printed.gap.feeds + feeds rest := by
  rw [feeds, List.countP_cons, Nat.add_comm]
  rfl

@[simp] theorem feeds_append (left right : List Printed) :
    feeds (left ++ right) = feeds left + feeds right :=
  List.countP_append

section

variable {α : Type}

/-- Pieces with commas between them stand on one line if each of them does. -/
theorem feeds_separated (items : List α) (piece : α → Gap → List Printed)
    (inline : ∀ item ∈ items, ∀ gap, feeds (piece item gap) = gap.feeds) {gap : Gap}
    (noBreak : gap.feeds = 0) : feeds (separated gap (items.map piece)) = 0 := by
  have further : ∀ items : List α, (∀ item ∈ items, ∀ gap, feeds (piece item gap) = gap.feeds) →
      feeds ((items.map piece).flatMap fun piece => ⟨.none, .comma, ","⟩ :: piece .space) = 0 := by
    intro items inline
    induction items with
    | nil => rfl
    | cons item rest inductionHypothesis =>
        have first := inline item List.mem_cons_self .space
        have others := inductionHypothesis fun item member =>
          inline item (List.mem_cons_of_mem _ member)
        simp [first, others]
  cases items with
  | nil => rfl
  | cons first rest =>
      have others := further rest fun item member => inline item (List.mem_cons_of_mem _ member)
      have start := inline first List.mem_cons_self gap
      simp [separated, start, noBreak, others]

/-- Pieces on lines of their own break the line once each, besides the line breaks inside them. -/
theorem feeds_lines (items : List α) (piece : α → Gap → List Printed) (inside : α → Nat)
    (depth : Nat)
    (each : ∀ item ∈ items, ∀ gap, feeds (piece item gap) = gap.feeds + inside item) :
    feeds ((items.map piece).flatMap fun piece => piece (.line depth)) =
      items.length + (items.map inside).sum := by
  induction items with
  | nil => rfl
  | cons item rest inductionHypothesis =>
      have first := each item List.mem_cons_self (.line depth)
      have others := inductionHypothesis fun item member =>
        each item (List.mem_cons_of_mem _ member)
      simp only [List.map_cons, List.flatMap_cons, feeds_append, first, others, Gap.feeds_line,
        List.length_cons, List.sum_cons]
      omega

theorem feeds_bracedLines (items : List α) (piece : α → Gap → List Printed) (inside : α → Nat)
    (each : ∀ item ∈ items, ∀ gap, feeds (piece item gap) = gap.feeds + inside item)
    (depth : Nat) (gap : Gap) :
    feeds (bracedLines depth gap (items.map piece)) =
      gap.feeds + (bracedLineBreaks items.length + (items.map inside).sum) := by
  have lines := feeds_lines items piece inside (depth + 1) each
  cases items with
  | nil => simp [bracedLines, bracedLineBreaks]
  | cons first rest =>
      simp only [List.map_cons, List.length_cons, List.sum_cons] at lines
      simp only [bracedLines, List.cons_append, feeds_cons, feeds_append, lines, feeds_nil,
        List.map_cons, List.isEmpty_cons, Bool.false_eq_true, ↓reduceIte, Gap.feeds_line,
        bracedLineBreaks, List.length_cons, Nat.add_one_ne_zero, List.sum_cons]
      omega

end

theorem TypeExpr.feeds_printed (type : TypeExpr) (gap : Gap) :
    feeds (type.printed gap) = gap.feeds := by
  induction type with
  | named name => simp [TypeExpr.printed, word]
  | array element inductionHypothesis =>
      simp [TypeExpr.printed, inductionHypothesis, openBracket, closeBracket]

@[simp] theorem feeds_typePrinted (type? : Option TypeExpr) : feeds (typePrinted type?) = 0 := by
  cases type? <;> simp [typePrinted, colon, TypeExpr.feeds_printed]

@[simp] theorem feeds_namesPrinted (names : List Token) (inBraces : Bool) :
    feeds (namesPrinted names inBraces) = 0 := by
  have list := feeds_separated names (fun token gap => [Printed.name gap token])
    (by simp [Printed.name]) Gap.feeds_space
  cases inBraces <;> simp [namesPrinted, list]

/-- No line is broken inside an expression. -/
theorem Expr.WellFormed.feeds_printed {expr : Expr} (wellFormed : expr.WellFormed) (gap : Gap) :
    feeds (expr.printed gap) = gap.feeds := by
  induction wellFormed generalizing gap with
  | identifier | number | string | template | boolean | null =>
      simp [Expr.printed, Printed.name, Printed.operator]
  | binary _ _ _ _ left right =>
      simp [Expr.printed, Printed.operator, openParen, closeParen, left, right]
  | unary _ _ _ operand => simp [Expr.printed, Printed.operator, openParen, closeParen, operand]
  | pipe _ _ _ left right => simp [Expr.printed, openParen, closeParen, left, right]
  | @call _ _ arguments _ _ _ function argumentFeeds =>
      have list := feeds_separated arguments Expr.printed argumentFeeds Gap.feeds_none
      simp [Expr.printed, exprsPrinted_eq_map, openParen, closeParen, function, list]
  | member _ _ _ _ object => simp [Expr.printed, Printed.operator, object]
  | index _ _ _ object position =>
      simp [Expr.printed, openParen, closeParen, openBracket, closeBracket, object, position]
  | @array _ elements _ _ elementFeeds =>
      have list := feeds_separated elements Expr.printed elementFeeds Gap.feeds_none
      simp [Expr.printed, exprsPrinted_eq_map, openBracket, closeBracket, list]
  | @object _ entries _ _ _ valueFeeds =>
      have list := feeds_separated entries entryPrinted (fun entry member gap => by
        simp [entryPrinted, Printed.key, colon, valueFeeds entry member]) Gap.feeds_none
      simp [Expr.printed, entriesPrinted_eq_map, list]

theorem Parameter.feeds_printed (parameter : Parameter) (gap : Gap) :
    feeds (parameter.printed gap) = gap.feeds := by
  simp [Parameter.printed, Printed.name]

/-- The line breaks of a printed statement are the one before it, if any, and those that its blocks
and declarations are written with. -/
theorem Stmt.WellFormed.feeds_printed {statement : Stmt} (wellFormed : statement.WellFormed)
    (depth : Nat) (gap : Gap) :
    feeds (statement.printed depth gap) = gap.feeds + statement.lineBreaks := by
  induction wellFormed generalizing depth gap with
  | assignment _ _ value =>
      simp [Stmt.printed, Stmt.lineBreaks, Printed.name, value.feeds_printed]
  | expression value => simp [Stmt.printed, Stmt.lineBreaks, value.feeds_printed]
  | @block _ statements _ _ _ each =>
      simp only [Stmt.printed, Block.printed, Stmt.lineBreaks, Block.lineBreaks,
        stmtsPrinted_eq_map, stmtsLineBreaks_eq_sum]
      exact feeds_bracedLines statements (Stmt.printed (depth + 1)) Stmt.lineBreaks
        (fun statement member => each statement member (depth + 1)) depth gap
  | @conditional _ _ _ alternative? _ condition _ _ _ consequence alternative =>
      simp only [Stmt.printed, Stmt.lineBreaks] at consequence
      cases alternative? with
      | none =>
          simp [Stmt.printed, Stmt.lineBreaks, keyword, openParen, closeParen,
            condition.feeds_printed, consequence]
      | some other =>
          simp [Stmt.printed, Stmt.lineBreaks, keyword, openParen, closeParen,
            condition.feeds_printed, consequence, alternative other rfl]
  | whileLoop _ condition _ body =>
      simp only [Stmt.printed, Stmt.lineBreaks] at body
      simp [Stmt.printed, Stmt.lineBreaks, keyword, openParen, closeParen,
        condition.feeds_printed, body]
  | forOf _ _ iterable _ body =>
      simp only [Stmt.printed, Stmt.lineBreaks] at body
      simp [Stmt.printed, Stmt.lineBreaks, keyword, openParen, closeParen, Printed.name,
        iterable.feeds_printed, body]
  | breakLoop | continueLoop => simp [Stmt.printed, Stmt.lineBreaks, keyword]
  | @returnValue _ value? _ value =>
      cases value? with
      | none => simp [Stmt.printed, Stmt.lineBreaks, keyword]
      | some some =>
          simp [Stmt.printed, Stmt.lineBreaks, keyword, (value some rfl).feeds_printed]
  | throwValue _ value =>
      simp [Stmt.printed, Stmt.lineBreaks, keyword, value.feeds_printed]
  | @attempt _ _ handler? finalizer? _ _ _ _ _ _ body handler finalizer =>
      simp only [Stmt.printed, Stmt.lineBreaks] at body handler finalizer
      have handlerFeeds : feeds (handlerPrinted depth handler?) = handlerLineBreaks handler? := by
        cases handler? with
        | none => rfl
        | some clause =>
            simp [handlerPrinted, handlerLineBreaks, keyword, openParen, closeParen, Printed.name,
              handler clause rfl]
      have finalizerFeeds :
          feeds (finalizerPrinted depth finalizer?) = finalizerLineBreaks finalizer? := by
        cases finalizer? with
        | none => rfl
        | some block => simp [finalizerPrinted, finalizerLineBreaks, keyword, finalizer block rfl]
      simp only [Stmt.printed, Stmt.lineBreaks, keyword, List.cons_append, feeds_cons, feeds_append,
        body, handlerFeeds, finalizerFeeds, Gap.feeds_space]
      omega
  | @config _ _ _ entries _ _ _ _ _ _ values =>
      have entryFeeds : ∀ entry ∈ entries, ∀ gap,
          feeds (configEntryPrinted entry gap) = gap.feeds + 0 := by
        intro entry member gap
        simp [configEntryPrinted, word, colon, (values entry member).feeds_printed]
      have body := feeds_bracedLines entries configEntryPrinted (fun _ => 0) entryFeeds depth .space
      have none : (entries.map fun _ => 0).sum = 0 := by simp [List.map_const']
      rw [none, Nat.add_zero] at body
      simp [Stmt.printed, Stmt.lineBreaks, Printed.operator, Printed.name, body]
  | @tool _ _ parameters _ _ _ _ _ _ _ body =>
      simp only [Stmt.printed, Stmt.lineBreaks] at body
      have list := feeds_separated parameters Parameter.printed
        (fun parameter _ => parameter.feeds_printed) Gap.feeds_none
      simp [Stmt.printed, Stmt.lineBreaks, keyword, openParen, closeParen, Printed.name, list, body]
  | importNames => simp [Stmt.printed, Stmt.lineBreaks, keyword]
  | exported _ _ _ declaration =>
      simp [Stmt.printed, Stmt.lineBreaks, keyword, declaration]

theorem Program.WellFormed.feeds_printed {program : Program} (wellFormed : program.WellFormed) :
    feeds program.printed = program.lineBreaks := by
  have formed := wellFormed.statements
  unfold Program.printed Program.lineBreaks
  rw [stmtsPrinted_eq_map, stmtsLineBreaks_eq_sum]
  cases statements : program.statements with
  | nil => rfl
  | cons first rest =>
      rw [statements] at formed
      have start := (formed first List.mem_cons_self).feeds_printed 0 .top
      have lines := feeds_lines rest (Stmt.printed 0) Stmt.lineBreaks 0 fun statement member =>
        (formed statement (List.mem_cons_of_mem _ member)).feeds_printed 0
      simp only [List.map_cons, feeds_append, start, lines, Gap.feeds_top, List.length_cons,
        List.sum_cons]
      omega

/-! ## The text of legible tokens -/

/-- The text has the given number of line breaks, and no other control character. -/
structure BreaksOnly (lines : Nat) (text : List Char) : Prop where
  controls : ∀ char ∈ text, isControl char = true → char = '\n'
  feeds : text.count '\n' = lines

theorem breaksOnly_zero_iff {text : List Char} : BreaksOnly 0 text ↔ ControlFree text := by
  constructor
  · intro breaks char member
    rw [Bool.eq_false_iff]
    intro control
    obtain rfl := breaks.controls char member control
    exact absurd member (List.count_eq_zero.1 breaks.feeds)
  · intro free
    refine ⟨fun char member control => ?_, List.count_eq_zero.2 fun member => ?_⟩
    · rw [free char member] at control
      cases control
    · exact absurd (free _ member) (by decide)

theorem BreaksOnly.append {left right : List Char} {first second : Nat}
    (breaksLeft : BreaksOnly first left) (breaksRight : BreaksOnly second right) :
    BreaksOnly (first + second) (left ++ right) where
  controls := List.forall_mem_append.2 ⟨breaksLeft.controls, breaksRight.controls⟩
  feeds := by rw [List.count_append, breaksLeft.feeds, breaksRight.feeds]

theorem Gap.breaksOnly (gap : Gap) : BreaksOnly gap.feeds gap.text := by
  have spaces (count : Nat) : ControlFree (List.replicate count ' ') := by
    intro char member
    obtain rfl := List.eq_of_mem_replicate member
    decide
  cases gap with
  | none | top => exact breaksOnly_zero_iff.2 .nil
  | space => exact breaksOnly_zero_iff.2 (spaces 1)
  | line depth =>
      have feed : BreaksOnly 1 ['\n'] := ⟨by simp, rfl⟩
      exact feed.append (breaksOnly_zero_iff.2 (spaces (2 * depth)))

/-- A token that a scan can give is written without control characters. -/
theorem controlFree_tokenText {kind : Kind} {value : String} {rest : List Char}
    (allows : kind.Allows value) (ends : kind.EndsBefore value rest) :
    ControlFree (tokenText kind value) := by
  cases kind with
  | string => exact controlFree_stringLiteral value
  | template => exact controlFree_templateLiteral value
  | identifier => exact controlFree_of_isPlainName allows
  | number =>
      have whole : numberText value.toList = value.toList := allows.2
      rw [tokenText_eq_value _ (by simp) (by simp), ← whole]
      exact controlFree_numberText _
  | illegal | endOfInput | comment => cases ends
  | _ => exact controlFree_of_fixedText? allows

theorem Legible.breaksOnly {tokens : List Printed} {rest : List Char}
    (legible : Legible tokens rest) : BreaksOnly (feeds tokens) (printedText tokens) := by
  induction tokens with
  | nil => exact breaksOnly_zero_iff.2 .nil
  | cons printed following inductionHypothesis =>
      obtain ⟨⟨allows, ends⟩, legibleRest⟩ := legible
      have token := breaksOnly_zero_iff.2 (controlFree_tokenText allows ends)
      have whole := printed.gap.breaksOnly.append (token.append (inductionHypothesis legibleRest))
      rw [printedText_cons, feeds_cons]
      rwa [Nat.zero_add] at whole

/-! ## Trees -/

theorem Expr.WellFormed.controlFree {expr : Expr} (wellFormed : expr.WellFormed) :
    ControlFree expr.text.toList := by
  have breaks := (wellFormed.legible .none separates_nil).breaksOnly
  rw [wellFormed.feeds_printed, wellFormed.printedText_eq] at breaks
  exact breaksOnly_zero_iff.1 breaks

theorem Stmt.WellFormed.breaksOnly {statement : Stmt} (wellFormed : statement.WellFormed)
    (depth : Nat) : BreaksOnly statement.lineBreaks (statement.text depth).toList := by
  have breaks := (wellFormed.legible depth .none separates_nil).breaksOnly
  rw [wellFormed.feeds_printed, wellFormed.printedText_eq] at breaks
  simpa using breaks

theorem Program.WellFormed.breaksOnly {program : Program} (wellFormed : program.WellFormed) :
    BreaksOnly program.lineBreaks program.text.toList := by
  have breaks := wellFormed.legible.breaksOnly
  rwa [wellFormed.feeds_printed, wellFormed.printedText_eq] at breaks

/-- A part whose text has the line breaks that its blocks and declarations are written with, and no
other control character. -/
def Node.BreaksOnly : Node → Prop
  | .program tree => AgentScript.BreaksOnly tree.lineBreaks tree.text.toList
  | .statement part => ∀ depth, AgentScript.BreaksOnly part.lineBreaks (part.text depth).toList
  | .block body => ∀ depth, AgentScript.BreaksOnly body.lineBreaks (body.text depth).toList
  | .expression value => ControlFree value.text.toList

theorem Node.WellFormed.breaksOnly {node : Node} (good : node.WellFormed) : node.BreaksOnly := by
  cases node with
  | program tree => exact Program.WellFormed.breaksOnly good
  | statement part => exact Stmt.WellFormed.breaksOnly good
  | block body => exact Stmt.WellFormed.breaksOnly good
  | expression value => exact Expr.WellFormed.controlFree good

theorem Node.WellFormed.every_breaksOnly {node : Node} (good : node.WellFormed) :
    node.Every Node.BreaksOnly :=
  fun levels below way => (good.every levels below way).breaksOnly

end AgentScript
