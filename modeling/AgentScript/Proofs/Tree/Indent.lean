import AgentScript.Proofs.Source.Line
import AgentScript.Proofs.Tree.LineBreaks

/-!
Contract: canonical texts put together from the texts of their parts, moved line by line.

Owns:
- a text with all of its lines moved two columns to the right;
- that this makes the canonical text of a well-formed statement at any depth its text one step further
  in;
- that a block and a configured declaration are written with their lines moved in this way, which
  holds of every part of a program.

A canonical text is written straight at its depth. It is the one that moving its parts gives because
no line feed stands inside a token, no line ends with a carriage return, and no statement with a line
feed.
-/

set_option autoImplicit false

namespace AgentScript

open Printed

/-! ## Moving the lines of a text -/

/-- The lines of a text, from the pieces between its line feeds. A line feed at the end of the text
starts no line. The carriage return before a line feed belongs to the line ending. -/
def endedLines : List (List Char) → List (List Char)
  | [] => []
  | [last] => if last = [] then [] else [last]
  | line :: next :: more => withoutCarriageReturn line :: endedLines (next :: more)

/-- A text with each of its lines two columns further to the right. -/
def indent (text : String) : String :=
  String.ofList (joinLines ((endedLines (splitLines text.toList)).map fun line => ' ' :: ' ' :: line))

/-- A text with two spaces after each of its line feeds. -/
def spacedFeeds (text : List Char) : List Char :=
  text.flatMap fun char => if char = '\n' then ['\n', ' ', ' '] else [char]

theorem spacedFeeds_append (left right : List Char) :
    spacedFeeds (left ++ right) = spacedFeeds left ++ spacedFeeds right :=
  List.flatMap_append

theorem spacedFeeds_of_not_mem {text : List Char} (noFeed : '\n' ∉ text) :
    spacedFeeds text = text := by
  induction text with
  | nil => rfl
  | cons char rest inductionHypothesis =>
      obtain ⟨other, noFeedRest⟩ := not_or.1 (mt List.mem_cons.2 noFeed)
      rw [spacedFeeds, List.flatMap_cons, if_neg (Ne.symm other), ← spacedFeeds,
        inductionHypothesis noFeedRest]
      rfl

/-- The lines of a text, each with two spaces in front. -/
theorem joinLines_map_splitLines (text : List Char) :
    joinLines ((splitLines text).map fun line => ' ' :: ' ' :: line) =
      ' ' :: ' ' :: spacedFeeds text := by
  induction text with
  | nil => rfl
  | cons char rest inductionHypothesis =>
      by_cases feed : char = '\n'
      · subst feed
        obtain ⟨line, lines, split⟩ := List.exists_cons_of_ne_nil (splitLines_ne_nil rest)
        rw [split] at inductionHypothesis
        simp only [splitLines, split, ↓reduceIte, List.map_cons, joinLines] at inductionHypothesis ⊢
        rw [inductionHypothesis]
        rfl
      · obtain ⟨line, lines, split, splitCons⟩ := splitLines_cons_of_ne feed rest
        rw [split] at inductionHypothesis
        have kept : spacedFeeds (char :: rest) = char :: spacedFeeds rest := by
          simp [spacedFeeds, feed]
        rw [splitCons, kept]
        cases lines <;> simp_all [joinLines]

/-! ## Texts that end in a line -/

/-- A text that has no carriage return, and has something after its last line feed. -/
structure EndsInLine (text : List Char) : Prop where
  noReturn : '\r' ∉ text
  ends : ∃ last ∈ text.getLast?, last ≠ '\n'

theorem endedLines_eq {lines : List (List Char)} (noReturn : ∀ line ∈ lines, '\r' ∉ line)
    (ends : lines.getLast? ≠ some []) : endedLines lines = lines := by
  induction lines using endedLines.induct with
  | case1 => rfl
  | case2 => exact absurd rfl ends
  | case3 last nonempty => rw [endedLines, if_neg nonempty]
  | case4 line next more inductionHypothesis =>
      have kept : withoutCarriageReturn line = line :=
        if_neg fun last => noReturn line List.mem_cons_self (List.mem_of_getLast? last)
      rw [List.getLast?_cons_cons] at ends
      rw [endedLines, kept,
        inductionHypothesis (fun other member => noReturn other (.tail _ member)) ends]

theorem mem_of_mem_splitLines {text line : List Char} (isLine : line ∈ splitLines text) {char : Char}
    (member : char ∈ line) : char ∈ text := by
  induction text generalizing line with
  | nil =>
      obtain rfl := List.mem_singleton.1 isLine
      exact member
  | cons first rest inductionHypothesis =>
      by_cases feed : first = '\n'
      · rw [splitLines, if_pos feed] at isLine
        rcases List.mem_cons.1 isLine with rfl | later
        · cases member
        · exact .tail _ (inductionHypothesis later member)
      · obtain ⟨head, lines, split, splitCons⟩ := splitLines_cons_of_ne feed rest
        rw [splitCons] at isLine
        rw [split] at inductionHypothesis
        rcases List.mem_cons.1 isLine with rfl | later
        · rcases List.mem_cons.1 member with rfl | inHead
          · exact .head _
          · exact .tail _ (inductionHypothesis (.head _) inHead)
        · exact .tail _ (inductionHypothesis (.tail _ later) member)

theorem getLast?_splitLines (text : List Char) :
    (splitLines text).getLast? = some (lastLine text) := by
  have last := getElem?_splitLines text []
  rw [List.append_nil, firstLine, List.takeWhile_nil, List.append_nil] at last
  rw [List.getLast?_eq_getElem?, length_splitLines, Nat.add_sub_cancel, last]

/-- Moving the lines of such a text puts two spaces in front of it and after each line feed. -/
theorem EndsInLine.toList_indent {text : String} (whole : EndsInLine text.toList) :
    (indent text).toList = ' ' :: ' ' :: spacedFeeds text.toList := by
  have ends : (splitLines text.toList).getLast? ≠ some [] := by
    obtain ⟨last, isLast, other⟩ := whole.ends
    obtain ⟨front, split⟩ := List.getLast?_eq_some_iff.1 isLast
    rw [getLast?_splitLines, split, lastLine, List.rtakeWhile_concat_pos _ _ _ (by simpa using other)]
    simp
  have lines := endedLines_eq (fun line isLine member =>
    whole.noReturn (mem_of_mem_splitLines isLine member)) ends
  rw [indent, lines, joinLines_map_splitLines, String.toList_ofList]

/-! ## Printed tokens one step further in -/

/-- A gap one step further in. -/
def Gap.deeper : Gap → Gap
  | .line depth => .line (depth + 1)
  | gap => gap

@[simp] theorem Gap.deeper_none : Gap.deeper .none = .none := rfl

@[simp] theorem Gap.deeper_space : Gap.deeper .space = .space := rfl

@[simp] theorem Gap.deeper_line (depth : Nat) : Gap.deeper (.line depth) = .line (depth + 1) := rfl

theorem Gap.deeper_of_breaks {gap : Gap} (inline : gap.breaks = false) : gap.deeper = gap := by
  cases gap with
  | none | top | space => rfl
  | line => cases inline

theorem Gap.text_deeper (gap : Gap) : gap.deeper.text = spacedFeeds gap.text := by
  cases gap with
  | none | top | space => rfl
  | line depth =>
      have blanks : spacedFeeds (List.replicate (2 * depth) ' ') = List.replicate (2 * depth) ' ' :=
        spacedFeeds_of_not_mem (by simp [List.mem_replicate])
      rw [text, ← List.singleton_append, spacedFeeds_append, blanks]
      rfl

def Printed.deeper (printed : Printed) : Printed := { printed with gap := printed.gap.deeper }

/-- Tokens on one line are the same at any depth. -/
theorem map_deeper_of_feeds {tokens : List Printed} (inline : feeds tokens = 0) :
    tokens.map Printed.deeper = tokens := by
  rw [feeds, List.countP_eq_zero] at inline
  refine (List.map_congr_left fun printed member => ?_).trans (List.map_id tokens)
  rw [Printed.deeper, Gap.deeper_of_breaks (Bool.eq_false_iff.2 (inline printed member))]
  rfl

theorem Legible.printedText_deeper {tokens : List Printed} {rest : List Char}
    (legible : Legible tokens rest) :
    printedText (tokens.map Printed.deeper) = spacedFeeds (printedText tokens) := by
  induction tokens with
  | nil => rfl
  | cons printed following inductionHypothesis =>
      obtain ⟨⟨allows, ends⟩, legibleRest⟩ := legible
      have free := controlFree_tokenText allows ends
      have noFeed : '\n' ∉ tokenText printed.kind printed.value := fun member =>
        absurd (free _ member) (by decide)
      rw [List.map_cons, printedText_cons, printedText_cons, spacedFeeds_append, spacedFeeds_append,
        spacedFeeds_of_not_mem noFeed, inductionHypothesis legibleRest, ← Gap.text_deeper]
      rfl

theorem Legible.endsInLine {tokens : List Printed} {rest : List Char}
    (legible : Legible tokens rest) (nonempty : tokens ≠ []) : EndsInLine (printedText tokens) := by
  refine ⟨fun member => ?_, ?_⟩
  · exact absurd (legible.breaksOnly.controls _ member (by decide)) (by decide)
  · obtain ⟨front, last, rfl⟩ := (List.eq_nil_or_concat' tokens).resolve_left nonempty
    obtain ⟨⟨allows, ends⟩, -⟩ := ((legible_append _ _ _).1 legible).2
    obtain ⟨first, more, readsBack⟩ := exists_readsBack allows ends
    have free := controlFree_tokenText allows ends
    rw [readsBack.text] at free
    have split : printedText (front ++ [last]) =
        printedText front ++ last.gap.text ++ first :: more := by
      simp [printedText_append, printedText_cons, readsBack.text]
    have written : first :: more ≠ [] := List.cons_ne_nil first more
    rw [split, List.getLast?_append_of_ne_nil _ written, List.getLast?_eq_some_getLast written]
    refine ⟨_, rfl, fun feed => ?_⟩
    exact absurd (free _ (feed ▸ List.getLast_mem written)) (by decide)

/-- The gap of an expression is that of its first token. -/
theorem Expr.exists_printed (expr : Expr) :
    ∃ (first : Printed) (rest : List Printed),
      ∀ gap, expr.printed gap = { first with gap := gap } :: rest := by
  match expr with
  | .call _ function _ =>
      obtain ⟨first, rest, split⟩ := function.exists_printed
      exact ⟨first, _, fun gap => by rw [Expr.printed, split]; rfl⟩
  | .member _ value _ =>
      obtain ⟨first, rest, split⟩ := value.exists_printed
      exact ⟨first, _, fun gap => by rw [Expr.printed, split]; rfl⟩
  | .identifier token => exact ⟨Printed.name .none token, [], fun _ => rfl⟩
  | .number token _ | .string token | .template token =>
      exact ⟨Printed.operator .none token, [], fun _ => rfl⟩
  | .boolean _ value => exact ⟨⟨.none, .identifier, _⟩, [], fun _ => rfl⟩
  | .null _ => exact ⟨⟨.none, .identifier, "null"⟩, [], fun _ => rfl⟩
  | .binary .. | .unary .. | .pipe .. | .index .. => exact ⟨openParen .none, _, fun _ => rfl⟩
  | .array .. => exact ⟨openBracket .none, _, fun _ => rfl⟩
  | .object .. => exact ⟨⟨.none, .openCurly, "\x7b"⟩, _, fun _ => rfl⟩

theorem Expr.WellFormed.map_deeper {expr : Expr} (wellFormed : expr.WellFormed) (gap : Gap) :
    (expr.printed gap).map Printed.deeper = expr.printed gap.deeper := by
  obtain ⟨first, rest, printed⟩ := expr.exists_printed
  have inline := wellFormed.feeds_printed .none
  rw [printed, feeds_cons, Gap.feeds_none, Nat.zero_add] at inline
  rw [printed, printed, List.map_cons, map_deeper_of_feeds inline]
  rfl

section

variable {α : Type}

/-- Pieces on lines of their own stand one step further in if each of them does. -/
theorem map_deeper_bracedLines (items : List α) (piece deeper : α → Gap → List Printed)
    (each : ∀ item ∈ items, ∀ gap, (piece item gap).map Printed.deeper = deeper item gap.deeper)
    (depth : Nat) (gap : Gap) :
    (bracedLines depth gap (items.map piece)).map Printed.deeper =
      bracedLines (depth + 1) gap.deeper (items.map deeper) := by
  have lines : ((items.map piece).flatMap fun piece => piece (.line (depth + 1))).map
      Printed.deeper = (items.map deeper).flatMap fun piece => piece (.line (depth + 2)) := by
    induction items with
    | nil => rfl
    | cons item rest inductionHypothesis =>
        have first := each item (.head _) (.line (depth + 1))
        have others := inductionHypothesis fun item member => each item (.tail _ member)
        simp only [List.map_cons, List.flatMap_cons, List.map_append, first, others,
          Gap.deeper_line]
  rw [bracedLines, bracedLines, List.map_append, List.map_cons, lines]
  cases items <;> rfl

end

/-- A statement printed one step further in. -/
theorem Stmt.WellFormed.map_deeper {statement : Stmt} (wellFormed : statement.WellFormed)
    (depth : Nat) (gap : Gap) :
    (statement.printed depth gap).map Printed.deeper =
      statement.printed (depth + 1) gap.deeper := by
  have typed (type? : Option TypeExpr) :
      (typePrinted type?).map Printed.deeper = typePrinted type? :=
    map_deeper_of_feeds (feeds_typePrinted type?)
  induction wellFormed generalizing depth gap with
  | assignment _ _ value =>
      simp [Stmt.printed, Printed.deeper, Printed.name, typed, value.map_deeper]
  | expression value => exact value.map_deeper gap
  | @block _ statements _ _ _ each =>
      simp only [Stmt.printed, Block.printed, stmtsPrinted_eq_map]
      exact map_deeper_bracedLines statements (Stmt.printed (depth + 1)) (Stmt.printed (depth + 2))
        (fun statement member => each statement member (depth + 1)) depth gap
  | @conditional _ _ _ alternative? _ condition _ _ _ consequence alternative =>
      simp only [Stmt.printed] at consequence
      cases alternative? with
      | none =>
          simp [Stmt.printed, Printed.deeper, keyword, openParen, closeParen,
            condition.map_deeper, consequence]
      | some other =>
          simp [Stmt.printed, Printed.deeper, keyword, openParen, closeParen,
            condition.map_deeper, consequence, alternative other rfl]
  | whileLoop _ condition _ body =>
      simp only [Stmt.printed] at body
      simp [Stmt.printed, Printed.deeper, keyword, openParen, closeParen, condition.map_deeper, body]
  | forOf _ _ iterable _ body =>
      simp only [Stmt.printed] at body
      simp [Stmt.printed, Printed.deeper, keyword, openParen, closeParen, Printed.name,
        iterable.map_deeper, body]
  | breakLoop | continueLoop => rfl
  | @returnValue _ value? _ value =>
      cases value? with
      | none => rfl
      | some some =>
          simp [Stmt.printed, Printed.deeper, keyword, (value some rfl).map_deeper]
  | throwValue _ value => simp [Stmt.printed, Printed.deeper, keyword, value.map_deeper]
  | @attempt _ _ handler? finalizer? _ _ _ _ _ _ body handler finalizer =>
      simp only [Stmt.printed] at body handler finalizer
      have handlerDeeper :
          (handlerPrinted depth handler?).map Printed.deeper = handlerPrinted (depth + 1) handler? := by
        cases handler? with
        | none => rfl
        | some clause =>
            simp [handlerPrinted, Printed.deeper, keyword, openParen, closeParen, Printed.name,
              handler clause rfl]
      have finalizerDeeper : (finalizerPrinted depth finalizer?).map Printed.deeper =
          finalizerPrinted (depth + 1) finalizer? := by
        cases finalizer? with
        | none => rfl
        | some block =>
            simp [finalizerPrinted, Printed.deeper, keyword, finalizer block rfl]
      simp [Stmt.printed, Printed.deeper, keyword, body, handlerDeeper, finalizerDeeper]
  | @config _ _ _ entries _ _ _ _ _ _ values =>
      have each : ∀ entry ∈ entries, ∀ gap, (configEntryPrinted entry gap).map Printed.deeper =
          configEntryPrinted entry gap.deeper := by
        intro entry member gap
        simp [configEntryPrinted, Printed.deeper, word, colon, (values entry member).map_deeper]
      have body := map_deeper_bracedLines entries configEntryPrinted configEntryPrinted each depth
        .space
      simp [Stmt.printed, Printed.deeper, Printed.operator, Printed.name, body]
  | @tool _ _ parameters _ _ _ _ _ _ _ body =>
      simp only [Stmt.printed] at body
      have list := map_deeper_of_feeds (feeds_separated parameters Parameter.printed
        (fun parameter _ => parameter.feeds_printed) Gap.feeds_none)
      simp [Stmt.printed, Printed.deeper, keyword, openParen, closeParen, Printed.name, typed, list,
        body]
  | @importNames _ names _ inBraces =>
      simp [Stmt.printed, Printed.deeper, keyword,
        map_deeper_of_feeds (feeds_namesPrinted names inBraces)]
  | exported _ _ _ declaration =>
      simp [Stmt.printed, Printed.deeper, keyword, declaration]

/-! ## Texts one step further in -/

/-- The text of printed tokens, moved line by line, is the text of the tokens one step further in. -/
theorem Legible.indent {text deeperText : String} {tokens : List Printed} {rest : List Char}
    (legible : Legible tokens rest) (nonempty : tokens ≠ [])
    (written : printedText tokens = text.toList)
    (writtenDeeper : printedText (tokens.map Printed.deeper) = deeperText.toList) :
    indent text = margin 1 ++ deeperText := by
  have whole := legible.endsInLine nonempty
  rw [written] at whole
  refine String.toList_injective ?_
  rw [whole.toList_indent, ← written, ← legible.printedText_deeper, writtenDeeper,
    String.toList_append]
  rfl

theorem Stmt.printed_ne_nil (statement : Stmt) (depth : Nat) (gap : Gap) :
    statement.printed depth gap ≠ [] := by
  cases statement with
  | expression _ value =>
      obtain ⟨first, rest, printed⟩ := value.exists_printed
      rw [Stmt.printed, printed]
      exact List.cons_ne_nil _ _
  | block body =>
      cases body
      exact List.cons_ne_nil _ _
  | conditional _ _ _ alternative? => cases alternative? <;> exact List.cons_ne_nil _ _
  | returnValue _ value? => cases value? <;> exact List.cons_ne_nil _ _
  | _ => exact List.cons_ne_nil _ _

/-- Moving the text of a statement line by line takes it one step further in. -/
theorem Stmt.WellFormed.indent_text {statement : Stmt} (wellFormed : statement.WellFormed)
    (depth : Nat) : indent (statement.text depth) = margin 1 ++ statement.text (depth + 1) := by
  have legible := wellFormed.legible depth .none separates_nil
  refine legible.indent (statement.printed_ne_nil depth .none)
    (wellFormed.printedText_eq depth .none) ?_
  rw [wellFormed.map_deeper]
  exact wellFormed.printedText_eq (depth + 1) .none

/-- The text of an entry of a configured declaration has one line. -/
theorem indent_entryText {entry : String × Expr} (isName : IsMemberName entry.1)
    (wellFormed : entry.2.WellFormed) :
    indent (entryText id entry) = margin 1 ++ entryText id entry := by
  have legible := legible_configEntry isName wellFormed .none separates_nil
  have written : printedText (configEntryPrinted entry .none) = (entryText id entry).toList := by
    simp [configEntryPrinted, entryText, word, colon, wellFormed.printedText_eq]
  have inline : feeds (configEntryPrinted entry .none) = 0 := by
    simp [configEntryPrinted, word, colon, wellFormed.feeds_printed]
  refine legible.indent (by simp [configEntryPrinted]) written ?_
  rw [map_deeper_of_feeds inline, written]

/-! ## Blocks and declarations -/

/-- Texts between curly brackets, each moved line by line. -/
def bracedTexts : List String → String
  | [] => "\x7b\x7d"
  | text :: texts =>
      "\x7b\n" ++ joined "" ((text :: texts).map fun text => indent text ++ "\n") ++ "\x7d"

theorem braced_zero {α : Type} {items : List α} {text deeperText : α → String}
    (each : ∀ item ∈ items, indent (text item) = margin 1 ++ deeperText item) :
    braced 0 (items.map deeperText) = bracedTexts (items.map text) := by
  cases items with
  | nil => rfl
  | cons item rest =>
      have lines : ((item :: rest).map text).map (fun text => indent text ++ "\n") =
          ((item :: rest).map deeperText).map fun line => margin 1 ++ line ++ "\n" := by
        simp only [List.map_map]
        refine List.map_congr_left fun item member => ?_
        simp only [Function.comp_apply, each item member]
      have noMargin : margin 0 = "" := rfl
      rw [List.map_cons, List.map_cons, braced, bracedTexts, ← List.map_cons, ← List.map_cons, lines,
        noMargin, String.append_empty]

/-- A part with curly brackets and lines between them is written with the texts of these lines moved
between the brackets. -/
def Node.Indented : Node → Prop
  | .block (.mk brace statements) =>
      (Block.mk brace statements).text 0 = bracedTexts (statements.map (Stmt.text 0))
  | .statement (.config kind keyword name entries) =>
      (Stmt.config kind keyword name entries).text 0 =
        keyword.value ++ " " ++ name.value ++ " " ++ bracedTexts (entries.map (entryText id))
  | .program _ | .statement _ | .expression _ => True

theorem Node.WellFormed.indented {node : Node} (good : node.WellFormed) : node.Indented := by
  cases node with
  | program | expression => trivial
  | block body =>
      cases good with
      | block _ formed _ =>
          rw [Indented, Block.text, stmtTexts_eq_map]
          exact braced_zero fun statement member => (formed statement member).indent_text 0
  | statement part =>
      cases good with
      | config _ _ _ _ _ names formed =>
          have body := braced_zero fun entry member =>
            indent_entryText (names entry member) (formed entry member)
          rw [Indented, Stmt.text, ← body]
          rfl
      | _ => trivial

theorem Node.WellFormed.every_indented {node : Node} (good : node.WellFormed) :
    node.Every Node.Indented :=
  fun levels below way => (good.every levels below way).indented

end AgentScript
