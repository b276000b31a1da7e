import AgentScript.Proofs.Scan.Literal
import AgentScript.Proofs.Scan.Separator
import AgentScript.Proofs.Tree.MapTokens

/-!
Contract: the pieces of a script, and scripts made of the same token slices with other gaps.

Owns:
- the pieces of a script: its token slices and the gaps around them;
- that a complete lexeme is told from its own characters alone;
- layouts, which are gaps that stand before any text: blanks and whole comments;
- the tokens of a script whose gaps are replaced by layouts.

A token may need the character after it to be told where it ends. That character starts a layout
instead, and no token goes on with one; the token is then told as if its own characters were the whole
text.
-/

set_option autoImplicit false

namespace AgentScript

/-! ## A lexeme and its own characters -/

namespace Extent

variable {quote : Char} {text : List Char}

/-- A closed literal is the same when its text ends with the closing quote. -/
theorem single_body_append_quote (closed : (single quote text).closed = true) :
    single quote ((single quote text).body ++ [quote]) = single quote text := by
  fun_induction single quote text with
  | case1 => cases closed
  | case2 => simp [single]
  | case3 => cases closed
  | case4 => simp [single]
  | case5 next rest noQuote inductionHypothesis =>
      simp only [cons, List.cons_append, single, noQuote, ↓reduceIte]
      rw [inductionHypothesis closed]
  | case6 char next rest noQuote noBackslash inductionHypothesis =>
      simp only [cons, List.cons_append]
      rw [single_plain noQuote noBackslash, inductionHypothesis closed]
      rfl

/-- The same for three quotes. -/
theorem triple_body_append_quotes (closed : (triple quote text).closed = true) :
    triple quote ((triple quote text).body ++ [quote, quote, quote]) = triple quote text := by
  induction text with
  | nil => cases closed
  | cons char rest inductionHypothesis =>
      by_cases ends : [quote, quote, quote].isPrefixOf (char :: rest) = true
      · have here : triple quote (char :: rest) = ⟨[], true⟩ := by rw [triple, if_pos ends]
        rw [here]
        simp [triple]
      · have onward : triple quote (char :: rest) = cons char (triple quote rest) := by
          rw [triple, if_neg ends]
        rw [onward] at closed ⊢
        have closedRest : (triple quote rest).closed = true := closed
        obtain ⟨tail, split, _⟩ := triple_append quote rest
        rw [closedRest, if_pos rfl, ← List.append_assoc] at split
        -- three quotes at the start of the shorter text would be there in the whole text, too
        have goesOn : ¬[quote, quote, quote].isPrefixOf
            (char :: ((triple quote rest).body ++ [quote, quote, quote])) = true := by
          rw [List.isPrefixOf_iff_prefix] at ends ⊢
          intro starts
          refine ends (starts.trans ?_)
          conv => rhs; rw [split]
          exact List.prefix_append (char :: _) tail
        rw [cons, List.cons_append, triple, if_neg goesOn, inductionHypothesis closedRest]
        rfl

theorem single_take (closed : (single quote text).closed = true) :
    single quote (text.take ((single quote text).body.length + 1)) = single quote text := by
  obtain ⟨tail, split, _⟩ := single_append quote text
  rw [closed, if_pos rfl, ← List.append_assoc] at split
  have taken : text.take ((single quote text).body.length + 1) =
      (single quote text).body ++ [quote] := by
    conv => lhs; arg 2; rw [split]
    exact List.take_left' (by simp)
  rw [taken, single_body_append_quote closed]

theorem triple_take (closed : (triple quote text).closed = true) :
    triple quote (text.take ((triple quote text).body.length + 3)) = triple quote text := by
  obtain ⟨tail, split, _⟩ := triple_append quote text
  rw [closed, if_pos rfl, ← List.append_assoc] at split
  have taken : text.take ((triple quote text).body.length + 3) =
      (triple quote text).body ++ [quote, quote, quote] := by
    conv => lhs; arg 2; rw [split]
    exact List.take_left' (by simp)
  rw [taken, triple_body_append_quotes closed]

end Extent

namespace Lexeme

variable {quote first : Char} {rest : List Char}

theorem delimited_of_complete {kind : Kind} {form : LiteralForm} {opening closing : Nat}
    {extent : Extent} {value : List Char}
    (complete : (delimited kind form opening closing extent value).unterminated? = none) :
    extent.closed = true ∧
      (delimited kind form opening closing extent value).more =
        opening + extent.body.length + closing := by
  cases closed : extent.closed <;> simp_all [delimited]

theorem readString_triple (quote : Char) (rest : List Char) :
    readString quote (quote :: quote :: rest) =
      delimited .string .tripleQuoted 2 3 (.triple quote rest)
        (dedent (Extent.triple quote rest).body) := by
  simp [readString, List.isPrefixOf]

theorem readString_single (single : ¬[quote, quote] <+: rest) :
    readString quote rest =
      delimited .string .string 0 1 (.single quote rest)
        (unescape false (Extent.single quote rest).body) := by
  rw [← List.isPrefixOf_iff_prefix] at single
  rw [readString, if_neg single]

theorem readString_take (complete : (readString quote rest).unterminated? = none) :
    readString quote (rest.take (readString quote rest).more) = readString quote rest := by
  by_cases isTriple : [quote, quote] <+: rest
  · obtain ⟨inside, rfl⟩ := isTriple
    simp only [List.cons_append, List.nil_append, readString_triple] at complete ⊢
    obtain ⟨closed, more⟩ := delimited_of_complete complete
    have length : 2 + (Extent.triple quote inside).body.length + 3 =
        (Extent.triple quote inside).body.length + 3 + 1 + 1 := by omega
    rw [more, length, List.take_succ_cons, List.take_succ_cons, readString_triple,
      Extent.triple_take closed]
  · have stillSingle : ¬[quote, quote] <+: rest.take (readString quote rest).more :=
      fun opens => isTriple (opens.trans (List.take_prefix _ _))
    rw [readString_single stillSingle]
    rw [readString_single isTriple] at complete ⊢
    obtain ⟨closed, more⟩ := delimited_of_complete complete
    rw [more, Nat.zero_add, Extent.single_take closed]

theorem readTemplate_take (complete : (readTemplate rest).unterminated? = none) :
    readTemplate (rest.take (readTemplate rest).more) = readTemplate rest := by
  unfold readTemplate at complete ⊢
  obtain ⟨closed, more⟩ := delimited_of_complete complete
  rw [more, Nat.zero_add, Extent.single_take closed]

/-- A number and a word are read again from their own characters. -/
theorem numberText_take {more : List Char} (text : numberText (first :: rest) = first :: more) :
    numberText (first :: rest.take more.length) = first :: more := by
  have whole : first :: rest.take more.length = numberText (first :: rest) := by
    have leading := numberText_prefix (first :: rest)
    rw [text, List.cons_prefix_cons] at leading
    rw [text, ← List.prefix_iff_eq_take.1 leading.2]
  rw [whole, numberText_numberText, text]

theorem wordText_take (first : Char) (rest : List Char) :
    wordText first (rest.take (rest.takeWhile continuesWord).length) = wordText first rest := by
  rw [← List.prefix_iff_eq_take.1 (List.takeWhile_prefix _), wordText, wordText, List.takeWhile_idem]

/-- A complete lexeme is the same when nothing follows its own characters. -/
theorem read_take (complete : (read first rest).unterminated? = none) :
    read first (rest.take (read first rest).more) = read first rest := by
  cases double : rest.head?.bind (doubleOperator? first) with
  | some kind =>
      obtain ⟨second, ahead, found⟩ := Option.bind_eq_some_iff.1 double
      obtain ⟨more, rfl⟩ := List.head?_eq_some_iff.1 ahead
      rw [read_double found]
      exact read_double found
  | none =>
      have noDouble (count : Nat) : (rest.take count).head?.bind (doubleOperator? first) = none := by
        cases count with
        | zero => rfl
        | succ count =>
            cases rest with
            | nil => rfl
            | cons second rest => exact double
      cases single : singleOperator? first with
      | some kind => rw [read_single single double, List.take_zero, read_single single rfl]
      | none =>
          rw [read_of_noOperator (noDouble _) single]
          rw [read_of_noOperator double single] at complete ⊢
          split_ifs at complete ⊢ with isQuote isTemplate isNumber isWord
          · exact readString_take complete
          · exact readTemplate_take complete
          · obtain ⟨more, text, _⟩ := numberText_cons isNumber rest
            rw [text]
            exact congrArg (plain .number) (numberText_take text)
          · exact congrArg (fun word => plain (wordKind word) word) (wordText_take first rest)
          · rfl

end Lexeme

/-! ## Layouts -/

/-- Blanks, and comments with the line feeds that end them: a gap before any text. -/
inductive IsLayout : List Char → Prop where
  | nil : IsLayout []
  | blank {char : Char} {gap : List Char} :
      isBlank char = true → IsLayout gap → IsLayout (char :: gap)
  | comment {text gap : List Char} :
      '\n' ∉ text → IsLayout gap → IsLayout ('#' :: (text ++ '\n' :: gap))

/-- A gap before a token is a layout. -/
theorem IsGap.isLayout {rest gap : List Char} (isGap : IsGap rest gap) (before : rest ≠ []) :
    IsLayout gap := by
  induction isGap with
  | nil => exact .nil
  | blank blank _ inductionHypothesis => exact .blank blank inductionHypothesis
  | comment noFeed _ inductionHypothesis => exact .comment noFeed inductionHypothesis
  | lastComment _ ended => exact absurd ended before

theorem severs_of_isBlank {char : Char} (blank : isBlank char = true) : Severs char := by
  simp only [isBlank, Bool.or_eq_true, decide_eq_true_eq] at blank
  rcases blank with ((rfl | rfl) | rfl) | rfl
  · exact severs_blank
  · exact ⟨by decide +kernel, by decide, by decide, by simp [doubleOperator?], by decide⟩
  · exact ⟨by decide +kernel, by decide, by decide, by simp [doubleOperator?], by decide⟩
  · exact severs_feed

theorem severs_commentSign : Severs '#' where
  noWord := by decide +kernel
  noDigit := by decide
  noPoint := by decide
  noOperator first := by simp [doubleOperator?]
  noQuote := by decide

/-- No complete token goes on with a text: it is empty, or starts with a character that severs. -/
def Severed (text : List Char) : Prop := ∀ separator ∈ text.head?, Severs separator

theorem severed_nil : Severed [] := nofun

/-- Every complete token ends before a layout that is not empty. -/
theorem IsLayout.severed_append {gap : List Char} (layout : IsLayout gap) (nonempty : gap ≠ [])
    (rest : List Char) : Severed (gap ++ rest) := by
  cases layout with
  | nil => exact absurd rfl nonempty
  | blank blank _ =>
      rintro _ ⟨⟩
      exact severs_of_isBlank blank
  | comment =>
      rintro _ ⟨⟩
      exact severs_commentSign

namespace Cursor

theorem skipGapFrom_commentText {text : List Char} (noFeed : '\n' ∉ text) (position : Position)
    (rest : List Char) :
    skipGapFrom true position (text ++ '\n' :: rest) =
      skipGapFrom false (position.afterText (text ++ ['\n'])) rest := by
  induction text generalizing position with
  | nil =>
      rw [List.nil_append, skipGapFrom_cons, if_neg (by simp), if_pos (by decide)]
      rfl
  | cons char text inductionHypothesis =>
      obtain ⟨other, noFeedRest⟩ := not_or.1 (List.mem_cons.not.1 noFeed)
      rw [List.cons_append, skipGapFrom_cons, if_pos (by simpa using Ne.symm other),
        inductionHypothesis noFeedRest]
      rfl

/-- A layout is passed over, whatever follows it. -/
theorem skipGapFrom_layout {gap : List Char} (layout : IsLayout gap) (position : Position)
    (rest : List Char) :
    skipGapFrom false position (gap ++ rest) =
      skipGapFrom false (position.afterText gap) rest := by
  induction layout generalizing position with
  | nil => rfl
  | blank blank _ inductionHypothesis =>
      rw [List.cons_append, skipGapFrom_cons, if_neg (by simp), if_pos blank, inductionHypothesis]
      rfl
  | @comment text gap noFeed _ inductionHypothesis =>
      rw [List.cons_append, skipGapFrom_cons, if_neg (by simp), if_neg (by decide), if_pos rfl,
        List.append_assoc, List.cons_append, skipGapFrom_commentText noFeed, inductionHypothesis,
        Position.afterText_cons, ← Position.afterText_append, List.append_assoc]
      rfl

end Cursor

/-! ## Texts with given tokens -/

/-- A text that gives these tokens, apart from their places, wherever it stands in a script, and
none of them with a fault. -/
def Gives (text : List Char) (tokens : List Token) : Prop :=
  ∀ position : Position,
    (Cursor.scan ⟨position, text⟩).tokens.map (fun lexed => lexed.token.bare) =
        tokens.map Token.bare ∧
      (Cursor.scan ⟨position, text⟩).faults = []

namespace Gives

variable {gap rest : List Char} {tokens : List Token}

theorem layout (gives : Gives rest tokens) (layout : IsLayout gap) :
    Gives (gap ++ rest) tokens := by
  intro position
  have same : Cursor.scan ⟨position, gap ++ rest⟩ =
      Cursor.scan ⟨position.afterText gap, rest⟩ :=
    Cursor.scan_congr (Cursor.skipGapFrom_layout layout position rest)
  rw [same]
  exact gives _

theorem nil : Gives [] [] := fun _ => ⟨rfl, rfl⟩

theorem cons {slice : List Char} {token : Token} (gives : Gives rest tokens)
    (spells : Spells token.kind token.value rest slice) (isToken : token.kind ≠ .endOfInput) :
    Gives (slice ++ rest) (token :: tokens) := by
  intro position
  have noBlanks : ∀ char ∈ ([] : List Char), isBlank char = true := nofun
  have isNext : Cursor.next ⟨position, slice ++ rest⟩ = _ :=
    Cursor.next_spelled spells noBlanks position
  obtain ⟨givesTokens, noFaults⟩ := gives (position.afterText slice)
  rw [Cursor.scan_of_token (by rwa [isNext]), isNext]
  exact ⟨congrArg (token.bare :: ·) givesTokens, noFaults⟩

end Gives

/-- The tokens of a script without their places: those of its scan, and the end of input. -/
theorem tokenize_bare (source : String) :
    (tokenize source).1.map Token.bare =
      (Cursor.ofSource source).scan.tokens.map (fun lexed => lexed.token.bare) ++
        [⟨.endOfInput, "", .null⟩] := by
  obtain ⟨kind, value, _⟩ := (Cursor.ofSource source).scan_ending
  have ending : (Cursor.ofSource source).scan.ending.token.bare = ⟨.endOfInput, "", .null⟩ := by
    rw [← kind, ← value]
    rfl
  rw [tokenize, Scan.allTokens, List.map_map, List.map_append, List.map_singleton]
  exact congrArg (_ ++ [·]) ending

/-- The tokens of a script whose text gives them. -/
theorem Gives.tokenize {text : List Char} {tokens : List Token} (gives : Gives text tokens) :
    (tokenize (String.ofList text)).2.entries = [] ∧
      (tokenize (String.ofList text)).1.map Token.bare =
        tokens.map Token.bare ++ [⟨.endOfInput, "", .null⟩] := by
  obtain ⟨givesTokens, noFaults⟩ := gives .start
  rw [tokenize_entries, tokenize_bare, Cursor.ofSource, String.toList_ofList, givesTokens]
  exact ⟨noFaults, rfl⟩

/-! ## The pieces of a script -/

/-- The characters of a token, with the gap before them. -/
structure Piece where
  gap : List Char
  slice : List Char
deriving DecidableEq, Repr

/-- A script in pieces: its token slices, each with the gap before it, and the gap after the last. -/
structure Pieces where
  tokens : List Piece
  last : List Char
deriving DecidableEq, Repr

namespace Pieces

/-- The script. -/
def text (pieces : Pieces) : List Char :=
  pieces.tokens.flatMap (fun piece => piece.gap ++ piece.slice) ++ pieces.last

def slices (pieces : Pieces) : List (List Char) := pieces.tokens.map Piece.slice

def gaps (pieces : Pieces) : List (List Char) := pieces.tokens.map Piece.gap ++ [pieces.last]

theorem text_cons (piece : Piece) (tokens : List Piece) (last : List Char) :
    text ⟨piece :: tokens, last⟩ = piece.gap ++ (piece.slice ++ text ⟨tokens, last⟩) := by
  simp [text]

/-- Every complete token ends before pieces whose gaps are not empty. -/
theorem severed_text {pieces : Pieces} (gaps : ∀ gap ∈ pieces.gaps, gap ≠ [] ∧ IsLayout gap) :
    Severed pieces.text := by
  obtain ⟨tokens, last⟩ := pieces
  cases tokens with
  | nil =>
      obtain ⟨nonempty, layout⟩ := gaps last (by simp [Pieces.gaps])
      have severed := layout.severed_append nonempty []
      rwa [List.append_nil] at severed
  | cons piece tokens =>
      obtain ⟨nonempty, layout⟩ := gaps piece.gap (by simp [Pieces.gaps])
      rw [text_cons]
      exact layout.severed_append nonempty _

end Pieces

namespace Cursor

/-- The next token and the gap before it. -/
def piece (cursor : Cursor) : Piece where
  gap := cursor.rest.take (cursor.rest.length - cursor.skipGap.rest.length)
  slice := cursor.skipGap.rest.take (cursor.skipGap.rest.length - cursor.next.2.rest.length)

/-- The text ahead, cut where its tokens start and end. -/
def pieces (cursor : Cursor) : Pieces where
  tokens := (List.range cursor.scan.tokens.length).map fun count => (cursor.past count).piece
  last := cursor.afterTokens.rest

theorem pieces_of_end {cursor : Cursor} (ended : cursor.next.1.token.kind = .endOfInput) :
    cursor.pieces = ⟨[], cursor.rest⟩ := by
  rw [pieces, scan_of_end ended, afterTokens_of_end ended]
  rfl

theorem pieces_of_token {cursor : Cursor} (token : cursor.next.1.token.kind ≠ .endOfInput) :
    cursor.pieces = ⟨cursor.piece :: cursor.next.2.pieces.tokens, cursor.next.2.pieces.last⟩ := by
  rw [pieces, scan_of_token token, afterTokens_of_token token, List.length_cons,
    List.range_succ_eq_map, List.map_cons, List.map_map]
  rfl

theorem piece_gap {cursor : Cursor} :
    cursor.rest = cursor.piece.gap ++ cursor.skipGap.rest ∧
      IsGap cursor.skipGap.rest cursor.piece.gap := by
  obtain ⟨gap, split, isGap, _⟩ := cursor.skipGap_split
  have same : cursor.piece.gap = gap := by
    unfold piece
    simp only
    generalize cursor.skipGap.rest = ahead at split
    rw [split, List.length_append, Nat.add_sub_cancel, List.take_left]
  rw [same]
  exact ⟨split, isGap⟩

theorem piece_slice {cursor : Cursor} {first : Char} {more : List Char}
    (ahead : cursor.skipGap.rest = first :: more) :
    cursor.piece.slice = first :: more.take (Lexeme.read first more).more ∧
      cursor.skipGap.rest = cursor.piece.slice ++ cursor.next.2.rest := by
  have bound := (Lexeme.read_takes first more).more_le
  have slice : cursor.piece.slice = first :: more.take (Lexeme.read first more).more := by
    unfold piece
    simp only [next_of_cons ahead, ahead, List.length_cons, List.length_drop]
    have length : more.length + 1 - (more.length - (Lexeme.read first more).more) =
        (Lexeme.read first more).more + 1 := by omega
    rw [length, List.take_succ_cons]
  refine ⟨slice, ?_⟩
  rw [slice, next_of_cons ahead, ahead, List.cons_append, List.take_append_drop]

/-- Put together, the pieces are the text. -/
theorem pieces_text (cursor : Cursor) : cursor.pieces.text = cursor.rest := by
  induction cursor using scan_induction with
  | ending cursor ended => rw [pieces_of_end ended]; rfl
  | token cursor token inductionHypothesis =>
      cases ahead : cursor.skipGap.rest with
      | nil => exact absurd ((next_kind_eq_endOfInput_iff cursor).2 ahead) token
      | cons first more =>
          rw [piece_gap.1, (piece_slice ahead).2, ← inductionHypothesis, pieces_of_token token]
          simp [Pieces.text]

/-- Between the slices are layouts; after the last one, a comment may be left without its end. -/
theorem pieces_gaps (cursor : Cursor) :
    (∀ piece ∈ cursor.pieces.tokens, IsLayout piece.gap) ∧ IsGap [] cursor.pieces.last := by
  induction cursor using scan_induction with
  | ending cursor ended =>
      have onlyGap := (next_kind_eq_endOfInput_iff cursor).1 ended
      obtain ⟨split, isGap⟩ := cursor.piece_gap
      rw [onlyGap] at isGap split
      rw [pieces_of_end ended]
      rw [List.append_nil] at split
      exact ⟨nofun, split ▸ isGap⟩
  | token cursor token inductionHypothesis =>
      have before : cursor.skipGap.rest ≠ [] := (next_kind_eq_endOfInput_iff cursor).not.1 token
      rw [pieces_of_token token]
      exact ⟨List.forall_mem_cons.2 ⟨cursor.piece_gap.2.isLayout before, inductionHypothesis.1⟩,
        inductionHypothesis.2⟩

/-- What is passed as a gap ends before a character that starts a token. -/
theorem skipGapFrom_stops {inComment : Bool} {position : Position} {text more : List Char}
    {first : Char} (ahead : (skipGapFrom inComment position text).rest = first :: more) :
    isBlank first = false ∧ first ≠ '#' := by
  induction text generalizing inComment position with
  | nil => cases ahead
  | cons char text inductionHypothesis =>
      rw [skipGapFrom_cons] at ahead
      split_ifs at ahead with inside blank sign
      · exact inductionHypothesis ahead
      · exact inductionHypothesis ahead
      · exact inductionHypothesis ahead
      · obtain ⟨rfl, _⟩ := List.cons.inj ahead
        exact ⟨Bool.eq_false_iff.2 blank, sign⟩

/-- A complete token is read from its slice, alone or before what it does not go on with. -/
theorem spells_slice {cursor : Cursor} (token : cursor.next.1.token.kind ≠ .endOfInput)
    (complete : cursor.next.1.fault? = none) {rest : List Char} (severed : Severed rest) :
    Spells cursor.next.1.token.kind cursor.next.1.token.value rest cursor.piece.slice := by
  cases ahead : cursor.skipGap.rest with
  | nil => exact absurd ((next_kind_eq_endOfInput_iff cursor).2 ahead) token
  | cons first more =>
      obtain ⟨noBlank, noComment⟩ := skipGapFrom_stops ahead
      have bound := (Lexeme.read_takes first more).more_le
      rw [next_of_cons ahead] at complete ⊢
      have own := Lexeme.read_take (Option.map_eq_none_iff.1 complete)
      have before : Lexeme.read first (more.take (Lexeme.read first more).more ++ rest) =
          Lexeme.read first more := by
        cases rest with
        | nil => rw [List.append_nil, own]
        | cons separator rest =>
            rw [Lexeme.read_append_of_complete (severed separator rfl) rest, own]
            rw [own]
            exact Option.map_eq_none_iff.1 complete
      rw [(piece_slice ahead).1]
      refine .intro noBlank noComment ?_
      rw [before, String.toList_ofList, List.length_take_of_le bound,
        ← Option.map_eq_none_iff.1 complete]

/-- The slices of a text with other layouts around them, none of them empty, give its tokens. -/
theorem gives_of_slices {cursor : Cursor}
    (complete : ∀ lexed ∈ cursor.scan.tokens, lexed.fault? = none) {other : Pieces}
    (slices : other.slices = cursor.pieces.slices)
    (gaps : ∀ gap ∈ other.gaps, gap ≠ [] ∧ IsLayout gap) :
    Gives other.text (cursor.scan.tokens.map Lexed.token) := by
  induction cursor using scan_induction generalizing other with
  | ending cursor ended =>
      obtain ⟨pieces, last⟩ := other
      obtain rfl : pieces = [] := by
        rw [pieces_of_end ended] at slices
        exact List.map_eq_nil_iff.1 slices
      rw [scan_of_end ended]
      have given := Gives.nil.layout (gaps last (by simp [Pieces.gaps])).2
      rwa [List.append_nil] at given
  | token cursor token inductionHypothesis =>
      rw [scan_of_token token] at complete ⊢
      obtain ⟨noFault, completeRest⟩ := List.forall_mem_cons.1 complete
      obtain ⟨_ | ⟨⟨gap, slice⟩, pieces⟩, last⟩ := other
      · rw [pieces_of_token token] at slices
        cases slices
      · rw [pieces_of_token token] at slices
        obtain ⟨rfl, slicesRest⟩ := List.cons.inj slices
        obtain ⟨⟨_, layout⟩, gapsRest⟩ := List.forall_mem_cons.1 gaps
        have given : Gives (Pieces.text ⟨pieces, last⟩) _ :=
          inductionHypothesis completeRest slicesRest gapsRest
        rw [Pieces.text_cons]
        exact (given.cons (spells_slice token noFault (Pieces.severed_text gapsRest)) token).layout
          layout

/-- Each slice alone gives its token. -/
theorem slices_give {cursor : Cursor}
    (complete : ∀ lexed ∈ cursor.scan.tokens, lexed.fault? = none) :
    List.Forall₂ (fun slice token => Gives slice [token]) cursor.pieces.slices
      (cursor.scan.tokens.map Lexed.token) := by
  induction cursor using scan_induction with
  | ending cursor ended =>
      rw [pieces_of_end ended, scan_of_end ended]
      exact .nil
  | token cursor token inductionHypothesis =>
      rw [scan_of_token token] at complete ⊢
      obtain ⟨noFault, completeRest⟩ := List.forall_mem_cons.1 complete
      have given := Gives.nil.cons (spells_slice token noFault severed_nil) token
      rw [List.append_nil] at given
      rw [pieces_of_token token]
      exact .cons given (inductionHypothesis completeRest)

end Cursor

/-- The slices of a script without diagnostics may be put together with other gaps, of any blanks and
whole comments but none of them empty: the script that this makes has no diagnostics, and tokens of the
same kinds and values. Each of them is what its slice alone is read as. -/
theorem tokenize_other_gaps {source : String} (clean : (tokenize source).2.entries = []) :
    let pieces := (Cursor.ofSource source).pieces
    (pieces.text = source.toList ∧ (∀ piece ∈ pieces.tokens, IsLayout piece.gap) ∧
      IsGap [] pieces.last) ∧
    List.Forall₂
      (fun slice token => (tokenize (String.ofList slice)).2.entries = [] ∧
        (tokenize (String.ofList slice)).1.map Token.bare =
          [token.bare, ⟨.endOfInput, "", .null⟩])
      pieces.slices (tokenize source).1.dropLast ∧
    ∀ other : Pieces, other.slices = pieces.slices →
      (∀ gap ∈ other.gaps, gap ≠ [] ∧ IsLayout gap) →
      (tokenize (String.ofList other.text)).2.entries = [] ∧
        (tokenize (String.ofList other.text)).1.map Token.bare =
          (tokenize source).1.map Token.bare := by
  intro pieces
  have complete : ∀ lexed ∈ (Cursor.ofSource source).scan.tokens, lexed.fault? = none := by
    rw [tokenize_entries] at clean
    exact List.filterMap_eq_nil_iff.1 clean
  have tokens : (tokenize source).1.dropLast =
      (Cursor.ofSource source).scan.tokens.map Lexed.token := by
    simp [tokenize, Scan.allTokens]
  refine ⟨⟨Cursor.pieces_text _, Cursor.pieces_gaps _⟩, ?_, fun other slices gaps => ?_⟩
  · rw [tokens]
    exact (Cursor.slices_give complete).imp fun _ _ gives => gives.tokenize
  · obtain ⟨noEntries, sameTokens⟩ := (Cursor.gives_of_slices complete slices gaps).tokenize
    refine ⟨noEntries, ?_⟩
    rw [sameTokens, tokenize_bare, List.map_map]
    rfl

/-- A number, points, an operator and a quoted comment sign, without gaps and then with comments that
hold a quote and an operator. -/
theorem tokenize_gaps_with_comments :
    let source := "1.5.x==\x27#\x27"
    let other := "#\x22\n1.5\t.\r\nx ==#=\n\x27#\x27\n"
    (tokenize source).2.entries = [] ∧ (tokenize other).2.entries = [] ∧
      (tokenize other).1.map Token.bare = (tokenize source).1.map Token.bare := by
  intro source other
  let pieces : List Piece :=
    [⟨['#', '\x22', '\n'], ['1', '.', '5']⟩, ⟨['\t'], ['.']⟩, ⟨['\r', '\n'], ['x']⟩,
      ⟨[' '], ['=', '=']⟩, ⟨['#', '=', '\n'], ['\x27', '#', '\x27']⟩]
  have clean : (tokenize source).2.entries = [] := by decide +kernel
  have slices : Pieces.slices ⟨pieces, ['\n']⟩ = (Cursor.ofSource source).pieces.slices := by
    decide +kernel
  have gaps : ∀ gap ∈ Pieces.gaps ⟨pieces, ['\n']⟩, gap ≠ [] ∧ IsLayout gap := by
    have quoteComment : IsLayout ('#' :: (['\x22'] ++ ['\n'])) := .comment (by decide) .nil
    have signComment : IsLayout ('#' :: (['='] ++ ['\n'])) := .comment (by decide) .nil
    simp only [Pieces.gaps, pieces, List.map_cons, List.map_nil, List.cons_append, List.nil_append,
      List.forall_mem_cons]
    exact ⟨⟨nofun, quoteComment⟩, ⟨nofun, .blank rfl .nil⟩, ⟨nofun, .blank rfl (.blank rfl .nil)⟩,
      ⟨nofun, .blank rfl .nil⟩, ⟨nofun, signComment⟩, ⟨nofun, .blank rfl .nil⟩, nofun⟩
  exact ⟨clean, (tokenize_other_gaps clean).2.2 ⟨pieces, ['\n']⟩ slices gaps⟩

end AgentScript
