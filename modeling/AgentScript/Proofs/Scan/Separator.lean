import AgentScript.Proofs.Scan.Partition

/-!
Contract: the tokens of a text before a character that goes on with none of them.

Owns:
- the characters that no complete token goes on with, a line break among them;
- that such a character after a text, and what follows it, change no complete token of the text;
- the place after the last token of a text, and the line that this token ends on;
- the tokens of a text that starts with a semicolon or with a space;
- the tokens of a text that ends with its last token, such a character and another text.
-/

set_option autoImplicit false

namespace AgentScript

/-! ## Complete tokens -/

namespace Extent

theorem single_append_of_closed {quote : Char} {text : List Char} (rest : List Char)
    (closed : (single quote text).closed = true) :
    single quote (text ++ rest) = single quote text := by
  fun_induction single quote text with
  | case1 => cases closed
  | case2 =>
      cases rest <;> simp [single]
  | case3 => cases closed
  | case4 next following => simp [single]
  | case5 next following noQuote inductionHypothesis =>
      simp only [List.cons_append, single, noQuote, ↓reduceIte]
      rw [inductionHypothesis closed]
  | case6 char next following noQuote noBackslash inductionHypothesis =>
      have onward := inductionHypothesis closed
      rw [List.cons_append] at onward
      simp only [List.cons_append, single, noQuote, noBackslash, ↓reduceIte]
      rw [onward]

theorem triple_append_of_closed {quote : Char} {text : List Char} (rest : List Char)
    (closed : (triple quote text).closed = true) :
    triple quote (text ++ rest) = triple quote text := by
  induction text with
  | nil => cases closed
  | cons char text inductionHypothesis =>
      rw [List.cons_append]
      unfold triple at closed ⊢
      by_cases ends : [quote, quote, quote].isPrefixOf (char :: text) = true
      · have endsWhole : [quote, quote, quote].isPrefixOf (char :: (text ++ rest)) = true := by
          rw [List.isPrefixOf_iff_prefix] at ends ⊢
          exact ends.trans (List.prefix_append (char :: text) rest)
        rw [if_pos ends, if_pos endsWhole]
      · rw [if_neg ends] at closed ⊢
        -- what closes the literal further on is long enough to show that nothing closes it here
        have enough := triple_length_le quote text
        have closedRest : (triple quote text).closed = true := closed
        rw [closedRest] at enough
        have goesOn : ¬ [quote, quote, quote].isPrefixOf (char :: (text ++ rest)) = true := by
          rw [List.isPrefixOf_iff_prefix] at ends ⊢
          intro endsWhole
          refine ends (List.prefix_of_prefix_length_le endsWhole
            (List.prefix_append (char :: text) rest) ?_)
          simp only [↓reduceIte, List.length_cons, List.length_nil] at enough ⊢
          omega
        rw [if_neg goesOn, inductionHypothesis closed]

end Extent

/-- A character that no token before it goes on with, unless the token is an open literal. -/
structure Severs (separator : Char) : Prop where
  noWord : continuesWord separator = false
  noDigit : isDigit separator = false
  noPoint : separator ≠ '.'
  noOperator : ∀ first, doubleOperator? first separator = none
  noQuote : separator ≠ '\x22' ∧ separator ≠ '\x27'

theorem severs_feed : Severs '\n' where
  noWord := by decide +kernel
  noDigit := by decide
  noPoint := by decide
  noOperator first := by simp [doubleOperator?]
  noQuote := by decide

theorem severs_blank : Severs ' ' where
  noWord := by decide +kernel
  noDigit := by decide
  noPoint := by decide
  noOperator first := by simp [doubleOperator?]
  noQuote := by decide

theorem severs_semicolon : Severs ';' where
  noWord := by decide +kernel
  noDigit := by decide
  noPoint := by decide
  noOperator first := by simp [doubleOperator?]
  noQuote := by decide

section

variable {separator : Char} {rest : List Char}

/-- A run of characters ends before one that is none of them. -/
theorem takeWhile_append_of_stop {member : Char → Bool} (stops : member separator = false)
    (text : List Char) :
    (text ++ separator :: rest).takeWhile member = text.takeWhile member := by
  rw [List.takeWhile_append]
  split
  · next whole =>
      rw [List.takeWhile_cons_of_neg (by simp [stops]), List.append_nil]
      exact ((List.takeWhile_prefix _).eq_of_length whole).symm
  · rfl

variable (severs : Severs separator)
include severs

theorem fractionText_append_of_severs (text : List Char) :
    fractionText (text ++ separator :: rest) = fractionText text := by
  cases text with
  | nil => simp [fractionText, severs.noPoint]
  | cons first more =>
      by_cases point : first = '.'
      · subst point
        simp only [List.cons_append, fractionText]
        rw [takeWhile_append_of_stop severs.noDigit]
      · simp [fractionText, point]

theorem numberText_append_of_severs (text : List Char) :
    numberText (text ++ separator :: rest) = numberText text := by
  unfold numberText
  simp only
  rw [takeWhile_append_of_stop severs.noDigit,
    List.drop_append_of_le_length (List.takeWhile_prefix _).length_le,
    fractionText_append_of_severs severs]

namespace Lexeme

omit severs in
theorem readString_append_of_complete {quote : Char} (noQuote : quote ≠ separator)
    {text : List Char} (complete : (readString quote text).unterminated? = none) :
    readString quote (text ++ separator :: rest) = readString quote text := by
  have opens : [quote, quote].isPrefixOf (text ++ separator :: rest) =
      [quote, quote].isPrefixOf text := by
    match text with
    | [] => simp [List.isPrefixOf, noQuote]
    | [_] => simp [List.isPrefixOf, noQuote]
    | _ :: _ :: _ => rfl
  unfold readString at complete ⊢
  rw [opens]
  split at complete
  · next isTriple =>
      have long : 2 ≤ text.length := (List.isPrefixOf_iff_prefix.1 isTriple).length_le
      have closed : (Extent.triple quote (text.drop 2)).closed = true := by
        simpa [delimited] using complete
      rw [if_pos isTriple, if_pos isTriple, List.drop_append_of_le_length long,
        Extent.triple_append_of_closed _ closed]
  · next isSingle =>
      have closed : (Extent.single quote text).closed = true := by
        simpa [delimited] using complete
      rw [if_neg isSingle, if_neg isSingle, Extent.single_append_of_closed _ closed]

omit severs in
theorem readTemplate_append_of_complete {text : List Char}
    (complete : (readTemplate text).unterminated? = none) :
    readTemplate (text ++ rest) = readTemplate text := by
  unfold readTemplate at complete ⊢
  have closed : (Extent.single '\x60' text).closed = true := by
    simpa [delimited] using complete
  rw [Extent.single_append_of_closed _ closed]

/-- A complete lexeme is the same before a character that severs. -/
theorem read_append_of_complete (rest : List Char) {first : Char} {text : List Char}
    (complete : (read first text).unterminated? = none) :
    read first (text ++ separator :: rest) = read first text := by
  have double : (text ++ separator :: rest).head?.bind (doubleOperator? first) =
      text.head?.bind (doubleOperator? first) := by
    cases text with
    | nil => exact severs.noOperator first
    | cons => rfl
  unfold read at complete ⊢
  rw [double]
  split
  · next kind found =>
      cases text with
      | nil => cases found
      | cons => rfl
  · next noDouble =>
      rw [noDouble] at complete
      split
      · rfl
      · next noSingle =>
          simp only [noSingle] at complete
          split_ifs with isQuote isTemplate isNumber isWord
          · rw [if_pos isQuote] at complete
            refine readString_append_of_complete ?_ complete
            rintro rfl
            simp [severs.noQuote] at isQuote
          · rw [if_neg isQuote, if_pos isTemplate] at complete
            exact readTemplate_append_of_complete complete
          · rw [← List.cons_append, numberText_append_of_severs severs]
          · unfold wordText
            rw [takeWhile_append_of_stop severs.noWord]
          · rfl

end Lexeme

end

/-! ## Scans -/

namespace Cursor

/-- The cursor with more text after its own. -/
def followedBy (text : List Char) (cursor : Cursor) : Cursor := ⟨cursor.position, cursor.rest ++ text⟩

theorem skipGapFrom_cons (inComment : Bool) (position : Position) (char : Char) (text : List Char) :
    skipGapFrom inComment position (char :: text) =
      if inComment && char ≠ '\n' then skipGapFrom true (position.after char) text
      else if isBlank char then skipGapFrom false (position.after char) text
      else if char = '#' then skipGapFrom true (position.after char) text
      else ⟨position, char :: text⟩ := rfl

theorem skipGapFrom_append_of_cons {inComment : Bool} {position : Position}
    {text more rest : List Char} {first : Char}
    (ahead : (skipGapFrom inComment position text).rest = first :: more) :
    skipGapFrom inComment position (text ++ rest) =
      ⟨(skipGapFrom inComment position text).position, first :: (more ++ rest)⟩ := by
  induction text generalizing inComment position with
  | nil => cases ahead
  | cons char text inductionHypothesis =>
      rw [skipGapFrom_cons] at ahead
      rw [List.cons_append, skipGapFrom_cons, skipGapFrom_cons]
      split_ifs at ahead ⊢ with inside blank comment
      · exact inductionHypothesis ahead
      · exact inductionHypothesis ahead
      · exact inductionHypothesis ahead
      · obtain ⟨rfl, rfl⟩ := List.cons.inj ahead
        rfl

/-- A scan depends only on what stands after the gap. -/
theorem scan_congr {left right : Cursor} (same : left.skipGap = right.skipGap) :
    left.scan = right.scan := by
  have sameNext : left.next = right.next := by
    unfold next
    rw [same]
  by_cases ended : left.next.1.token.kind = .endOfInput
  · rw [scan_of_end ended, scan_of_end (sameNext ▸ ended), sameNext]
  · have endedRight : right.next.1.token.kind ≠ .endOfInput := sameNext ▸ ended
    rw [scan_of_token ended, scan_of_token endedRight, sameNext]

/-- The place after so many tokens. -/
def past : Nat → Cursor → Cursor
  | 0, cursor => cursor
  | count + 1, cursor => past count cursor.next.2

/-- The place after the last token ahead. -/
def afterTokens (cursor : Cursor) : Cursor := cursor.past cursor.scan.tokens.length

theorem afterTokens_of_end {cursor : Cursor} (ended : cursor.next.1.token.kind = .endOfInput) :
    cursor.afterTokens = cursor := by
  rw [afterTokens, scan_of_end ended]
  rfl

theorem afterTokens_of_token {cursor : Cursor} (token : cursor.next.1.token.kind ≠ .endOfInput) :
    cursor.afterTokens = cursor.next.2.afterTokens := by
  rw [afterTokens, scan_of_token token]
  rfl

/-- Only a gap stands after the last token. -/
theorem afterTokens_next (cursor : Cursor) :
    cursor.afterTokens.next.1.token.kind = .endOfInput := by
  induction cursor using scan_induction with
  | ending cursor ended => rwa [afterTokens_of_end ended]
  | token cursor token inductionHypothesis => rwa [afterTokens_of_token token]

/-- What stands after the last token ends where the text does. -/
theorem afterTokens_afterText (cursor : Cursor) :
    cursor.afterTokens.position.afterText cursor.afterTokens.rest =
      cursor.position.afterText cursor.rest := by
  induction cursor using scan_induction with
  | ending cursor ended => rw [afterTokens_of_end ended]
  | token cursor token inductionHypothesis =>
      obtain ⟨gap, slice, split, _, _, _, place, _⟩ := next_split token
      rw [afterTokens_of_token token, inductionHypothesis, place, ← Position.afterText_append, ← split]

theorem next_endLine {cursor : Cursor} (token : cursor.next.1.token.kind ≠ .endOfInput) :
    cursor.next.1.endLine = cursor.next.2.position.line := by
  cases ahead : cursor.skipGap.rest with
  | nil => exact absurd ((next_kind_eq_endOfInput_iff cursor).2 ahead) token
  | cons first more => rw [next_of_cons ahead]

/-- The last token ahead ends on the line of the place after it. -/
theorem foldl_endLine (cursor : Cursor) :
    cursor.scan.tokens.foldl (fun _ lexed => lexed.endLine) cursor.position.line =
      cursor.afterTokens.position.line := by
  induction cursor using scan_induction with
  | ending cursor ended => rw [afterTokens_of_end ended, scan_of_end ended, List.foldl_nil]
  | token cursor token inductionHypothesis =>
      rw [afterTokens_of_token token, scan_of_token token, List.foldl_cons, next_endLine token,
        inductionHypothesis]

section

variable {separator : Char} (severs : Severs separator)
include severs

/-- A complete token is the next one before a character that severs. -/
theorem next_followedBy (rest : List Char) {cursor : Cursor}
    (token : cursor.next.1.token.kind ≠ .endOfInput)
    (complete : cursor.next.1.fault? = none) :
    (cursor.followedBy (separator :: rest)).next =
      (cursor.next.1, cursor.next.2.followedBy (separator :: rest)) := by
  cases ahead : cursor.skipGap.rest with
  | nil => exact absurd ((next_kind_eq_endOfInput_iff cursor).2 ahead) token
  | cons first more =>
      have skipped : (cursor.followedBy (separator :: rest)).skipGap =
          ⟨cursor.skipGap.position, first :: (more ++ separator :: rest)⟩ :=
        skipGapFrom_append_of_cons ahead
      have aheadWhole : (cursor.followedBy (separator :: rest)).skipGap.rest =
          first :: (more ++ separator :: rest) := by rw [skipped]
      rw [next_of_cons ahead] at complete
      have same := Lexeme.read_append_of_complete severs rest
        (Option.map_eq_none_iff.1 complete)
      have bound := (Lexeme.read_takes first more).more_le
      rw [next_of_cons aheadWhole, next_of_cons ahead, skipped]
      simp only [same, List.take_append_of_le_length bound, List.drop_append_of_le_length bound,
        followedBy]

/-- The tokens of a text before a character that severs, and then what is scanned from the place
after the last of them. -/
theorem scan_followedBy (rest : List Char) {cursor : Cursor}
    (complete : ∀ lexed ∈ cursor.scan.tokens, lexed.fault? = none) :
    (cursor.followedBy (separator :: rest)).scan =
      let after := (cursor.afterTokens.followedBy (separator :: rest)).scan
      { tokens := cursor.scan.tokens ++ after.tokens, ending := after.ending } := by
  induction cursor using scan_induction with
  | ending cursor ended =>
      rw [afterTokens_of_end ended, scan_of_end ended]
      rfl
  | token cursor token inductionHypothesis =>
      rw [scan_of_token token] at complete
      have onward := next_followedBy severs rest token (complete _ List.mem_cons_self)
      have tokenWhole :
          (cursor.followedBy (separator :: rest)).next.1.token.kind ≠ .endOfInput := by
        rw [onward]
        exact token
      rw [scan_of_token tokenWhole, onward, afterTokens_of_token token, scan_of_token token,
        inductionHypothesis fun lexed member => complete lexed (List.mem_cons_of_mem _ member)]
      rfl

end

end Cursor

/-! ## Texts that start with a separator -/

/-- A semicolon is a token of its own. -/
theorem Cursor.next_semicolon (position : Position) (rest : List Char) :
    next ⟨position, ';' :: rest⟩ =
      (⟨⟨.semicolon, ";", position⟩, position.line, none⟩, ⟨position.after ';', rest⟩) := by
  have single : Lexeme.read ';' rest = Lexeme.plain .semicolon [';'] := by
    have noDouble : rest.head?.bind (doubleOperator? ';') = none := by
      cases rest <;> simp [doubleOperator?]
    rw [Lexeme.read, noDouble]
    rfl
  have ahead : (skipGap ⟨position, ';' :: rest⟩).rest = ';' :: rest := rfl
  rw [next_of_cons ahead, single]
  rfl

theorem Cursor.scan_semicolon (position : Position) (rest : List Char) :
    scan ⟨position, ';' :: rest⟩ =
      let after := scan ⟨position.after ';', rest⟩
      { tokens := ⟨⟨.semicolon, ";", position⟩, position.line, none⟩ :: after.tokens
        ending := after.ending } := by
  have token : (next ⟨position, ';' :: rest⟩).1.token.kind ≠ .endOfInput := by
    rw [next_semicolon]
    simp
  rw [scan_of_token token, next_semicolon]

/-- A space belongs to the gap before the next token. -/
theorem Cursor.scan_blank (position : Position) (rest : List Char) :
    scan ⟨position, ' ' :: rest⟩ = scan ⟨position.after ' ', rest⟩ :=
  scan_congr rfl

theorem Cursor.scan_blanks (count : Nat) (position : Position) (rest : List Char) :
    scan ⟨position, List.replicate count ' ' ++ rest⟩ =
      scan ⟨⟨position.line, position.column + count⟩, rest⟩ := by
  induction count generalizing position with
  | zero => rfl
  | succ count inductionHypothesis =>
      rw [List.replicate_succ, List.cons_append, scan_blank, inductionHypothesis]
      have place : position.after ' ' = ⟨position.line, position.column + 1⟩ := rfl
      simp only [place, Nat.add_assoc, Nat.add_comm 1 count]

theorem placeAfter_append_singleton (text : List Char) (char : Char) :
    placeAfter (text ++ [char]) = (placeAfter text).after char := by
  rw [← start_afterText, ← start_afterText, Position.afterText_append]
  rfl

/-! ## Texts that end with a token -/

/-- Whether nothing stands after the last token of a script. -/
def EndsWithToken (source : String) : Prop := (Cursor.ofSource source).afterTokens.rest = []

theorem EndsWithToken.afterTokens {source : String} (ends : EndsWithToken source) :
    (Cursor.ofSource source).afterTokens = ⟨placeAfter source.toList, []⟩ := by
  have place := (Cursor.ofSource source).afterTokens_afterText
  rw [ends, Position.afterText_nil] at place
  have start : (Cursor.ofSource source).position.afterText (Cursor.ofSource source).rest =
      placeAfter source.toList := start_afterText source.toList
  rw [← start, ← place, ← ends]

/-- The tokens of a script that ends with its last token, and then what is scanned from the character
after it. -/
theorem Cursor.scan_severed {first whole : String} {separator : Char} {rest : List Char}
    (severs : Severs separator) (ends : EndsWithToken first)
    (text : whole.toList = first.toList ++ separator :: rest)
    (complete : ∀ lexed ∈ (ofSource first).scan.tokens, lexed.fault? = none) :
    (ofSource whole).scan =
      let after := scan ⟨placeAfter first.toList, separator :: rest⟩
      { tokens := (ofSource first).scan.tokens ++ after.tokens, ending := after.ending } := by
  have start : ofSource whole = (ofSource first).followedBy (separator :: rest) := by
    rw [ofSource, text]
    rfl
  rw [start, scan_followedBy severs rest complete, ends.afterTokens]
  rfl

/-- The tokens of a script that ends with its last token, and then what is scanned after any number of
blanks. -/
theorem Cursor.scan_spaced {first whole : String} {rest : List Char} (count : Nat)
    (ends : EndsWithToken first)
    (text : whole.toList = first.toList ++ (List.replicate (count + 1) ' ' ++ rest))
    (complete : ∀ lexed ∈ (ofSource first).scan.tokens, lexed.fault? = none) :
    (ofSource whole).scan =
      let place := placeAfter first.toList
      let after := scan ⟨⟨place.line, place.column + (count + 1)⟩, rest⟩
      { tokens := (ofSource first).scan.tokens ++ after.tokens, ending := after.ending } := by
  rw [List.replicate_succ, List.cons_append] at text
  rw [scan_severed severs_blank ends text complete, ← List.cons_append, ← List.replicate_succ,
    scan_blanks]

end AgentScript
