import AgentScript.Proofs.Literal.Closing
import AgentScript.Proofs.Scan.Printed
import AgentScript.Proofs.Scan.Unterminated

/-!
Contract: literals as tokens of a script.

Owns:
- that the canonical text of a string or template is one token with the same value;
- where a scanner stands before each of its tokens;
- where the token of a literal ends, and when it has a fault.
-/

set_option autoImplicit false

namespace AgentScript

/-! ## Canonical texts -/

/-- The text of one token, well spelled and ending with the text, is read as that token. -/
theorem tokenize_tokenText {kind : Kind} {value : String} (allows : kind.Allows value)
    (ends : kind.EndsBefore value []) :
    tokenize (String.ofList (tokenText kind value)) =
      ([⟨kind, value, .start⟩, ⟨.endOfInput, "", placeAfter (tokenText kind value)⟩],
        Sink.empty) := by
  have legible : Legible [⟨.none, kind, value⟩] [] := by simpa using ⟨allows, ends⟩
  have text : printedText [⟨.none, kind, value⟩] = tokenText kind value := by
    simp [printedText, Printed.text, Gap.text]
  have scan := Cursor.scan_printedText legible
  rw [text, start_afterText] at scan
  rw [tokenize, Cursor.ofSource, String.toList_ofList, scan]
  rfl

/-- The canonical text of a string is one token with its value, and so is that of a template. -/
theorem tokenize_literal_text (token : Token) :
    tokenize (Expr.string token).text =
      ([⟨.string, token.value, .start⟩,
          ⟨.endOfInput, "", placeAfter (Expr.string token).text.toList⟩], Sink.empty) ∧
    tokenize (Expr.template token).text =
      ([⟨.template, token.value, .start⟩,
          ⟨.endOfInput, "", placeAfter (Expr.template token).text.toList⟩], Sink.empty) := by
  constructor
  · have allows : Kind.string.Allows token.value := trivial
    have ends : Kind.string.EndsBefore token.value [] := by simp [Kind.EndsBefore]
    have read := tokenize_tokenText allows ends
    rwa [tokenText, String.ofList_toList] at read
  · have allows : Kind.template.Allows token.value := trivial
    have ends : Kind.template.EndsBefore token.value [] := trivial
    have read := tokenize_tokenText allows ends
    rwa [tokenText, String.ofList_toList] at read

/-! ## One literal -/

/-- The characters that a literal opens with. -/
def literalQuotes : List Char := ['\x22', '\x27', '\x60']

/-- What is read of a literal, from the text after its first quote: its body and the first quotes
that close it, or everything if nothing does. -/
inductive Lexeme.ReadsLiteral (lexeme : Lexeme) (form : LiteralForm) (quote : Char)
    (after : List Char) : Prop where
  | closed (body rest : List Char) :
      quote :: after = form.quotes quote ++ (body ++ form.quotes quote ++ rest) →
      form.EndsAfter quote (body ++ form.quotes quote ++ rest) body →
      quote :: after.take lexeme.more = form.quotes quote ++ body ++ form.quotes quote →
      after.drop lexeme.more = rest →
      (form = .tripleQuoted → lexeme.value = dedent body) →
      lexeme.unterminated? = none →
      ReadsLiteral lexeme form quote after
  | unterminated (inside : List Char) :
      quote :: after = form.quotes quote ++ inside →
      (∀ body, ¬form.ClosesAfter quote inside body) →
      lexeme.more = after.length →
      lexeme.unterminated? = some form →
      ReadsLiteral lexeme form quote after

/-- A literal between quotes is read up to the end of its extent. -/
theorem Lexeme.delimited_readsLiteral {kind : Kind} {form : LiteralForm} {quote : Char}
    {inside value : List Char} {extent : Extent} (opening : List Char)
    (opens : form.quotes quote = quote :: opening)
    (ends : extent.EndsAt form quote inside)
    (whole : extent.closed = false → extent.body = inside)
    (triple : form = .tripleQuoted → value = dedent extent.body) :
    (delimited kind form opening.length (opening.length + 1) extent value).ReadsLiteral form quote
      (opening ++ inside) := by
  cases closed : extent.closed with
  | false =>
      refine .unterminated inside (by rw [opens]; rfl) (ends.open closed) ?_ ?_
      · simp [delimited, closed, whole closed]
      · simp [delimited, closed]
  | true =>
      obtain ⟨rest, rfl⟩ := (ends.closes closed).quotes
      have more : (delimited kind form opening.length (opening.length + 1) extent value).more =
          (opening ++ (extent.body ++ form.quotes quote)).length := by
        simp [delimited, closed, opens, Nat.add_assoc]
      have split : opening ++ (extent.body ++ form.quotes quote ++ rest) =
          opening ++ (extent.body ++ form.quotes quote) ++ rest := by simp
      refine .closed extent.body rest (by rw [opens]; rfl) (ends.endsAfter closed) ?_ ?_ triple ?_
      · rw [more, split, List.take_left, opens]
        simp
      · rw [more, split, List.drop_left]
      · simp [delimited, closed]

/-- What is read at a quote is the literal that opens there. -/
theorem Lexeme.read_readsLiteral {quote : Char} (isQuote : quote ∈ literalQuotes)
    (after : List Char) :
    (read quote after).ReadsLiteral (.opened quote after) quote after := by
  have apart : quote ∉ operatorChars := by
    have all : ∀ quote ∈ literalQuotes, quote ∉ operatorChars := by
      simp [literalQuotes, operatorChars]
    exact all quote isQuote
  have noBackslash : quote ≠ '\\' := by
    rintro rfl
    exact absurd isQuote (by decide)
  rw [read_of_not_mem_operatorChars apart]
  by_cases backquote : quote = '\x60'
  · subst backquote
    simp only [readTemplate, LiteralForm.opened, ↓reduceIte]
    exact delimited_readsLiteral [] rfl (Extent.single_endsAt (by simp) (by decide) after)
      Extent.single_body_of_not_closed (by simp)
  · have isString : (quote = '\x22' || quote = '\x27') = true := by
      simpa [literalQuotes, backquote] using isQuote
    simp only [isString, ↓reduceIte, readString, LiteralForm.opened, backquote]
    by_cases opens : [quote, quote] <+: after
    · obtain ⟨inside, rfl⟩ := opens
      have two : [quote, quote].isPrefixOf ([quote, quote] ++ inside) = true :=
        List.isPrefixOf_iff_prefix.2 (List.prefix_append _ _)
      simp only [two, List.prefix_append, ↓reduceIte]
      exact delimited_readsLiteral [quote, quote] rfl (Extent.triple_endsAt quote inside)
        Extent.triple_body_of_not_closed fun _ => rfl
    · have one : [quote, quote].isPrefixOf after = false :=
        Bool.eq_false_iff.2 fun two => opens (List.isPrefixOf_iff_prefix.1 two)
      simp only [one, opens, Bool.false_eq_true, ↓reduceIte]
      exact delimited_readsLiteral [] rfl (Extent.single_endsAt (by simp) noBackslash after)
        Extent.single_body_of_not_closed (by simp)

/-! ## The place of a token -/

theorem placeAfter_append (left right : List Char) :
    placeAfter (left ++ right) = (placeAfter left).afterText right := by
  rw [← start_afterText, ← start_afterText, Position.afterText_append]

/-- The place after a leading part of a text tells how long that part is. -/
theorem eq_of_placeAfter_eq {left right text : List Char} (leftPrefix : left <+: text)
    (rightPrefix : right <+: text) (same : placeAfter left = placeAfter right) : left = right := by
  have apart : ∀ short long : List Char, short <+: long → placeAfter short = placeAfter long →
      short = long := by
    rintro short _ ⟨more, rfl⟩ same
    rw [placeAfter_append] at same
    by_contra longer
    have nonempty : more ≠ [] := by simpa using longer
    exact (Position.before_afterText _ nonempty).ne same
  rcases List.prefix_or_prefix_of_prefix leftPrefix rightPrefix with shorter | longer
  · exact apart left right shorter same
  · exact (apart right left longer same.symm).symm

theorem Cursor.next_token_position (cursor : Cursor) :
    cursor.next.1.token.position = cursor.skipGap.position := by
  cases ahead : cursor.skipGap.rest with
  | nil => rw [next_of_end ahead]
  | cons first rest => rw [next_of_cons ahead]

theorem Cursor.allTokens_head (cursor : Cursor) :
    ∃ following, cursor.scan.allTokens = cursor.next.1.token :: following := by
  by_cases ended : cursor.next.1.token.kind = .endOfInput
  · exact ⟨[], by rw [scan_of_end ended]; rfl⟩
  · exact ⟨cursor.next.2.scan.allTokens, by rw [scan_of_token ended]; rfl⟩

namespace Scanner

theorem nextTokens_eq_run (count : Nat) (scanner : Scanner) :
    (scanner.nextTokens count).2 = scanner.run (List.replicate count .next) := by
  induction count generalizing scanner with
  | zero => rfl
  | succ count inductionHypothesis =>
      rw [nextTokens_succ, inductionHypothesis, List.replicate_succ]
      rfl

/-- Past the tokens before one of them, a scanner is at that one. -/
theorem scan_nextTokens {preceding following : List Token} {token : Token} (scanner : Scanner)
    (tokens : scanner.cursor.scan.allTokens = preceding ++ token :: following) :
    (scanner.nextTokens preceding.length).2.cursor.scan.allTokens = token :: following ∧
      ∃ passed, scanner.cursor.scan.tokens =
        passed ++ (scanner.nextTokens preceding.length).2.cursor.scan.tokens := by
  induction preceding generalizing scanner with
  | nil => exact ⟨tokens, [], rfl⟩
  | cons first preceding inductionHypothesis =>
      have goesOn : scanner.cursor.next.1.token.kind ≠ .endOfInput := by
        intro ended
        rw [Cursor.scan_of_end ended] at tokens
        simp [Scan.allTokens] at tokens
      rw [Cursor.scan_of_token goesOn] at tokens ⊢
      obtain ⟨there, passed, split⟩ :=
        inductionHypothesis scanner.next.2 (List.cons.inj tokens).2
      rw [List.length_cons, nextTokens_succ]
      exact ⟨there, scanner.cursor.next.1 :: passed, congrArg (_ :: ·) split⟩

end Scanner

/-- The cursor in front of a token, and the text from the token on. -/
theorem skipGap_before_token {source : String} {preceding following : List Token} {token : Token}
    {before after : List Char} {first : Char}
    (tokens : (tokenize source).1 = preceding ++ token :: following)
    (text : source.toList = before ++ first :: after) (place : token.position = placeAfter before) :
    let cursor := ((Scanner.ofSource source).nextTokens preceding.length).2.cursor
    cursor.skipGap = ⟨placeAfter before, first :: after⟩ ∧ cursor.next.1.token = token ∧
      ∃ passed, (Cursor.ofSource source).scan.tokens = passed ++ cursor.scan.tokens := by
  obtain ⟨there, passed⟩ := (Scanner.ofSource source).scan_nextTokens tokens
  obtain ⟨consumed, split, here⟩ := (Scanner.ofSource source).run_split
    (List.replicate preceding.length .next) [] rfl
  rw [← Scanner.nextTokens_eq_run] at split here
  generalize ((Scanner.ofSource source).nextTokens preceding.length).2 = scanner at *
  obtain ⟨others, head⟩ := scanner.cursor.allTokens_head
  have isToken : scanner.cursor.next.1.token = token := by
    rw [there] at head
    exact (List.cons.inj head).1.symm
  obtain ⟨gap, gapSplit, _, gapPlace⟩ := scanner.cursor.skipGap_split
  have gapEnd : scanner.cursor.skipGap.position = placeAfter (consumed ++ gap) := by
    rw [gapPlace, placeAfter_append]
    exact congrArg (Position.afterText · gap) here
  have whole : source.toList = consumed ++ gap ++ scanner.cursor.skipGap.rest := by
    rw [List.append_assoc, ← gapSplit]
    exact split
  have same : consumed ++ gap = before := by
    refine eq_of_placeAfter_eq ⟨_, whole.symm⟩ ⟨_, text.symm⟩ ?_
    rw [← gapEnd, ← Cursor.next_token_position, isToken, place]
  have rest : scanner.cursor.skipGap.rest = first :: after := by
    rw [whole, same] at text
    exact List.append_cancel_left text
  refine ⟨?_, isToken, passed⟩
  rw [← same, ← gapEnd, ← rest]

/-- What a scanner in front of a token reads: the lexeme that the text starts with there. -/
theorem next_before_token {source : String} {preceding following : List Token} {token : Token}
    {before after : List Char} {first : Char}
    (tokens : (tokenize source).1 = preceding ++ token :: following)
    (text : source.toList = before ++ first :: after) (place : token.position = placeAfter before) :
    let cursor := ((Scanner.ofSource source).nextTokens preceding.length).2.cursor
    let lexeme := Lexeme.read first after
    cursor.next.1 ∈ (Cursor.ofSource source).scan.tokens ∧ cursor.next.1.token = token ∧
      token.value = String.ofList lexeme.value ∧
      cursor.next.1.fault? = lexeme.unterminated?.map (Cursor.unterminatedAt token.position) ∧
      cursor.next.2 =
        ⟨placeAfter (before ++ first :: after.take lexeme.more), after.drop lexeme.more⟩ := by
  obtain ⟨gap, isToken, passed, split⟩ := skipGap_before_token tokens text place
  generalize ((Scanner.ofSource source).nextTokens preceding.length).2.cursor = cursor at *
  have goesOn : cursor.next.1.token.kind ≠ .endOfInput := by
    rw [Ne, Cursor.next_kind_eq_endOfInput_iff, gap]
    exact List.cons_ne_nil _ _
  have member : cursor.next.1 ∈ (Cursor.ofSource source).scan.tokens := by
    rw [split, Cursor.scan_of_token goesOn]
    exact List.mem_append_right _ List.mem_cons_self
  have next := Cursor.next_of_cons (congrArg Cursor.rest gap)
  refine ⟨member, isToken, ?_, ?_, ?_⟩
  · rw [← isToken, next]
  · rw [next, gap, place]
  · rw [next, gap, placeAfter_append]

/-- A fault at the place of a token is the fault of that token. -/
theorem Cursor.fault?_of_position_eq {cursor : Cursor} {lexed : Lexed} {diagnostic : Diagnostic}
    (member : lexed ∈ cursor.scan.tokens) (recorded : diagnostic ∈ cursor.scan.faults)
    (same : diagnostic.position = lexed.token.position) : lexed.fault? = some diagnostic := by
  obtain ⟨other, otherMember, fault⟩ := List.mem_filterMap.1 recorded
  obtain ⟨form, rfl⟩ := cursor.scan_fault? other otherMember diagnostic fault
  have distinct : (cursor.scan.tokens.map fun lexed => lexed.token.position).Nodup := by
    have before := cursor.scan_pairwise
    rw [Scan.allTokens, List.map_append, List.pairwise_append, List.pairwise_map] at before
    exact List.pairwise_map.2 (before.1.imp Position.Before.ne)
  rw [List.inj_on_of_nodup_map distinct member otherMember same.symm]
  exact fault

/-! ## Where a literal ends -/

/-- A token that starts with a quote ends right after the first quotes that close it, and then has
no fault; when nothing closes it, it takes the rest of the script, and its missing quotes are all
that is wrong with the tokens of the script. The value of a string between three quotes is the
dedented text between them. -/
theorem literal_ends {source : String} {preceding following : List Token} {token : Token}
    {before after : List Char} {quote : Char}
    (tokens : (tokenize source).1 = preceding ++ token :: following)
    (text : source.toList = before ++ quote :: after) (isQuote : quote ∈ literalQuotes)
    (place : token.position = placeAfter before) :
    let form := LiteralForm.opened quote after
    let quotes := form.quotes quote
    let scanner := ((Scanner.ofSource source).nextTokens preceding.length).2
    ∃ inside, quote :: after = quotes ++ inside ∧
      ((∃ body rest, inside = body ++ quotes ++ rest ∧ form.EndsAfter quote inside body ∧
          scanner.next =
            (token, ⟨⟨placeAfter (before ++ (quotes ++ body ++ quotes)), rest⟩, scanner.sink⟩) ∧
          (form = .tripleQuoted → token.value = String.ofList (dedent body)) ∧
          ∀ diagnostic ∈ (tokenize source).2.entries, diagnostic.position ≠ token.position) ∨
        ((∀ body, ¬form.ClosesAfter quote inside body) ∧
          scanner.next.1 = token ∧ scanner.next.2.cursor = ⟨placeAfter source.toList, []⟩ ∧
          (tokenize source).2.entries =
            [⟨.unterminatedLiteral form.text token.position, token.position⟩])) := by
  intro form quotes scanner
  obtain ⟨member, isToken, value, fault, moved⟩ := next_before_token tokens text place
  have next : scanner.next = (token, ⟨scanner.cursor.next.2,
      scanner.sink.pushOption scanner.cursor.next.1.fault?⟩) := by
    rw [← isToken]
    rfl
  rw [tokenize_entries, next]
  cases Lexeme.read_readsLiteral isQuote after with
  | closed body rest whole ends slice dropped dedented noFault =>
      rw [noFault, Option.map_none] at fault
      refine ⟨_, whole, .inl ⟨body, rest, rfl, ends, ?_, ?_, ?_⟩⟩
      · rw [fault, moved, slice, dropped]
        rfl
      · intro triple
        rw [value, dedented triple]
      · intro diagnostic recorded same
        rw [← isToken] at same
        rw [Cursor.fault?_of_position_eq member recorded same] at fault
        cases fault
  | unterminated inside whole noneCloses more missing =>
      rw [missing, Option.map_some] at fault
      refine ⟨inside, whole, .inr ⟨noneCloses, rfl, ?_, ?_⟩⟩
      · rw [moved, more, List.take_length, List.drop_length, text]
      · have recorded := List.mem_filterMap.2 ⟨_, member, fault⟩
        rcases (Cursor.ofSource source).scan_faults with none | ⟨_, last, other, _, one⟩
        · rw [← Scan.faults, none] at recorded
          cases recorded
        · rw [← Scan.faults, one] at recorded
          rw [one, ← List.mem_singleton.1 recorded]
          rfl

/-- A string with an escaped quote and, right before its end, a code of two digits only; behind it a
string that nothing closes. -/
theorem literal_ends_after_short_code :
    let source := "x = \x22\\\\\\\x22\\u12\x22 \x27y\x22"
    let body := "\\\\\\\x22\\u12".toList
    let rest := " \x27y\x22".toList
    LiteralForm.string.EndsAfter '\x22' (body ++ ['\x22'] ++ rest) body ∧
      (∀ body, ¬LiteralForm.string.ClosesAfter '\x27' ['y', '\x22'] body) ∧
      (tokenize source).2.entries = [⟨.unterminatedLiteral "string" ⟨1, 16⟩, ⟨1, 16⟩⟩] := by
  intro source body rest
  let assigned : List Token := [⟨.identifier, "x", ⟨1, 1⟩⟩, ⟨.assign, "=", ⟨1, 3⟩⟩]
  let first : Token := ⟨.string, "\\\x22\\u12", ⟨1, 5⟩⟩
  let second : Token := ⟨.string, "y\x22", ⟨1, 16⟩⟩
  let ending : Token := ⟨.endOfInput, "", ⟨1, 19⟩⟩
  have tokens : (tokenize source).1 = assigned ++ first :: [second, ending] := by decide +kernel
  have firstText : source.toList = "x = ".toList ++ '\x22' :: (body ++ ['\x22'] ++ rest) := by
    decide +kernel
  have secondText : source.toList = ("x = \x22".toList ++ body ++ "\x22 ".toList) ++
      '\x27' :: ['y', '\x22'] := by decide +kernel
  have again : (tokenize source).1 = (assigned ++ [first]) ++ second :: [ending] := tokens
  have firstForm : LiteralForm.opened '\x22' (body ++ ['\x22'] ++ rest) = .string := by
    decide +kernel
  have left : ((Scanner.ofSource source).nextTokens assigned.length).2.next.2.cursor.rest =
      rest := by
    decide +kernel
  have atFirst := literal_ends tokens firstText (by decide) (by decide +kernel)
  have atSecond := literal_ends again secondText (by decide) (by decide +kernel)
  refine ⟨?_, ?_⟩
  · rw [firstForm] at atFirst
    obtain ⟨inside, whole, ⟨read, more, split, ends, next, _⟩ | ⟨_, _, _, entries⟩⟩ := atFirst
    · obtain rfl : more = rest := by rw [next] at left; exact left
      obtain rfl : inside = body ++ ['\x22'] ++ rest := (List.cons.inj whole).2.symm
      obtain rfl : body = read := by simpa [LiteralForm.quotes] using split
      exact ends
    · exact absurd entries (by decide +kernel)
  · obtain ⟨inside, whole, ⟨_, _, _, _, _, _, sound⟩ | ⟨noneCloses, _, _, entries⟩⟩ := atSecond
    · exact absurd rfl (sound ⟨.unterminatedLiteral "string" ⟨1, 16⟩, ⟨1, 16⟩⟩ (by decide +kernel))
    · exact ⟨(List.cons.inj whole).2 ▸ noneCloses, entries⟩

end AgentScript
