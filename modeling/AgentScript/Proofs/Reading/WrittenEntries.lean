import AgentScript.Proofs.Reading.Spacing
import AgentScript.Proofs.Scan.Quoted
import AgentScript.Proofs.Tree.Legible

/-!
Contract: the texts that keyed values can be written as.

Owns:
- entries with all that can be chosen in writing them: the marks around a key, and what stands
  between an entry and the one before it;
- the two styles of writing a list of entries, that of object literals and that of declarations;
- a script with an object literal and a script with a declaration, for any list of entries;
- the tokens that such texts show.

Keys can be repeated here. An entry carries what its parts have to satisfy, so that every list of
entries can be written in both styles.
-/

set_option autoImplicit false

namespace AgentScript

open Printed

/-! ## Separators -/

theorem separates_of_isBlank {first : Char} (blank : isBlank first = true) (rest : List Char) :
    Separates (first :: rest) := by
  simp only [isBlank, Bool.or_eq_true, decide_eq_true_eq] at blank
  rcases blank with ((rfl | rfl) | rfl) | rfl
  all_goals exact separates_cons (by decide) (by decide)

/-- What separates two entries of a declaration: a comma, a line break or both, among blanks. -/
structure EntrySeparator where
  before : List Char
  comma : Bool
  after : List Char
  isBlank_of_mem : ∀ char ∈ before ++ after, isBlank char = true
  separates : comma = true ∨ '\n' ∈ before ++ after

namespace EntrySeparator

def text (separator : EntrySeparator) : String :=
  String.ofList (separator.before ++ ((if separator.comma then [','] else []) ++ separator.after))

/-- What separates two entries of an object literal. -/
def commaSpace : EntrySeparator := ⟨[], true, [' '], by simp [isBlank], .inl rfl⟩

theorem text_separates (separator : EntrySeparator) (rest : List Char) :
    Separates (separator.text.toList ++ rest) := by
  obtain ⟨before, comma, after, blank, separates⟩ := separator
  cases before with
  | cons first more =>
      simpa [text] using separates_of_isBlank (blank first (by simp)) _
  | nil =>
      cases comma with
      | true => simpa [text] using separates_cons (by decide) (by decide)
      | false =>
          cases after with
          | nil => simp at separates
          | cons first more =>
              simpa [text] using separates_of_isBlank (blank first (by simp)) _

end EntrySeparator

/-! ## Entries -/

/-- An entry, and how it is written: between which marks its key stands in an object literal, and what
stands before it in a declaration if it is not the first. The value is any expression that reading can
build. -/
structure WrittenEntry where
  key : String
  isName : isPlainName key = true
  value : Expr
  isTree : value.WellFormed
  marks : KeyMarks
  separator : EntrySeparator

def WrittenEntry.pair (entry : WrittenEntry) : String × Expr := (entry.key, entry.value)

/-- The marks around each key, and what stands before each entry but the first. -/
structure EntryStyle where
  marks : WrittenEntry → KeyMarks
  separator : WrittenEntry → EntrySeparator

namespace EntryStyle

/-- Any marks, and commas. -/
def object : EntryStyle := ⟨WrittenEntry.marks, fun _ => .commaSpace⟩

/-- No marks, and commas or line breaks. -/
def declaration : EntryStyle := ⟨fun _ => .none, WrittenEntry.separator⟩

variable (style : EntryStyle)

def entryText (entry : WrittenEntry) : String :=
  (style.marks entry).text ++ entry.key ++ (style.marks entry).text ++ ": " ++ entry.value.text

/-- Entries with what stands before them. -/
def furtherText : List WrittenEntry → String
  | [] => ""
  | next :: rest => (style.separator next).text ++ style.entryText next ++ furtherText rest

/-- Entries one after the other. -/
def text : List WrittenEntry → String
  | [] => ""
  | first :: rest => style.entryText first ++ style.furtherText rest

end EntryStyle

/-- A script that gives a name the object literal with the given entries. A comma may follow the last
of them. -/
def objectScript (entries : List WrittenEntry) (comma : Bool) : String :=
  "o = \x7b" ++ EntryStyle.object.text entries ++
    (if comma && !entries.isEmpty then "," else "") ++ "\x7d"

/-- A script that declares an agent with the given entries. -/
def agentScript (entries : List WrittenEntry) : String :=
  "agent A \x7b " ++ EntryStyle.declaration.text entries ++ " \x7d"

/-! ## Tokens -/

/-- A character that is a token by itself, whatever stands after it. -/
theorem spells_single {kind : Kind} {char : Char} (found : singleOperator? char = some kind)
    (apart : ∀ second, doubleOperator? char second = none)
    (visible : isBlank char = false ∧ char ≠ '#') (rest : List Char) :
    Spells kind (String.ofList [char]) rest [char] := by
  refine .intro visible.1 visible.2 ?_
  have noDouble : rest.head?.bind (doubleOperator? char) = none := by
    cases rest with
    | nil => rfl
    | cons second rest => exact apart second
  rw [List.nil_append, Lexeme.read_single found noDouble, String.toList_ofList]
  rfl

theorem spells_comma (rest : List Char) : Spells .comma "," rest [','] :=
  spells_single rfl (by simp [doubleOperator?]) (by decide) rest

theorem spells_closeCurly (rest : List Char) : Spells .closeCurly "\x7d" rest ['\x7d'] :=
  spells_single rfl (by simp [doubleOperator?]) (by decide) rest

namespace EntryStyle

variable (style : EntryStyle)

/-- The tokens of an entry. -/
def piece (entry : WrittenEntry) (gap : Gap) : List Printed :=
  ⟨gap, (style.marks entry).kind, entry.key⟩ :: colon :: entry.value.printed .space

/-- The tokens of entries after the first, up to the closing ones. Only a line break that stands for a
comma matters. -/
def furtherTokens (closing : List Printed) : List WrittenEntry → List Printed
  | [] => closing
  | next :: rest =>
      if (style.separator next).comma then
        ⟨.top, .comma, ","⟩ :: (style.piece next .top ++ furtherTokens closing rest)
      else style.piece next (.line 0) ++ furtherTokens closing rest

variable {rest blanks : List Char} {following : List Printed} {gap : Gap}

/-- An entry shows its tokens in front of a text that separates. -/
theorem scansAs_entryText (entry : WrittenEntry) (scans : ScansAs rest following)
    (separates : Separates rest) (blank : ∀ char ∈ blanks, isBlank char = true)
    (fits : gap.Matches blanks) :
    ScansAs (blanks ++ ((style.entryText entry).toList ++ rest))
      (style.piece entry gap ++ following) := by
  have legible : Legible (colon :: entry.value.printed .space) rest :=
    .cons sound_colon (entry.isTree.separates rest) (entry.isTree.legible .space separates)
  have value := scans.append legible
  have starts : ∀ char ∈ (printedText (colon :: entry.value.printed .space) ++ rest).head?,
      continuesWord char = false := by
    rintro _ ⟨⟩
    decide +kernel
  have isToken : (style.marks entry).kind ≠ .endOfInput := by
    cases style.marks entry <;> simp [KeyMarks.kind]
  have whole := value.cons ((style.marks entry).spells entry.isName starts) isToken blank fits
  have written : printedText (colon :: entry.value.printed .space) =
      (": " ++ entry.value.text).toList := by
    rw [printedText_cons, entry.isTree.printedText_eq]
    simp [colon]
  rw [written] at whole
  simpa [entryText, piece] using whole

theorem furtherText_separates (separates : Separates rest) (entries : List WrittenEntry) :
    Separates ((style.furtherText entries).toList ++ rest) := by
  cases entries with
  | nil => simpa [furtherText] using separates
  | cons next more =>
      simpa [furtherText] using (style.separator next).text_separates _

/-- Entries with what stands before them show their tokens in front of a text that separates. -/
theorem scansAs_furtherText (scans : ScansAs rest following) (separates : Separates rest)
    (entries : List WrittenEntry) :
    ScansAs ((style.furtherText entries).toList ++ rest) (style.furtherTokens following entries) := by
  induction entries with
  | nil => simpa [furtherText, furtherTokens] using scans
  | cons next more inductionHypothesis =>
      have separatesMore := style.furtherText_separates separates more
      unfold furtherTokens furtherText
      cases isSeparator : style.separator next with
      | mk before comma after blank apart =>
          obtain ⟨blankBefore, blankAfter⟩ := List.forall_mem_append.1 blank
          cases comma with
          | true =>
              have entry := style.scansAs_entryText next inductionHypothesis separatesMore
                blankAfter (Gap.matches_top after)
              have whole := entry.cons (spells_comma _) (by simp) blankBefore (Gap.matches_top before)
              simpa [EntrySeparator.text] using whole
          | false =>
              have breaks : (Gap.line 0).Matches (before ++ after) := by
                intro _
                simpa [Gap.breaks] using apart
              have entry := style.scansAs_entryText next inductionHypothesis separatesMore
                blank breaks
              simpa [EntrySeparator.text] using entry

/-- Entries show their tokens up to the end of the list. The text that ends a list depends on whether
there is an entry before it. -/
theorem scansAs_text {closeText lastText : List Char} {closing last : List Printed}
    (closes : ScansAs closeText closing) (ends : ScansAs lastText last)
    (separates : Separates lastText) (entries : List WrittenEntry) :
    ScansAs ((style.text entries).toList ++ (if entries.isEmpty then closeText else lastText))
      (Production.listed style.piece (style.furtherTokens last) closing .top entries) := by
  cases entries with
  | nil => simpa [text, Production.listed] using closes
  | cons first more =>
      have further := style.scansAs_furtherText ends separates more
      have whole := style.scansAs_entryText first further
        (style.furtherText_separates separates more) (by simp) (Gap.matches_top [])
      simpa [text, Production.listed] using whole

end EntryStyle

/-! ## Scripts -/

/-- The bracket that ends a list of entries. -/
def entriesEnd : Printed := ⟨.top, .closeCurly, "\x7d"⟩

/-- The bracket, and a comma before it. -/
def entriesLast (comma : Bool) : List Printed :=
  if comma then [⟨.top, .comma, ","⟩, entriesEnd] else [entriesEnd]

theorem scansAs_entriesEnd : ScansAs ['\x7d'] [entriesEnd] :=
  scansAs_nil.cons (spells_closeCurly []) (by simp) (by simp) (Gap.matches_top [])

namespace EntryStyle

variable (style : EntryStyle) (comma : Bool) (entries : List WrittenEntry)

/-- The tokens of the entries of a script. -/
def tokens : List Printed :=
  Production.listed style.piece (style.furtherTokens (entriesLast comma)) [entriesEnd] .top entries

theorem tokens_top : ∀ first ∈ (style.tokens comma entries).head?, first.gap = .top := by
  cases entries <;> rintro _ ⟨⟩ <;> rfl

end EntryStyle

/-- The tokens before the entries of an object literal. -/
def objectOpening : List Printed :=
  [⟨.top, .identifier, "o"⟩, ⟨.space, .assign, "="⟩, ⟨.space, .openCurly, "\x7b"⟩]

/-- The tokens before the entries of a declaration. -/
def agentOpening : List Printed :=
  [keyword .top .agentKw, ⟨.space, .identifier, "A"⟩, ⟨.space, .openCurly, "\x7b"⟩]

theorem legible_objectOpening (rest : List Char) : Legible objectOpening rest :=
  .cons ⟨(by decide +kernel : isPlainName "o" = true), by simp⟩
    (separates_cons (by decide) (by decide))
    (.cons (sound_of_fixedText? rfl) (separates_cons (by decide) (by decide))
      (.cons_open (sound_of_fixedText? rfl) rfl (legible_nil _)))

theorem legible_agentOpening (rest : List Char) : Legible agentOpening rest :=
  .cons (sound_keyword .top .agentKw) (separates_cons (by decide) (by decide))
    (.cons ⟨(by decide +kernel : isPlainName "A" = true), by simp⟩
      (separates_cons (by decide) (by decide))
      (.cons_open (sound_of_fixedText? rfl) rfl (legible_nil _)))

/-- Reading a script with an object literal starts with its tokens ahead. -/
theorem shows_objectScript (entries : List WrittenEntry) (comma : Bool) :
    (State.ofSource (objectScript entries comma)).Shows
      (objectOpening ++ EntryStyle.object.tokens comma entries) := by
  let lastText : List Char := (if comma then [','] else []) ++ ['\x7d']
  have ends : ScansAs lastText (entriesLast comma) := by
    cases comma with
    | false => exact scansAs_entriesEnd
    | true =>
        exact scansAs_entriesEnd.cons (spells_comma _) (by simp) (by simp) (Gap.matches_top [])
  have separates : Separates lastText := by
    cases comma <;> exact separates_cons (by decide) (by decide)
  have list := EntryStyle.object.scansAs_text scansAs_entriesEnd ends separates entries
  have whole := list.append (legible_objectOpening _)
  have text : (objectScript entries comma).toList =
      printedText objectOpening ++ ((EntryStyle.object.text entries).toList ++
        if entries.isEmpty then ['\x7d'] else lastText) := by
    cases entries <;> cases comma <;> simp [objectScript, objectOpening, lastText]
  rw [← text] at whole
  exact whole.shows (by simp [objectOpening])

/-- Reading a script with a declaration starts with its tokens ahead. -/
theorem shows_agentScript (entries : List WrittenEntry) :
    (State.ofSource (agentScript entries)).Shows
      (agentOpening ++ EntryStyle.declaration.tokens false entries) := by
  have blank : ∀ char ∈ [' '], isBlank char = true := by simp [isBlank]
  have ends : ScansAs [' ', '\x7d'] [entriesEnd] :=
    scansAs_entriesEnd.blanks (by rintro _ ⟨⟩; rfl) [' '] blank
  have list := EntryStyle.declaration.scansAs_text ends ends
    (separates_cons (by decide) (by decide)) entries
  rw [ite_self] at list
  have body := list.blanks (EntryStyle.declaration.tokens_top false entries) [' '] blank
  have whole := body.append (legible_agentOpening _)
  have text : (agentScript entries).toList =
      printedText agentOpening ++ ([' '] ++
        ((EntryStyle.declaration.text entries).toList ++ [' ', '\x7d'])) := by
    simp [agentScript, agentOpening, keyword, Keyword.word]
  rw [← text] at whole
  exact whole.shows (by simp [agentOpening, keyword])

end AgentScript
