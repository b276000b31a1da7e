import AgentScript.Proofs.Source.Line
import AgentScript.Text.Dedent

/-!
Contract: the text of a triple-quoted string does not depend on how far its lines are indented.

Owns:
- what trimming leaves, and that trimming it again changes nothing;
- a text put together from lines, and cut into them again;
- the shared indentation of lines that are all moved by the same number of spaces and tabs;
- that such a move leaves the dedented text as it is, and so does dedenting once more.

Blank lines are the reason for most of the cases. They have no say in the shared indentation, they may
be shorter than it, and one in front of a text goes with the trimming, whatever is left of it.
-/

set_option autoImplicit false

namespace AgentScript

/-! ## Trimming -/

section

variable {text blank : List Char}

theorem isWhiteSpace_of_head?_trim (text : List Char) {char : Char}
    (first : char ∈ (trim text).head?) : isWhiteSpace char = false := by
  obtain ⟨rest, starts⟩ := List.head?_eq_some_iff.1 first
  have leading : trim text <+: text.dropWhile isWhiteSpace := List.rdropWhile_prefix _ _
  rw [starts] at leading
  obtain ⟨more, split⟩ := leading
  have visible := List.head?_dropWhile_not isWhiteSpace text
  rw [← split] at visible
  exact visible

theorem trim_trim (text : List Char) : trim (trim text) = trim text := by
  have noneInFront : (trim text).dropWhile isWhiteSpace = trim text := by
    cases trimmed : trim text with
    | nil => rfl
    | cons first rest =>
        have visible : isWhiteSpace first = false :=
          isWhiteSpace_of_head?_trim text (by rw [trimmed]; rfl)
        exact List.dropWhile_cons_of_neg (by simp [visible])
  have noneAtEnd : trimEnd (trim text) = trim text := List.rdropWhile_idempotent _ _
  rw [trim, noneInFront, noneAtEnd]

theorem trim_of_whiteSpace (all : ∀ char ∈ text, isWhiteSpace char = true) : trim text = [] := by
  rw [trim, List.dropWhile_eq_nil_iff.2 all]
  rfl

/-- White space in front of a text goes with the trimming. -/
theorem trim_append_of_whiteSpace (all : ∀ char ∈ blank, isWhiteSpace char = true) :
    trim (blank ++ text) = trim text := by
  rw [trim, List.dropWhile_append_of_pos all]
  rfl

end

/-! ## Lines put together -/

section

variable {lines : List (List Char)}

theorem not_mem_of_mem_splitLines (text : List Char) : ∀ line ∈ splitLines text, '\n' ∉ line := by
  induction text with
  | nil => simp [splitLines]
  | cons char rest inductionHypothesis =>
      by_cases feed : char = '\n'
      · simpa [splitLines, feed] using inductionHypothesis
      · obtain ⟨line, lines, split, splitCons⟩ := splitLines_cons_of_ne feed rest
        rw [split, List.forall_mem_cons] at inductionHypothesis
        rw [splitCons, List.forall_mem_cons]
        refine ⟨fun member => ?_, inductionHypothesis.2⟩
        rcases List.mem_cons.1 member with same | inRest
        · exact feed same.symm
        · exact inductionHypothesis.1 inRest

theorem joinLines_cons (line : List Char) (nonempty : lines ≠ []) :
    joinLines (line :: lines) = line ++ '\n' :: joinLines lines := by
  obtain ⟨next, more, rfl⟩ := List.exists_cons_of_ne_nil nonempty
  rfl

/-- Lines that are put together are cut apart again in the same places. -/
theorem splitLines_joinLines (nonempty : lines ≠ []) (noFeeds : ∀ line ∈ lines, '\n' ∉ line) :
    splitLines (joinLines lines) = lines := by
  induction lines with
  | nil => exact absurd rfl nonempty
  | cons line rest inductionHypothesis =>
      obtain ⟨noFeed, noFeedsRest⟩ := List.forall_mem_cons.1 noFeeds
      by_cases last : rest = []
      · rw [last]
        exact splitLines_of_not_mem noFeed
      · rw [joinLines_cons line last, splitLines_append_feed, splitLines_of_not_mem noFeed,
          inductionHypothesis last noFeedsRest]
        rfl

theorem isWhiteSpace_of_mem_joinLines (blank : ∀ line ∈ lines, isBlankLine line = true) :
    ∀ char ∈ joinLines lines, isWhiteSpace char = true := by
  induction lines with
  | nil => simp [joinLines]
  | cons line rest inductionHypothesis =>
      obtain ⟨first, others⟩ := List.forall_mem_cons.1 blank
      have inFirst : ∀ char ∈ line, isWhiteSpace char = true := List.all_eq_true.1 first
      by_cases last : rest = []
      · rw [last]
        exact inFirst
      · rw [joinLines_cons line last, List.forall_mem_append, List.forall_mem_cons]
        exact ⟨inFirst, by decide, inductionHypothesis others⟩

end

/-! ## The shared indentation -/

section

variable {line : List Char} {lines : List (List Char)}

theorem dropIndent_zero (line : List Char) : dropIndent 0 line = line := by
  rw [dropIndent, Nat.min_zero, List.drop_zero]

theorem isBlankLine_dropIndent (shared : Nat) (blank : isBlankLine line = true) :
    isBlankLine (dropIndent shared line) = true :=
  List.all_eq_true.2 fun char member => List.all_eq_true.1 blank char (List.mem_of_mem_drop member)

/-- The shared indentation is not larger than that of any line with something on it. -/
theorem sharedIndent_le_indentOf (member : line ∈ lines) (visible : isBlankLine line = false) :
    sharedIndent lines ≤ indentOf line := by
  have counts : indentOf line ∈ (lines.filter fun line => !isBlankLine line).map indentOf :=
    List.mem_map_of_mem (List.mem_filter.2 ⟨member, by simp [visible]⟩)
  unfold sharedIndent
  cases least : ((lines.filter fun line => !isBlankLine line).map indentOf).min? with
  | none => exact Nat.zero_le _
  | some shared => exact (List.min?_eq_some_iff.1 least).2 _ counts

/-- A blank line has no say in the shared indentation. -/
theorem sharedIndent_cons_of_blank (blank : isBlankLine line = true) :
    sharedIndent (line :: lines) = sharedIndent lines := by
  rw [sharedIndent, List.filter_cons_of_neg (by simp [blank])]
  rfl

/-- The lines without the indentation that they share. -/
def dedentLines (lines : List (List Char)) : List (List Char) :=
  lines.map (dropIndent (sharedIndent lines))

theorem dedent_joinLines (nonempty : lines ≠ []) (noFeeds : ∀ line ∈ lines, '\n' ∉ line) :
    dedent (joinLines lines) = trim (joinLines (dedentLines lines)) := by
  unfold dedent
  rw [splitLines_joinLines nonempty noFeeds]
  rfl

theorem trim_dedentLines_of_blank (blank : ∀ line ∈ lines, isBlankLine line = true) :
    trim (joinLines (dedentLines lines)) = [] :=
  trim_of_whiteSpace (isWhiteSpace_of_mem_joinLines
    (List.forall_mem_map.2 fun line member => isBlankLine_dropIndent _ (blank line member)))

/-- A blank line in front of others leaves no trace. -/
theorem trim_dedentLines_cons (blank : isBlankLine line = true) (nonempty : lines ≠ []) :
    trim (joinLines (dedentLines (line :: lines))) = trim (joinLines (dedentLines lines)) := by
  have dropped : ∀ char ∈ dropIndent (sharedIndent lines) line, isWhiteSpace char = true :=
    List.all_eq_true.1 (isBlankLine_dropIndent _ blank)
  have front : ∀ char ∈ dropIndent (sharedIndent lines) line ++ ['\n'],
      isWhiteSpace char = true :=
    List.forall_mem_append.2 ⟨dropped, List.forall_mem_singleton.2 (by decide)⟩
  have cut : joinLines (dedentLines (line :: lines)) =
      (dropIndent (sharedIndent lines) line ++ ['\n']) ++ joinLines (dedentLines lines) := by
    rw [dedentLines, sharedIndent_cons_of_blank blank, List.map_cons,
      joinLines_cons _ (by simpa using nonempty), List.append_assoc]
    rfl
  rw [cut, trim_append_of_whiteSpace front]

end

/-! ## Lines that are moved -/

/-- A number of characters that indent a line: spaces and tabs in any order. -/
structure Indentation (width : Nat) where
  chars : List Char
  length_eq : chars.length = width
  isIndent_of_mem : ∀ char ∈ chars, isIndent char = true

section

variable {width : Nat}

/-- Puts an indentation in front of each line, each its own. -/
def indentLines (indentations : Nat → Indentation width) : List (List Char) → List (List Char)
  | [] => []
  | line :: lines =>
      ((indentations 0).chars ++ line) :: indentLines (fun index => indentations (index + 1)) lines

/-- Puts an indentation in front of each line of a text. -/
def indentText (indentations : Nat → Indentation width) (text : List Char) : List Char :=
  joinLines (indentLines indentations (splitLines text))

namespace Indentation

variable (indentation : Indentation width) (line : List Char)

theorem indentOf_append : indentOf (indentation.chars ++ line) = width + indentOf line := by
  rw [indentOf, List.takeWhile_append_of_pos indentation.isIndent_of_mem, List.length_append,
    indentation.length_eq]
  rfl

theorem isBlankLine_append : isBlankLine (indentation.chars ++ line) = isBlankLine line := by
  have blank : indentation.chars.all isWhiteSpace = true :=
    List.all_eq_true.2 fun char member =>
      isWhiteSpace_of_isBlank (isBlank_of_isIndent (indentation.isIndent_of_mem char member))
  rw [isBlankLine, List.all_append, blank, Bool.true_and]
  rfl

theorem dropIndent_append (shared : Nat) :
    dropIndent (width + shared) (indentation.chars ++ line) = dropIndent shared line := by
  rw [dropIndent, indentation.indentOf_append, Nat.add_min_add_left]
  simp only [← indentation.length_eq, List.drop_length_add_append]
  rfl

theorem not_mem_append (noFeed : '\n' ∉ line) : '\n' ∉ indentation.chars ++ line := by
  intro member
  rcases List.mem_append.1 member with inFront | inLine
  · exact absurd (indentation.isIndent_of_mem _ inFront) (by decide)
  · exact noFeed inLine

end Indentation

section

variable (indentations : Nat → Indentation width) {lines : List (List Char)}

theorem indentLines_ne_nil (nonempty : lines ≠ []) : indentLines indentations lines ≠ [] := by
  obtain ⟨line, rest, rfl⟩ := List.exists_cons_of_ne_nil nonempty
  exact List.cons_ne_nil _ _

/-- What an indentation keeps of a line, it keeps of every line. -/
theorem forall_mem_indentLines {property : List Char → Prop}
    (keeps : ∀ (indentation : Indentation width) line, property line →
      property (indentation.chars ++ line))
    (each : ∀ line ∈ lines, property line) :
    ∀ line ∈ indentLines indentations lines, property line := by
  induction lines generalizing indentations with
  | nil => exact each
  | cons line rest inductionHypothesis =>
      obtain ⟨first, others⟩ := List.forall_mem_cons.1 each
      exact List.forall_mem_cons.2 ⟨keeps _ line first, inductionHypothesis _ others⟩

/-- The indentations that count all grow by the same width. -/
theorem map_indentOf_indentLines (lines : List (List Char)) :
    ((indentLines indentations lines).filter fun line => !isBlankLine line).map indentOf =
      ((lines.filter fun line => !isBlankLine line).map indentOf).map (width + ·) := by
  induction lines generalizing indentations with
  | nil => rfl
  | cons line rest inductionHypothesis =>
      simp only [indentLines, List.filter_cons, Indentation.isBlankLine_append]
      split
      · simp only [List.map_cons, Indentation.indentOf_append, inductionHypothesis]
      · exact inductionHypothesis _

private theorem min?_map_add (width : Nat) (values : List Nat) :
    (values.map (width + ·)).min? = values.min?.map (width + ·) := by
  induction values with
  | nil => rfl
  | cons value rest inductionHypothesis =>
      rw [List.map_cons, List.min?_cons, List.min?_cons, inductionHypothesis]
      cases rest.min? with
      | none => rfl
      | some least => simp [Nat.add_min_add_left]

theorem sharedIndent_indentLines (visible : ∃ line ∈ lines, isBlankLine line = false) :
    sharedIndent (indentLines indentations lines) = width + sharedIndent lines := by
  obtain ⟨line, member, noBlank⟩ := visible
  have counts : indentOf line ∈ (lines.filter fun line => !isBlankLine line).map indentOf :=
    List.mem_map_of_mem (List.mem_filter.2 ⟨member, by simp [noBlank]⟩)
  rw [sharedIndent, sharedIndent, map_indentOf_indentLines, min?_map_add]
  cases least : ((lines.filter fun line => !isBlankLine line).map indentOf).min? with
  | none =>
      rw [List.min?_eq_none_iff.1 least] at counts
      cases counts
  | some shared => rfl

theorem dedentLines_indentLines (visible : ∃ line ∈ lines, isBlankLine line = false) :
    dedentLines (indentLines indentations lines) = dedentLines lines := by
  rw [dedentLines, dedentLines, sharedIndent_indentLines indentations visible]
  generalize sharedIndent lines = shared
  clear visible
  induction lines generalizing indentations with
  | nil => rfl
  | cons line rest inductionHypothesis =>
      rw [indentLines, List.map_cons, List.map_cons, Indentation.dropIndent_append,
        inductionHypothesis]

/-- The move does not show after trimming. Where all lines are blank nothing is left, moved or not. -/
theorem trim_dedentLines_indentLines (lines : List (List Char)) :
    trim (joinLines (dedentLines (indentLines indentations lines))) =
      trim (joinLines (dedentLines lines)) := by
  by_cases visible : ∃ line ∈ lines, isBlankLine line = false
  · rw [dedentLines_indentLines indentations visible]
  · have blank : ∀ line ∈ lines, isBlankLine line = true := by simpa using visible
    have blankMoved := forall_mem_indentLines indentations
      (fun indentation line blank => (indentation.isBlankLine_append line).trans blank) blank
    rw [trim_dedentLines_of_blank blank, trim_dedentLines_of_blank blankMoved]

end

/-- A text is dedented to the same text when each of its lines is indented by the same number of
spaces and tabs, in any order; a blank first line may as well be left where it is. -/
theorem dedent_indentText (indentations : Nat → Indentation width) (text : List Char) :
    dedent (indentText indentations text) = dedent text ∧
      ∀ first rest, splitLines text = first :: rest → isBlankLine first = true →
        dedent (joinLines (first :: indentLines indentations rest)) = dedent text := by
  have noFeeds := not_mem_of_mem_splitLines text
  have movedNoFeeds {lines : List (List Char)} (noFeeds : ∀ line ∈ lines, '\n' ∉ line)
      (indentations : Nat → Indentation width) :=
    forall_mem_indentLines indentations
      (fun indentation line noFeed => indentation.not_mem_append line noFeed) noFeeds
  constructor
  · rw [indentText, dedent_joinLines (indentLines_ne_nil indentations (splitLines_ne_nil text))
      (movedNoFeeds noFeeds indentations), trim_dedentLines_indentLines]
    rfl
  · intro first rest split blank
    rw [split, List.forall_mem_cons] at noFeeds
    have whole : dedent text = trim (joinLines (dedentLines (first :: rest))) := by
      rw [← split]
      rfl
    rw [whole, dedent_joinLines (List.cons_ne_nil _ _)
      (List.forall_mem_cons.2 ⟨noFeeds.1, movedNoFeeds noFeeds.2 indentations⟩)]
    by_cases only : rest = []
    · rw [only]
      rfl
    · rw [trim_dedentLines_cons blank (indentLines_ne_nil indentations only),
        trim_dedentLines_cons blank only, trim_dedentLines_indentLines]

/-- Two lines below a blank one, indented by a space and a tab in either order. -/
theorem dedent_indentText_below_blank :
    splitLines "\n  a\n    b".toList = [[], "  a".toList, "    b".toList] ∧ isBlankLine [] = true ∧
      dedent "\n \t  a\n\t     b".toList = dedent "\n  a\n    b".toList := by
  let indentations : Nat → Indentation 2 := fun index =>
    if index = 0 then ⟨[' ', '\t'], rfl, by simp [isIndent]⟩
    else ⟨['\t', ' '], rfl, by simp [isIndent]⟩
  have split : splitLines "\n  a\n    b".toList = [[], "  a".toList, "    b".toList] := by decide
  exact ⟨split, rfl, (dedent_indentText indentations _).2 [] _ split rfl⟩

end

/-! ## Dedenting twice -/

theorem trim_dedent (text : List Char) : trim (dedent text) = dedent text := trim_trim _

/-- The first character of a trimmed text is visible, so that its first line shares no indentation
with the others. -/
theorem dedent_of_trim_eq {text : List Char} (trimmed : trim text = text) : dedent text = text := by
  cases text with
  | nil => rfl
  | cons first rest =>
      have visible : isWhiteSpace first = false :=
        isWhiteSpace_of_head?_trim (first :: rest) (by rw [trimmed]; rfl)
      have noFeed : first ≠ '\n' := by
        rintro rfl
        cases visible
      have noIndent : isIndent first = false := by
        cases indent : isIndent first with
        | false => rfl
        | true =>
            rw [isWhiteSpace_of_isBlank (isBlank_of_isIndent indent)] at visible
            cases visible
      obtain ⟨line, lines, _, split⟩ := splitLines_cons_of_ne noFeed rest
      have atMargin : indentOf (first :: line) = 0 := by
        rw [indentOf, List.takeWhile_cons_of_neg (by simp [noIndent])]
        rfl
      have noShared : sharedIndent (splitLines (first :: rest)) = 0 := by
        have least : sharedIndent (splitLines (first :: rest)) ≤ indentOf (first :: line) :=
          sharedIndent_le_indentOf (by simp [split]) (by simp [isBlankLine, visible])
        rw [atMargin] at least
        exact Nat.le_zero.1 least
      have kept : (splitLines (first :: rest)).map (dropIndent 0) = splitLines (first :: rest) :=
        List.map_id'' dropIndent_zero _
      change trim (joinLines ((splitLines (first :: rest)).map
        (dropIndent (sharedIndent (splitLines (first :: rest)))))) = _
      rw [noShared, kept, joinLines_splitLines, trimmed]

/-- Dedenting leaves exactly the trimmed texts as they are. -/
theorem dedent_eq_self_iff {text : List Char} : dedent text = text ↔ trim text = text :=
  ⟨fun same => by rw [← same, trim_dedent], dedent_of_trim_eq⟩

/-- A text that was dedented once is left as it is. -/
theorem dedent_dedent (text : List Char) : dedent (dedent text) = dedent text :=
  dedent_eq_self_iff.2 (trim_dedent text)

end AgentScript
