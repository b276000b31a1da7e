import AgentScript.Literal.Escapes
import AgentScript.Literal.Extent
import Mathlib.Tactic.Common

/-!
Contract: a value that is written between two quotes is read back as it was.

Owns:
- the three ways in which a character is written;
- where a written value ends, and what it stands for, for strings;
- the same for templates, in which the stand-in of an escaped dollar sign is written as that again.
-/

set_option autoImplicit false

namespace AgentScript

/-- The quotes that values are written between: those of strings, and those of templates. -/
def writingQuote (template : Bool) : Char := if template then '\x60' else '\x22'

/-- The character that a stand-in for an escaped dollar sign starts with. -/
def dollarMark : Char := '\uE000'

/-- The characters of a code that stand for themselves between quotes. -/
def IsCodeDigit (char : Char) : Prop :=
  char ≠ '\\' ∧ char ≠ '\x60' ∧ char ≠ '\x22' ∧ char ≠ dollarMark

instance (char : Char) : Decidable (IsCodeDigit char) :=
  inferInstanceAs (Decidable (_ ∧ _ ∧ _ ∧ _))

/-- How one character is written: as itself, by a mark after a backslash, or by its code. -/
inductive WrittenAs (template : Bool) (char : Char) : List Char → Prop where
  | itself : char ≠ '\\' → char ≠ writingQuote template → WrittenAs template char [char]
  | mark (mark : Char) :
      mark ≠ 'u' → mark ≠ dollarMark → simpleEscape template mark = [char] →
      WrittenAs template char ['\\', mark]
  | code (first second third fourth : Char) :
      codeEscape? first second third fourth = some char →
      (∀ digit ∈ [first, second, third, fourth], IsCodeDigit digit) →
      WrittenAs template char ['\\', 'u', first, second, third, fourth]

/-- Whether the code of a character has four digits and reads back as the character. -/
private def codeReadsBack (char : Char) : Bool :=
  match fourHexDigits char with
  | [first, second, third, fourth] =>
      codeEscape? first second third fourth = some char &&
        [first, second, third, fourth].all fun digit => IsCodeDigit digit
  | _ => false

private theorem codeReadsBack_of_lt : ∀ code < 160, codeReadsBack (Char.ofNat code) = true := by
  decide +kernel

private theorem codeReadsBack_of_isControl {char : Char} (control : isControl char = true) :
    codeReadsBack char = true := by
  have readsBack := codeReadsBack_of_lt char.toNat (toNat_lt_of_isControl control)
  rwa [Char.ofNat_toNat] at readsBack

theorem escapeChar_writtenAs (template : Bool) (char : Char) :
    WrittenAs template char (escapeChar (writingQuote template) char) := by
  unfold escapeChar
  split_ifs with backslash feed tab carriage quote control
  · exact .mark '\\' (by decide) (by decide) (by simp [simpleEscape, backslash])
  · exact .mark 'n' (by decide) (by decide) (by simp [simpleEscape, feed])
  · exact .mark 't' (by decide) (by decide) (by simp [simpleEscape, tab])
  · exact .mark 'r' (by decide) (by decide) (by simp [simpleEscape, carriage])
  · cases template <;>
      exact .mark _ (by decide) (by decide) (by simp [simpleEscape, quote, writingQuote])
  · have readsBack := codeReadsBack_of_isControl control
    unfold codeReadsBack at readsBack
    split at readsBack
    · next first second third fourth digits =>
        simp only [Bool.and_eq_true, decide_eq_true_eq, List.all_eq_true] at readsBack
        rw [digits]
        exact .code first second third fourth readsBack.1 readsBack.2
    · cases readsBack
  · exact .itself backslash quote

/-! ## One character more -/

section

variable {quote char mark : Char} {text : List Char}

theorem Extent.single_quote : Extent.single quote (quote :: text) = ⟨[], true⟩ := by
  cases text <;> simp [Extent.single]

theorem Extent.single_plain (noQuote : char ≠ quote) (noBackslash : char ≠ '\\') :
    Extent.single quote (char :: text) = Extent.cons char (Extent.single quote text) := by
  cases text with
  | nil => simp [Extent.single, Extent.cons, noQuote]
  | cons next rest => simp [Extent.single, noQuote, noBackslash]

theorem Extent.single_backslash (noBackslash : quote ≠ '\\') :
    Extent.single quote ('\\' :: char :: text) =
      Extent.cons '\\' (Extent.cons char (Extent.single quote text)) := by
  simp [Extent.single, Ne.symm noBackslash]

theorem unescape_plain (template : Bool) (noBackslash : char ≠ '\\') :
    unescape template (char :: text) = char :: unescape template text := by
  rw [unescape]
  · rintro _ _ _ _ _ rfl
    exact absurd rfl noBackslash
  · rintro _ _ rfl
    exact absurd rfl noBackslash

theorem unescape_mark (template : Bool) (noCode : mark ≠ 'u') :
    unescape template ('\\' :: mark :: text) =
      simpleEscape template mark ++ unescape template text := by
  rw [unescape]
  rintro _ _ _ _ _ rfl
  exact absurd rfl noCode

theorem escapedDollar_eq : escapedDollar = dollarMark :: escapedDollar.tail := by decide

theorem restoreDollarsFrom_of_ne (other : char ≠ dollarMark) :
    restoreDollarsFrom 0 (char :: text) = char :: restoreDollarsFrom 0 text := by
  have noStandIn : escapedDollar.isPrefixOf (char :: text) = false := by
    rw [escapedDollar_eq, List.isPrefixOf_cons_cons, Bool.and_eq_false_iff]
    exact .inl (by simpa using Ne.symm other)
  rw [restoreDollarsFrom, noStandIn]
  simp

theorem restoreDollarsFrom_length (skipped : List Char) :
    restoreDollarsFrom skipped.length (skipped ++ text) = restoreDollarsFrom 0 text := by
  induction skipped with
  | nil => rfl
  | cons char rest inductionHypothesis =>
      rw [List.length_cons, List.cons_append, restoreDollarsFrom, inductionHypothesis]

/-- A stand-in is written as a dollar sign after a backslash. -/
theorem restoreDollarsFrom_escapedDollar :
    restoreDollarsFrom 0 (escapedDollar ++ text) = '\\' :: '$' :: restoreDollarsFrom 0 text := by
  have standIn : escapedDollar.isPrefixOf (escapedDollar ++ text) = true :=
    List.isPrefixOf_iff_prefix.2 (List.prefix_append _ _)
  rw [escapedDollar_eq, List.cons_append] at standIn ⊢
  rw [restoreDollarsFrom, escapedDollar_eq]
  simp only [List.tail_cons, standIn, ↓reduceIte, List.length_cons, Nat.add_sub_cancel]
  rw [restoreDollarsFrom_length]

end

/-! ## Strings -/

/-- What holds of the written form of a value, between quotes of one kind. -/
structure ReadsBackAs (template : Bool) (value written : List Char) : Prop where
  extent : ∀ rest, Extent.single (writingQuote template) (written ++ writingQuote template :: rest) =
    ⟨written, true⟩
  value : unescape template written = value

theorem writingQuote_ne_backslash (template : Bool) : writingQuote template ≠ '\\' := by
  cases template <;> decide

theorem readsBackAs_nil (template : Bool) : ReadsBackAs template [] [] where
  extent := fun _ => Extent.single_quote
  value := by rw [unescape]

/-- A character is put before a value by putting its written form before that of the value. -/
theorem ReadsBackAs.cons {template : Bool} {char : Char} {value written unit : List Char}
    (readsBack : ReadsBackAs template value written) (writtenAs : WrittenAs template char unit) :
    ReadsBackAs template (char :: value) (unit ++ written) := by
  have noBackslash := writingQuote_ne_backslash template
  cases writtenAs with
  | itself plain noQuote =>
      refine ⟨fun rest => ?_, ?_⟩
      · rw [List.append_assoc, List.singleton_append, Extent.single_plain noQuote plain,
          readsBack.extent rest]
        rfl
      · rw [List.singleton_append, unescape_plain template plain, readsBack.value]
  | mark mark noCode _ means =>
      refine ⟨fun rest => ?_, ?_⟩
      · simp only [List.cons_append, List.nil_append]
        rw [Extent.single_backslash noBackslash, readsBack.extent rest]
        rfl
      · simp only [List.cons_append, List.nil_append]
        rw [unescape_mark template noCode, means, readsBack.value]
        rfl
  | code first second third fourth means digits =>
      have apart : ∀ digit ∈ [first, second, third, fourth],
          digit ≠ '\\' ∧ digit ≠ writingQuote template := by
        intro digit member
        have isDigit := digits digit member
        refine ⟨isDigit.1, ?_⟩
        cases template
        · exact isDigit.2.2.1
        · exact isDigit.2.1
      have firstApart := apart first (by simp)
      have secondApart := apart second (by simp)
      have thirdApart := apart third (by simp)
      have fourthApart := apart fourth (by simp)
      refine ⟨fun rest => ?_, ?_⟩
      · simp only [List.cons_append, List.nil_append]
        rw [Extent.single_backslash noBackslash, Extent.single_plain firstApart.2 firstApart.1,
          Extent.single_plain secondApart.2 secondApart.1,
          Extent.single_plain thirdApart.2 thirdApart.1,
          Extent.single_plain fourthApart.2 fourthApart.1, readsBack.extent rest]
        rfl
      · simp only [List.cons_append, List.nil_append]
        rw [unescape, means, readsBack.value]

/-- The value of a string is read back from its written form. -/
theorem escape_readsBackAs (template : Bool) (value : List Char) :
    ReadsBackAs template value (escape (writingQuote template) value) := by
  induction value with
  | nil => exact readsBackAs_nil template
  | cons char rest inductionHypothesis =>
      exact inductionHypothesis.cons (escapeChar_writtenAs template char)

/-! ## Templates -/

/-- What is written for a character that no stand-in starts with is left as it is. -/
theorem WrittenAs.restoreDollarsFrom_append {template : Bool} {char : Char} {unit : List Char}
    (writtenAs : WrittenAs template char unit) (other : char ≠ dollarMark) (text : List Char) :
    restoreDollarsFrom 0 (unit ++ text) = unit ++ restoreDollarsFrom 0 text := by
  have noMark : ∀ char ∈ unit, char ≠ dollarMark := by
    cases writtenAs with
    | itself _ _ => simpa using other
    | mark mark _ noMark _ => simpa using ⟨by decide, noMark⟩
    | code first second third fourth _ digits =>
        intro char member
        simp only [List.mem_cons] at member
        rcases member with rfl | rfl | inDigits
        · decide
        · decide
        · exact (digits char (by simpa using inDigits)).2.2.2
  clear writtenAs
  induction unit with
  | nil => rfl
  | cons char rest inductionHypothesis =>
      rw [List.cons_append, restoreDollarsFrom_of_ne (noMark char List.mem_cons_self),
        inductionHypothesis fun char member => noMark char (List.mem_cons_of_mem _ member)]
      rfl

/-- Characters that are written as themselves start a written value only if they start the value. -/
theorem prefix_of_prefix_escape (template : Bool) {leading value : List Char}
    (plain : '\\' ∉ leading)
    (starts : leading <+: escape (writingQuote template) value) : leading <+: value := by
  induction leading generalizing value with
  | nil => exact List.nil_prefix
  | cons char rest inductionHypothesis =>
      cases value with
      | nil => simp [escape] at starts
      | cons first value =>
          obtain ⟨noBackslash, plainRest⟩ := List.ne_and_not_mem_of_not_mem_cons plain
          rw [escape, List.flatMap_cons] at starts
          have writtenAs := escapeChar_writtenAs template first
          generalize escapeChar (writingQuote template) first = unit at writtenAs starts
          cases writtenAs with
          | itself =>
              obtain ⟨rfl, startsRest⟩ := List.cons_prefix_cons.1 starts
              exact List.cons_prefix_cons.2 ⟨rfl, inductionHypothesis plainRest startsRest⟩
          | mark => exact absurd (List.cons_prefix_cons.1 starts).1.symm noBackslash
          | code => exact absurd (List.cons_prefix_cons.1 starts).1.symm noBackslash

/-- The value of a template is read back from its written form. -/
theorem restoreDollars_readsBackAs (value : List Char) :
    ReadsBackAs true value (restoreDollars (escape (writingQuote true) value)) := by
  induction size : value.length using Nat.strongRecOn generalizing value with
  | ind length inductionHypothesis =>
      by_cases standIn : escapedDollar <+: value
      · obtain ⟨rest, rfl⟩ := standIn
        have written : escape (writingQuote true) (escapedDollar ++ rest) =
            escapedDollar ++ escape (writingQuote true) rest := by
          have same : escape (writingQuote true) escapedDollar = escapedDollar := by decide +kernel
          rw [escape, List.flatMap_append, ← escape, ← escape, same]
        have shorter : rest.length < length := by
          rw [← size, List.length_append, escapedDollar_eq, List.length_cons]
          omega
        have readsBack := inductionHypothesis rest.length shorter rest rfl
        rw [written, restoreDollars, restoreDollarsFrom_escapedDollar]
        refine ⟨fun text => ?_, ?_⟩
        · rw [List.cons_append, List.cons_append,
            Extent.single_backslash (writingQuote_ne_backslash true), ← restoreDollars,
            readsBack.extent text]
          rfl
        · rw [unescape_mark true (by decide), ← restoreDollars, readsBack.value]
          rfl
      · cases value with
        | nil => exact readsBackAs_nil true
        | cons char rest =>
            have readsBack := inductionHypothesis rest.length (by simp [← size]) rest rfl
            have writtenAs := escapeChar_writtenAs true char
            have unit : restoreDollars (escape (writingQuote true) (char :: rest)) =
                escapeChar (writingQuote true) char ++
                  restoreDollars (escape (writingQuote true) rest) := by
              by_cases other : char = dollarMark
              · subst other
                have itself : escapeChar (writingQuote true) dollarMark = [dollarMark] := by
                  decide +kernel
                have noStandIn : escapedDollar.isPrefixOf
                    (dollarMark :: escape (writingQuote true) rest) = false := by
                  rw [Bool.eq_false_iff]
                  intro starts
                  refine standIn (prefix_of_prefix_escape true (by decide) ?_)
                  rw [escape, List.flatMap_cons, ← escape, itself]
                  exact List.isPrefixOf_iff_prefix.1 starts
                rw [escape, List.flatMap_cons, ← escape, itself, List.singleton_append,
                  restoreDollars, restoreDollarsFrom, noStandIn]
                rfl
              · rw [escape, List.flatMap_cons, ← escape, restoreDollars,
                  writtenAs.restoreDollarsFrom_append other]
                rfl
            rw [unit]
            exact readsBack.cons writtenAs

end AgentScript
