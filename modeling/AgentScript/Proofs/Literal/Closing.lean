import AgentScript.Proofs.Literal.RoundTrip
import AgentScript.Scan.Lexeme
import Mathlib.Algebra.Group.Nat.Even

/-!
Contract: the place where a quoted literal closes, told from its text as a whole.

Owns:
- the backslashes at the end of a text, whose number decides whether a quote after it is escaped;
- which quotes close a literal of each form, and the first that do;
- that the extent of a literal, found character by character, ends at the first closing quotes, and
  is open when there are none.

An extent passes a backslash together with the character after it. What is left behind then has the
same parity of backslashes at its end as the text after the two, which is why the two accounts agree.
-/

set_option autoImplicit false

namespace AgentScript

/-- The number of backslashes in a row at the end of a text. -/
def trailingBackslashes (text : List Char) : Nat :=
  (text.reverse.takeWhile fun char => char = '\\').length

theorem trailingBackslashes_append (left right : List Char) :
    trailingBackslashes (left ++ right) =
      if trailingBackslashes right = right.length then right.length + trailingBackslashes left
      else trailingBackslashes right := by
  unfold trailingBackslashes
  rw [List.reverse_append, List.takeWhile_append, List.length_reverse]
  split
  · rw [List.length_append, List.length_reverse]
  · rfl

theorem trailingBackslashes_cons_of_ne {char : Char} (other : char ≠ '\\') (text : List Char) :
    trailingBackslashes (char :: text) = trailingBackslashes text := by
  have none : trailingBackslashes [char] = 0 := by simp [trailingBackslashes, other]
  rw [← List.singleton_append, trailingBackslashes_append, none]
  split
  · next all => rw [all, Nat.add_zero]
  · rfl

/-- A backslash with the character that it escapes does not change the parity. -/
theorem even_trailingBackslashes_escaped (char : Char) (text : List Char) :
    Even (trailingBackslashes ('\\' :: char :: text)) ↔ Even (trailingBackslashes text) := by
  have pair : Even (trailingBackslashes ['\\', char]) := by
    by_cases backslash : char = '\\'
    · subst backslash
      decide
    · simp [trailingBackslashes, backslash]
  rw [show '\\' :: char :: text = ['\\', char] ++ text from rfl, trailingBackslashes_append]
  split
  · next all => rw [Nat.even_add, all, iff_true_right pair]
  · rfl

namespace LiteralForm

/-- The form that a literal has from the text after its first quote. -/
def opened (quote : Char) (text : List Char) : LiteralForm :=
  if quote = '\x60' then template else if [quote, quote] <+: text then tripleQuoted else string

/-- The quotes that a literal opens with, and those that close it. -/
def quotes (form : LiteralForm) (quote : Char) : List Char :=
  match form with
  | tripleQuoted => [quote, quote, quote]
  | string | template => [quote]

/-- Whether quotes after the body close the literal. Between three quotes there are no escapes;
otherwise an odd number of backslashes escapes a quote. -/
structure ClosesAfter (form : LiteralForm) (quote : Char) (text body : List Char) : Prop where
  quotes : body ++ form.quotes quote <+: text
  unescaped : form ≠ tripleQuoted → Even (trailingBackslashes body)

/-- The quotes after the body are the first that close the literal. -/
structure EndsAfter (form : LiteralForm) (quote : Char) (text body : List Char) : Prop extends
    ClosesAfter form quote text body where
  first : ∀ other, ClosesAfter form quote text other → body.length ≤ other.length

end LiteralForm

open LiteralForm (ClosesAfter EndsAfter)

/-! ## One quote -/

section

variable {form : LiteralForm} {quote char : Char} {text body : List Char}

theorem LiteralForm.quotes_of_ne (single : form ≠ .tripleQuoted) : form.quotes quote = [quote] := by
  cases form <;> first | rfl | exact absurd rfl single

theorem closesAfter_single_iff (single : form ≠ .tripleQuoted) :
    form.ClosesAfter quote text body ↔
      body ++ [quote] <+: text ∧ Even (trailingBackslashes body) := by
  refine ⟨fun closes => ⟨?_, closes.unescaped single⟩, fun closes => ⟨?_, fun _ => closes.2⟩⟩
  · simpa only [LiteralForm.quotes_of_ne single] using closes.quotes
  · simpa only [LiteralForm.quotes_of_ne single] using closes.1

theorem closesAfter_nil_body (single : form ≠ .tripleQuoted) :
    form.ClosesAfter quote (quote :: text) [] := by
  simp [closesAfter_single_iff single, trailingBackslashes]

theorem not_closesAfter_nil (single : form ≠ .tripleQuoted) :
    ¬form.ClosesAfter quote [] body := by
  simp [closesAfter_single_iff single]

/-- A character that neither closes nor escapes belongs to every body. -/
theorem closesAfter_plain_iff (single : form ≠ .tripleQuoted) (noQuote : char ≠ quote)
    (noBackslash : char ≠ '\\') :
    form.ClosesAfter quote (char :: text) body ↔
      ∃ more, body = char :: more ∧ form.ClosesAfter quote text more := by
  simp only [closesAfter_single_iff single]
  cases body with
  | nil => simp [List.cons_prefix_cons, Ne.symm noQuote]
  | cons first more =>
      simp only [List.cons_append, List.cons_prefix_cons, List.cons.injEq]
      constructor
      · rintro ⟨⟨rfl, closes⟩, even⟩
        exact ⟨more, ⟨rfl, rfl⟩, closes, by rwa [trailingBackslashes_cons_of_ne noBackslash] at even⟩
      · rintro ⟨_, ⟨rfl, rfl⟩, closes, even⟩
        exact ⟨⟨rfl, closes⟩, by rwa [trailingBackslashes_cons_of_ne noBackslash]⟩

/-- A backslash belongs to every body, with the character after it. -/
theorem closesAfter_backslash_iff (single : form ≠ .tripleQuoted) (apart : quote ≠ '\\') :
    form.ClosesAfter quote ('\\' :: char :: text) body ↔
      ∃ more, body = '\\' :: char :: more ∧ form.ClosesAfter quote text more := by
  simp only [closesAfter_single_iff single]
  match body with
  | [] => simp [List.cons_prefix_cons, apart]
  | [first] =>
      have odd : ¬Even (trailingBackslashes ['\\']) := by decide
      simp only [List.cons_append, List.nil_append, List.cons_prefix_cons, List.cons.injEq,
        reduceCtorEq, and_false, false_and, exists_false, iff_false, not_and]
      rintro ⟨rfl, _⟩
      exact odd
  | first :: second :: more =>
      simp only [List.cons_append, List.cons_prefix_cons, List.cons.injEq]
      constructor
      · rintro ⟨⟨rfl, rfl, closes⟩, even⟩
        exact ⟨more, ⟨rfl, rfl, rfl⟩, closes, (even_trailingBackslashes_escaped _ _).1 even⟩
      · rintro ⟨_, ⟨rfl, rfl, rfl⟩, closes, even⟩
        exact ⟨⟨rfl, rfl, closes⟩, (even_trailingBackslashes_escaped _ _).2 even⟩

/-- A backslash with nothing after it closes nothing. -/
theorem not_closesAfter_backslash (single : form ≠ .tripleQuoted) (apart : quote ≠ '\\') :
    ¬form.ClosesAfter quote ['\\'] body := by
  rw [closesAfter_single_iff single]
  cases body with
  | nil => simp [apart]
  | cons first more =>
      rw [List.cons_append, List.cons_prefix_cons]
      simp

end

/-- What the extent of a literal says about the places where it may close. -/
structure Extent.EndsAt (extent : Extent) (form : LiteralForm) (quote : Char) (text : List Char) :
    Prop where
  closes : extent.closed = true → form.ClosesAfter quote text extent.body
  first : ∀ body, form.ClosesAfter quote text body →
    extent.closed = true ∧ extent.body.length ≤ body.length

namespace Extent

variable {form : LiteralForm} {quote : Char} {text : List Char}

theorem EndsAt.endsAfter {extent : Extent} (ends : extent.EndsAt form quote text)
    (closed : extent.closed = true) : form.EndsAfter quote text extent.body :=
  ⟨ends.closes closed, fun body closes => (ends.first body closes).2⟩

theorem EndsAt.open {extent : Extent} (ends : extent.EndsAt form quote text)
    (unclosed : extent.closed = false) (body : List Char) : ¬form.ClosesAfter quote text body := by
  intro closes
  rw [(ends.first body closes).1] at unclosed
  cases unclosed

/-- Nothing closes a literal that is open to the end. -/
theorem endsAt_open {body : List Char} (none : ∀ body, ¬form.ClosesAfter quote text body) :
    EndsAt ⟨body, false⟩ form quote text :=
  ⟨nofun, fun body closes => absurd closes (none body)⟩

/-- Characters that every body starts with are put before an extent. -/
theorem EndsAt.put {extent : Extent} (ends : extent.EndsAt form quote text) (passed : List Char)
    (starts : ∀ body, form.ClosesAfter quote (passed ++ text) body ↔
      ∃ more, body = passed ++ more ∧ form.ClosesAfter quote text more) :
    EndsAt ⟨passed ++ extent.body, extent.closed⟩ form quote (passed ++ text) where
  closes := fun closed => (starts _).2 ⟨extent.body, rfl, ends.closes closed⟩
  first := by
    intro body closes
    obtain ⟨more, rfl, closesMore⟩ := (starts body).1 closes
    obtain ⟨closed, shorter⟩ := ends.first more closesMore
    refine ⟨closed, ?_⟩
    rw [List.length_append, List.length_append]
    exact Nat.add_le_add_left shorter _

/-- The extent of a literal between single quotes ends at the first quote that an even number of
backslashes stands before. -/
theorem single_endsAt (single : form ≠ .tripleQuoted) (apart : quote ≠ '\\') (text : List Char) :
    (Extent.single quote text).EndsAt form quote text := by
  fun_induction Extent.single quote text with
  | case1 => exact endsAt_open fun _ => not_closesAfter_nil single
  | case2 => exact ⟨fun _ => closesAfter_nil_body single, fun _ _ => ⟨rfl, Nat.zero_le _⟩⟩
  | case3 char noQuote =>
      refine endsAt_open fun body closes => ?_
      by_cases backslash : char = '\\'
      · subst backslash
        exact not_closesAfter_backslash single apart closes
      · obtain ⟨more, _, closesMore⟩ := (closesAfter_plain_iff single noQuote backslash).1 closes
        exact not_closesAfter_nil single closesMore
  | case4 => exact ⟨fun _ => closesAfter_nil_body single, fun _ _ => ⟨rfl, Nat.zero_le _⟩⟩
  | case5 next rest _ inductionHypothesis =>
      exact inductionHypothesis.put ['\\', next] fun _ => closesAfter_backslash_iff single apart
  | case6 char next rest noQuote noBackslash inductionHypothesis =>
      exact inductionHypothesis.put [char] fun _ =>
        closesAfter_plain_iff single noQuote noBackslash

/-- The extent of a literal between three quotes ends at the first three quotes in a row. -/
theorem triple_endsAt (quote : Char) (text : List Char) :
    (triple quote text).EndsAt .tripleQuoted quote text := by
  induction text with
  | nil =>
      refine endsAt_open fun body closes => ?_
      simpa [LiteralForm.quotes] using closes.quotes.length_le
  | cons char rest inductionHypothesis =>
      unfold triple
      split
      · next closes =>
          have here : ClosesAfter .tripleQuoted quote (char :: rest) [] :=
            ⟨List.isPrefixOf_iff_prefix.1 closes, fun single => absurd rfl single⟩
          exact ⟨fun _ => here, fun _ _ => ⟨rfl, Nat.zero_le _⟩⟩
      · next goesOn =>
          refine inductionHypothesis.put [char] fun body => ?_
          constructor
          · rintro ⟨starts, _⟩
            cases body with
            | nil => exact absurd (List.isPrefixOf_iff_prefix.2 starts) goesOn
            | cons first more =>
                obtain ⟨rfl, startsMore⟩ := List.cons_prefix_cons.1 starts
                exact ⟨more, rfl, startsMore, fun single => absurd rfl single⟩
          · rintro ⟨more, rfl, starts, _⟩
            exact ⟨List.cons_prefix_cons.2 ⟨rfl, starts⟩, fun single => absurd rfl single⟩

end Extent

end AgentScript
