import AgentScript.Grammar.State
import Mathlib.Tactic.Common

/-!
Contract: lists of tokens whose brackets answer one another.

Owns:
- balanced lists of tokens, one after the other and in brackets;
- that a balanced list leaves the open brackets as they were;
- the keys on the level of a pair of curly brackets, and their repetition.
-/

set_option autoImplicit false

namespace AgentScript

/-- Whether a token of this kind opens or closes a bracket. -/
def Kind.isBracket (kind : Kind) : Bool := kind.isOpener || kind.opener?.isSome

theorem isBracket_of_namesMember {kind : Kind} (names : kind.namesMember = true) :
    kind.isBracket = false := by
  cases kind <;> first | rfl | cases names

/-- Every bracket among the tokens is answered by one of its kind, pairs inside pairs. -/
inductive Balanced : List Token → Prop where
  | nil : Balanced []
  | plain {token : Token} {rest : List Token} :
      token.kind.isBracket = false → Balanced rest → Balanced (token :: rest)
  | pair {opening closing : Token} {inside rest : List Token} :
      opening.kind.isOpener = true → closing.kind.opener? = some opening.kind →
      Balanced inside → Balanced rest → Balanced (opening :: (inside ++ closing :: rest))

namespace Balanced

variable {left right : List Token}

theorem append (balancedLeft : Balanced left) (balancedRight : Balanced right) :
    Balanced (left ++ right) := by
  induction balancedLeft with
  | nil => exact balancedRight
  | plain isPlain _ inductionHypothesis => exact .plain isPlain inductionHypothesis
  | @pair opening closing inside rest isOpener answers balancedInside _ _ inductionHypothesis =>
      have whole := Balanced.pair isOpener answers balancedInside inductionHypothesis
      rwa [List.cons_append, List.append_assoc, List.cons_append]

theorem singleton {token : Token} (isPlain : token.kind.isBracket = false) : Balanced [token] :=
  .plain isPlain .nil

theorem enclosed {opening closing : Token} {inside : List Token}
    (isOpener : opening.kind.isOpener = true) (answers : closing.kind.opener? = some opening.kind)
    (balanced : Balanced inside) : Balanced (opening :: (inside ++ [closing])) :=
  .pair isOpener answers balanced .nil

/-- A closing bracket closes the bracket that was opened last, if that is of its kind. -/
theorem closeInnermost_cons (opener : Kind) (openBrackets : List Kind) :
    closeInnermost opener (opener :: openBrackets) = openBrackets := by
  simp [closeInnermost]

/-- The open brackets after balanced tokens are those before them. -/
theorem foldl_bracketsAfter {tokens : List Token} (balanced : Balanced tokens)
    (openBrackets : List Kind) :
    tokens.foldl (fun openBrackets token => token.kind.bracketsAfter openBrackets) openBrackets =
      openBrackets := by
  induction balanced generalizing openBrackets with
  | nil => rfl
  | @plain token rest isPlain _ inductionHypothesis =>
      obtain ⟨noOpener, noCloser⟩ := Bool.or_eq_false_iff.1 isPlain
      have none : token.kind.opener? = none := by simpa using noCloser
      have same : token.kind.bracketsAfter openBrackets = openBrackets := by
        simp [Kind.bracketsAfter, noOpener, none]
      rw [List.foldl_cons, same]
      exact inductionHypothesis openBrackets
  | @pair opening closing inside rest isOpener answers _ _ insideSame restSame =>
      have opened : opening.kind.bracketsAfter openBrackets = opening.kind :: openBrackets := by
        simp [Kind.bracketsAfter, isOpener]
      have noOpener : closing.kind.isOpener = false := by
        cases kind : closing.kind <;> first | rfl | (rw [kind] at answers; cases answers)
      have closed : closing.kind.bracketsAfter (opening.kind :: openBrackets) = openBrackets := by
        simp [Kind.bracketsAfter, noOpener, answers, closeInnermost_cons]
      rw [List.foldl_cons, List.foldl_append, opened, insideSame, List.foldl_cons, closed]
      exact restSame openBrackets

end Balanced

/-! ## Keys -/

/-- A token with a given value stands before a colon after the given tokens, outside all brackets.
-/
def KeyAfter (before tokens : List Token) (value : String) : Prop :=
  ∃ key colon rest, tokens = before ++ key :: colon :: rest ∧ Balanced before ∧
    key.kind.isBracket = false ∧ key.value = value ∧ colon.kind = .colon

/-- Inside some pair of curly brackets, two tokens with the same value stand before colons, both of
them outside all brackets further in. -/
def RepeatsKey (tokens : List Token) : Prop :=
  ∃ before opening inside closing after first second value,
    tokens = before ++ opening :: (inside ++ closing :: after) ∧
      opening.kind = .openCurly ∧ closing.kind = .closeCurly ∧ Balanced inside ∧
      first ≠ second ∧ KeyAfter first inside value ∧ KeyAfter second inside value

/-- Repetition is seen from the tokens around. -/
theorem RepeatsKey.within {tokens : List Token} (repeats : RepeatsKey tokens)
    (left right : List Token) : RepeatsKey (left ++ (tokens ++ right)) := by
  obtain ⟨before, opening, inside, closing, after, first, second, value, rfl, rest⟩ := repeats
  exact ⟨left ++ before, opening, inside, closing, after ++ right, first, second, value,
    by simp, rest⟩

/-- A key stays one before further tokens. -/
theorem KeyAfter.before {before tokens : List Token} {value : String}
    (isKey : KeyAfter before tokens value) (right : List Token) :
    KeyAfter before (tokens ++ right) value := by
  obtain ⟨key, colon, rest, rfl, same⟩ := isKey
  exact ⟨key, colon, rest ++ right, by simp, same⟩

/-- The values of the tokens that stand before a colon, at any depth. -/
def valuesBeforeColon : List Token → List String
  | key :: next :: rest =>
      if next.kind = .colon then key.value :: valuesBeforeColon (next :: rest)
      else valuesBeforeColon (next :: rest)
  | _ => []

theorem valuesBeforeColon_cons (key next : Token) (rest : List Token) :
    valuesBeforeColon (key :: next :: rest) =
      if next.kind = .colon then key.value :: valuesBeforeColon (next :: rest)
      else valuesBeforeColon (next :: rest) := rfl

theorem valuesBeforeColon_append (left right : List Token) :
    (valuesBeforeColon right).Sublist (valuesBeforeColon (left ++ right)) := by
  induction left with
  | nil => exact List.Sublist.refl _
  | cons token left inductionHypothesis =>
      rw [List.cons_append]
      cases rest : left ++ right with
      | nil =>
          have noRight : right = [] := (List.append_eq_nil_iff.1 rest).2
          rw [noRight]
          exact List.nil_sublist _
      | cons next later =>
          rw [rest] at inductionHypothesis
          rw [valuesBeforeColon_cons]
          split
          · exact inductionHypothesis.cons _
          · exact inductionHypothesis

/-- One of two keys with the same value stands further to the left. -/
theorem KeyAfter.not_nodup {first second tokens : List Token} {value : String}
    (shorter : first.length < second.length) (isFirst : KeyAfter first tokens value)
    (isSecond : KeyAfter second tokens value) : ¬ (valuesBeforeColon tokens).Nodup := by
  obtain ⟨key, colon, rest, rfl, _, _, rfl, isColon⟩ := isFirst
  obtain ⟨again, secondColon, secondRest, split, balanced, isPlain, same, isSecondColon⟩ := isSecond
  intro distinct
  have here := distinct.sublist (valuesBeforeColon_append first _)
  rw [valuesBeforeColon_cons, if_pos isColon] at here
  refine (List.nodup_cons.1 here).1 ?_
  obtain ⟨skipped, rfl, whole⟩ | ⟨skipped, rfl, _⟩ := List.append_eq_append_iff.1 split
  · cases skipped with
    | nil => simp at shorter
    | cons skippedKey skipped =>
        obtain ⟨rfl, remaining⟩ := List.cons.inj whole
        rw [remaining, ← same]
        refine (valuesBeforeColon_append skipped _).subset ?_
        rw [valuesBeforeColon_cons, if_pos isSecondColon]
        exact List.mem_cons_self
  · rw [List.length_append] at shorter
    omega

/-- Where the values before colons are all different, no key is repeated. -/
theorem not_repeatsKey_of_nodup {tokens : List Token}
    (distinct : (valuesBeforeColon tokens).Nodup) : ¬ RepeatsKey tokens := by
  rintro ⟨before, opening, inside, closing, after, first, second, value, rfl, _, _, _, differ,
    isFirst, isSecond⟩
  have sublist : (valuesBeforeColon (inside ++ closing :: after)).Sublist
      (valuesBeforeColon (before ++ opening :: (inside ++ closing :: after))) := by
    have whole := valuesBeforeColon_append (before ++ [opening]) (inside ++ closing :: after)
    rwa [List.append_assoc, List.singleton_append] at whole
  have distinctInside := distinct.sublist sublist
  have firstWhole := isFirst.before (closing :: after)
  have secondWhole := isSecond.before (closing :: after)
  rcases Nat.lt_trichotomy first.length second.length with shorter | same | longer
  · exact firstWhole.not_nodup shorter secondWhole distinctInside
  · obtain ⟨_, _, _, split, _⟩ := isFirst
    obtain ⟨_, _, _, secondSplit, _⟩ := isSecond
    exact differ (List.append_inj (split.symm.trans secondSplit) same).1
  · exact secondWhole.not_nodup longer firstWhole distinctInside

/-- Tokens in which keys stand outside all brackets, each with a colon after it and balanced tokens
up to the next key. -/
inductive HasKeys : List Token → List String → Prop where
  | nil {tokens : List Token} : Balanced tokens → HasKeys tokens []
  | cons {key colon : Token} {value rest : List Token} {keys : List String} :
      key.kind.isBracket = false → colon.kind = .colon → Balanced value → HasKeys rest keys →
      HasKeys (key :: colon :: (value ++ rest)) (key.value :: keys)

namespace HasKeys

variable {tokens : List Token} {keys : List String}

theorem balanced (hasKeys : HasKeys tokens keys) : Balanced tokens := by
  induction hasKeys with
  | nil balanced => exact balanced
  | cons isPlain isColon balancedValue _ inductionHypothesis =>
      exact .plain isPlain (.plain (by rw [isColon]; rfl) (balancedValue.append inductionHypothesis))

/-- A key stays one after balanced tokens. -/
theorem KeyAfter.after {before left : List Token} {value : String} (balanced : Balanced left)
    (isKey : KeyAfter before tokens value) : KeyAfter (left ++ before) (left ++ tokens) value := by
  obtain ⟨key, colon, rest, rfl, balancedBefore, isPlain, same, isColon⟩ := isKey
  exact ⟨key, colon, rest, by simp, balanced.append balancedBefore, isPlain, same, isColon⟩

theorem exists_keyAfter (hasKeys : HasKeys tokens keys) :
    ∀ value ∈ keys, ∃ before, KeyAfter before tokens value := by
  induction hasKeys with
  | nil => simp
  | @cons key colon value rest keys isPlain isColon balancedValue _ inductionHypothesis =>
      intro wanted member
      rcases List.mem_cons.1 member with rfl | later
      · exact ⟨[], key, colon, _, rfl, .nil, isPlain, rfl, isColon⟩
      · obtain ⟨before, isKey⟩ := inductionHypothesis wanted later
        have balanced : Balanced (key :: colon :: value) :=
          .plain isPlain (.plain (by rw [isColon]; rfl) balancedValue)
        exact ⟨_, KeyAfter.after balanced isKey⟩

/-- Keys that are not distinct stand at two places. -/
theorem exists_repeated (hasKeys : HasKeys tokens keys) (repeated : ¬ keys.Nodup) :
    ∃ first second value, first ≠ second ∧ KeyAfter first tokens value ∧
      KeyAfter second tokens value := by
  induction hasKeys with
  | nil => exact absurd List.nodup_nil repeated
  | @cons key colon value rest keys isPlain isColon balancedValue hasRest inductionHypothesis =>
      have balanced : Balanced (key :: colon :: value) :=
        .plain isPlain (.plain (by rw [isColon]; rfl) balancedValue)
      by_cases again : key.value ∈ keys
      · obtain ⟨before, isKey⟩ := hasRest.exists_keyAfter key.value again
        exact ⟨[], _, key.value, by simp, ⟨key, colon, _, rfl, .nil, isPlain, rfl, isColon⟩,
          KeyAfter.after balanced isKey⟩
      · have repeatedRest : ¬ keys.Nodup := fun distinct =>
          repeated (List.nodup_cons.2 ⟨again, distinct⟩)
        obtain ⟨first, second, text, differ, isFirst, isSecond⟩ := inductionHypothesis repeatedRest
        exact ⟨_, _, text, fun same => differ (List.append_cancel_left same),
          KeyAfter.after balanced isFirst, KeyAfter.after balanced isSecond⟩

end HasKeys

end AgentScript
