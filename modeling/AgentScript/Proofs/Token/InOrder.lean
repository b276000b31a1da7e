import AgentScript.Proofs.Token.Balanced

/-!
Contract: tokens whose brackets are closed in the order they were opened in, the last one first.

Owns:
- the brackets that such tokens leave open, taken token by token;
- that the brackets the parser keeps track of are these;
- that brackets further out do not matter to a token that closes none of them.
-/

set_option autoImplicit false

namespace AgentScript

/-- The open brackets after a token, if it closes no other bracket than the one opened last. -/
def Kind.bracketsInOrder? (kind : Kind) (openBrackets : List Kind) : Option (List Kind) :=
  if kind.isOpener then some (kind :: openBrackets)
  else match kind.opener?, openBrackets with
    | none, _ => some openBrackets
    | some _, [] => none
    | some opener, innermost :: outer => if innermost = opener then some outer else none

/-- The brackets that tokens leave open, if each closing one answers the bracket opened last. -/
def leftOpen? (openBrackets : List Kind) : List Token → Option (List Kind)
  | [] => some openBrackets
  | token :: rest =>
      (token.kind.bracketsInOrder? openBrackets).bind fun after => leftOpen? after rest

namespace Kind

variable {kind : Kind} {openBrackets after : List Kind}

theorem bracketsInOrder?_of_opener (isOpener : kind.isOpener = true) :
    kind.bracketsInOrder? openBrackets = some (kind :: openBrackets) := by
  simp [bracketsInOrder?, isOpener]

theorem bracketsInOrder?_of_plain (isPlain : kind.isBracket = false) :
    kind.bracketsInOrder? openBrackets = some openBrackets := by
  obtain ⟨noOpener, noCloser⟩ := Bool.or_eq_false_iff.1 isPlain
  have none : kind.opener? = none := by simpa using noCloser
  simp [bracketsInOrder?, noOpener, none]

theorem isOpener_eq_false_of_opener? {opener : Kind} (answers : kind.opener? = some opener) :
    kind.isOpener = false := by
  cases kind <;> first | rfl | cases answers

theorem bracketsInOrder?_of_closing {opener : Kind} (answers : kind.opener? = some opener) :
    kind.bracketsInOrder? openBrackets = some after ↔ openBrackets = opener :: after := by
  have noOpener := isOpener_eq_false_of_opener? answers
  cases openBrackets with
  | nil => simp [bracketsInOrder?, noOpener, answers]
  | cons innermost outer => simp [bracketsInOrder?, noOpener, answers]

/-- A token is no bracket, opens one, or closes one. -/
theorem bracket_cases (kind : Kind) :
    kind.isBracket = false ∨ kind.isOpener = true ∨ ∃ opener, kind.opener? = some opener := by
  cases kind <;> simp [isBracket, isOpener, opener?]

/-- The open brackets that are kept track of are those of brackets closed in order. -/
theorem bracketsAfter_eq (inOrder : kind.bracketsInOrder? openBrackets = some after) :
    kind.bracketsAfter openBrackets = after := by
  obtain isPlain | isOpener | ⟨opener, answers⟩ := kind.bracket_cases
  · obtain ⟨noOpener, noCloser⟩ := Bool.or_eq_false_iff.1 isPlain
    have none : kind.opener? = none := by simpa using noCloser
    rw [bracketsInOrder?_of_plain isPlain, Option.some.injEq] at inOrder
    simp [bracketsAfter, noOpener, none, inOrder]
  · rw [bracketsInOrder?_of_opener isOpener, Option.some.injEq] at inOrder
    simp [bracketsAfter, isOpener, inOrder]
  · rw [bracketsInOrder?_of_closing answers] at inOrder
    simp [bracketsAfter, isOpener_eq_false_of_opener? answers, answers, inOrder,
      Balanced.closeInnermost_cons]

/-- Brackets further out do not matter to a token that closes none of them. -/
theorem bracketsInOrder?_append (outer : List Kind)
    (inOrder : kind.bracketsInOrder? openBrackets = some after) :
    kind.bracketsInOrder? (openBrackets ++ outer) = some (after ++ outer) := by
  obtain isPlain | isOpener | ⟨opener, answers⟩ := kind.bracket_cases
  · rw [bracketsInOrder?_of_plain isPlain, Option.some.injEq] at inOrder ⊢
    rw [inOrder]
  · rw [bracketsInOrder?_of_opener isOpener, Option.some.injEq] at inOrder ⊢
    rw [← inOrder, List.cons_append]
  · rw [bracketsInOrder?_of_closing answers] at inOrder ⊢
    rw [inOrder, List.cons_append]

end Kind

section

variable {openBrackets after left : List Kind} {token : Token} {tokens : List Token}

theorem leftOpen?_cons_eq_some_iff :
    leftOpen? openBrackets (token :: tokens) = some left ↔
      ∃ after, token.kind.bracketsInOrder? openBrackets = some after ∧
        leftOpen? after tokens = some left :=
  Option.bind_eq_some_iff

theorem leftOpen?_append (first second : List Token) :
    leftOpen? openBrackets (first ++ second) =
      (leftOpen? openBrackets first).bind fun after => leftOpen? after second := by
  induction first generalizing openBrackets with
  | nil => rfl
  | cons token first inductionHypothesis =>
      rw [List.cons_append, leftOpen?, leftOpen?, Option.bind_assoc]
      exact Option.bind_congr fun after _ => inductionHypothesis

end

end AgentScript
