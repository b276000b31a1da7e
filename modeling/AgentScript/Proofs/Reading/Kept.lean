import AgentScript.Proofs.Reading.Succession
import AgentScript.Proofs.Token.Balanced
import AgentScript.Proofs.Tree.Content

/-!
Contract: tokens passed between two states, and the values that are kept of them.

Owns:
- the kinds of tokens that forms are made of;
- the passed tokens of a reading without diagnostics: they are balanced and of such kinds, and unless
  a key is repeated among them their values are the given ones;
- the ways in which such readings are put together: one after the other, in brackets, in lists;
- productions that keep the values of all tokens they pass.
-/

set_option autoImplicit false

namespace AgentScript

/-- The text of a current token whose kind has only one. -/
theorem State.Scanned.current_value {state : State} (scanned : state.Scanned) {kind : Kind}
    {text : String} (kind_eq : state.kind = kind) (only : kind.fixedText? = some text) :
    state.current.value = text := by
  have token : state.kind ≠ .endOfInput := by
    rw [kind_eq]
    rintro rfl
    cases only
  exact (scanned.current_wellSpelled token).eq_of_fixedText? (by rw [← only, ← kind_eq]; rfl)

/-- Whether forms are made of tokens of this kind, among others. -/
def Kind.inForms : Kind → Bool
  | .illegal | .endOfInput | .comment | .semicolon => false
  | _ => true

theorem Kind.ne_endOfInput_of_inForms {kind : Kind} (inForms : kind.inForms = true) :
    kind ≠ .endOfInput := by
  rintro rfl
  cases inForms

theorem Kind.inForms_of_isBracket {kind : Kind} (isBracket : kind.isBracket = true) :
    kind.inForms = true := by
  cases kind <;> first | rfl | cases isBracket

theorem Kind.inForms_of_namesMember {kind : Kind} (names : kind.namesMember = true) :
    kind.inForms = true := by
  cases kind <;> first | rfl | cases names

/-- The tokens between two states are balanced, forms are made of them, and they have the given
values, parentheses and commas left out. The values are not claimed where a key is repeated, as only
one of its values is kept. -/
def State.Keeps (state after : State) (content : List String) : Prop :=
  ∃ used, state.upcoming.map Lexed.token = used ++ after.upcoming.map Lexed.token ∧
    Balanced used ∧ (∀ token ∈ used, token.kind.inForms = true) ∧
    (¬ RepeatsKey used → contentOf used = content)

namespace State.Keeps

variable {state middle before after : State} {left right content : List String}

theorem refl (state : State) : state.Keeps state [] := ⟨[], rfl, .nil, by simp, fun _ => rfl⟩

theorem trans (first : state.Keeps middle left) (second : middle.Keeps after right) :
    state.Keeps after (left ++ right) := by
  obtain ⟨usedLeft, aheadLeft, balancedLeft, formsLeft, sameLeft⟩ := first
  obtain ⟨usedRight, aheadRight, balancedRight, formsRight, sameRight⟩ := second
  refine ⟨usedLeft ++ usedRight, ?_, balancedLeft.append balancedRight,
    List.forall_mem_append.2 ⟨formsLeft, formsRight⟩, fun distinct => ?_⟩
  · rw [aheadLeft, aheadRight, List.append_assoc]
  · have noLeft : ¬ RepeatsKey usedLeft := fun repeats => distinct (repeats.within [] usedRight)
    have noRight : ¬ RepeatsKey usedRight := fun repeats => by
      have whole := repeats.within usedLeft []
      rw [List.append_nil] at whole
      exact distinct whole
    rw [contentOf_append, sameLeft noLeft, sameRight noRight]

theorem ahead_eq (scanned : state.Scanned) (token : state.kind ≠ .endOfInput) :
    state.upcoming.map Lexed.token = [state.current] ++ state.advance.upcoming.map Lexed.token := by
  obtain ⟨lexed, ahead, current⟩ := scanned.exists_current token
  rw [ahead, List.map_cons, current]
  rfl

/-- One token that is no bracket. -/
theorem advance (scanned : state.Scanned) (inForms : state.kind.inForms = true)
    (isPlain : state.kind.isBracket = false) :
    state.Keeps state.advance (contentOf [state.current]) :=
  ⟨[state.current], ahead_eq scanned (Kind.ne_endOfInput_of_inForms inForms), .singleton isPlain,
    List.forall_mem_singleton.2 inForms, fun _ => rfl⟩

/-- One token that stays, and is no bracket. -/
theorem passed (scanned : state.Scanned) (isPlain : state.kind.isBracket = false)
    (inForms : state.kind.inForms = true) (isContent : state.kind.isContent = true) :
    state.Keeps state.advance [state.current.value] := by
  have keeps := advance scanned inForms isPlain
  have one : contentOf [state.current] = [state.current.value] := by
    rw [contentOf_cons, ← State.kind, isContent]
    rfl
  rwa [one] at keeps

/-- A name. -/
theorem name (scanned : state.Scanned) (identifier : state.kind = .identifier) :
    state.Keeps state.advance [state.current.value] :=
  passed scanned (by rw [identifier]; rfl) (by rw [identifier]; rfl) (by rw [identifier]; rfl)

/-- A token of a kind that has only one text. -/
theorem fixed (scanned : state.Scanned) {kind : Kind} {text : String} (kind_eq : state.kind = kind)
    (only : kind.fixedText? = some text) (isPlain : kind.isBracket = false)
    (inForms : kind.inForms = true) (isContent : kind.isContent = true) :
    state.Keeps state.advance [text] := by
  rw [← scanned.current_value kind_eq only]
  exact passed scanned (by rw [kind_eq, isPlain]) (by rw [kind_eq, inForms])
    (by rw [kind_eq, isContent])

/-- A comma between items. -/
theorem comma (scanned : state.Scanned) (kind : state.kind = .comma) :
    state.Keeps state.advance [] := by
  have keeps := advance scanned (by rw [kind]; rfl) (by rw [kind]; rfl)
  have none : contentOf [state.current] = [] := by
    have kind' : state.current.kind = .comma := kind
    rw [contentOf_cons, kind']
    rfl
  rwa [none] at keeps

/-- The brackets around balanced tokens. -/
theorem enclosed (scanned : state.Scanned) (beforeScanned : before.Scanned) {opener closer : Kind}
    (opens : state.kind = opener) (closes : before.kind = closer) (isOpener : opener.isOpener = true)
    (answers : closer.opener? = some opener) (keeps : state.advance.Keeps before content) :
    state.Keeps before.advance
      (contentOf [state.current] ++ content ++ contentOf [before.current]) := by
  obtain ⟨used, ahead, balanced, forms, same⟩ := keeps
  have opening : state.kind.inForms = true :=
    Kind.inForms_of_isBracket (by rw [opens, Kind.isBracket, isOpener, Bool.true_or])
  have closing : before.kind.inForms = true :=
    Kind.inForms_of_isBracket (by rw [closes, Kind.isBracket, answers, Option.isSome_some, Bool.or_true])
  refine ⟨state.current :: (used ++ [before.current]), ?_, ?_, ?_, fun distinct => ?_⟩
  · rw [ahead_eq scanned (Kind.ne_endOfInput_of_inForms opening), ahead,
      ahead_eq beforeScanned (Kind.ne_endOfInput_of_inForms closing)]
    simp
  · refine balanced.enclosed (by rw [← State.kind, opens, isOpener]) ?_
    rw [← State.kind, ← State.kind, opens, closes, answers]
  · exact List.forall_mem_cons.2 ⟨opening,
      List.forall_mem_append.2 ⟨forms, List.forall_mem_singleton.2 closing⟩⟩
  · have within : ¬ RepeatsKey used := fun repeats => distinct (repeats.within [_] [_])
    have split : state.current :: (used ++ [before.current]) =
        [state.current] ++ used ++ [before.current] := by simp
    rw [split, contentOf_append, contentOf_append, same within]

/-- Parentheses are left out. -/
theorem inParens (scanned : state.Scanned) (beforeScanned : before.Scanned)
    (opens : state.kind = .openParen) (closes : before.kind = .closeParen)
    (keeps : state.advance.Keeps before content) : state.Keeps before.advance content := by
  have whole := enclosed scanned beforeScanned opens closes rfl rfl keeps
  have opening : state.current.kind = .openParen := opens
  have closing : before.current.kind = .closeParen := closes
  simpa [contentOf_cons, opening, closing, Kind.isContent] using whole

theorem inBrackets (scanned : state.Scanned) (beforeScanned : before.Scanned)
    (opens : state.kind = .openBracket) (closes : before.kind = .closeBracket)
    (keeps : state.advance.Keeps before content) :
    state.Keeps before.advance ("[" :: content ++ ["]"]) := by
  have whole := enclosed scanned beforeScanned opens closes rfl rfl keeps
  have opening : state.current.kind = .openBracket := opens
  have closing : before.current.kind = .closeBracket := closes
  simpa [contentOf_cons, opening, closing, Kind.isContent, scanned.current_value opens rfl,
    beforeScanned.current_value closes rfl] using whole

theorem inCurly (scanned : state.Scanned) (beforeScanned : before.Scanned)
    (opens : state.kind = .openCurly) (closes : before.kind = .closeCurly)
    (keeps : state.advance.Keeps before content) :
    state.Keeps before.advance ("\x7b" :: content ++ ["\x7d"]) := by
  have whole := enclosed scanned beforeScanned opens closes rfl rfl keeps
  have opening : state.current.kind = .openCurly := opens
  have closing : before.current.kind = .closeCurly := closes
  simpa [contentOf_cons, opening, closing, Kind.isContent, scanned.current_value opens rfl,
    beforeScanned.current_value closes rfl] using whole

end State.Keeps

end AgentScript
