import AgentScript.Grammar.Forms
import Mathlib.Tactic.Common

/-!
Contract: the kinds of token that start or continue each form.

Owns:
- for every form that only one kind starts or continues, that kind;
- the kinds that continue a statement when they start a line.
-/

set_option autoImplicit false

namespace AgentScript

namespace Kind

variable {kind : Kind}

theorem operandForm?_eq_array_iff : kind.operandForm? = some .array ↔ kind = .openBracket := by
  cases kind <;> simp [operandForm?]

theorem operandForm?_eq_object_iff : kind.operandForm? = some .object ↔ kind = .openCurly := by
  cases kind <;> simp [operandForm?]

theorem infixForm?_eq_pipe_iff : kind.infixForm? = some .pipe ↔ kind = .pipe := by
  cases kind <;> simp [infixForm?]

theorem infixForm?_eq_call_iff : kind.infixForm? = some .call ↔ kind = .openParen := by
  cases kind <;> simp [infixForm?]

theorem infixForm?_eq_member_iff : kind.infixForm? = some .member ↔ kind = .dot := by
  cases kind <;> simp [infixForm?]

theorem infixForm?_eq_index_iff : kind.infixForm? = some .index ↔ kind = .openBracket := by
  cases kind <;> simp [infixForm?]

theorem statementForm?_eq_some_iff {form : StatementForm} :
    kind.statementForm? = some form ↔
      ∃ word, kind = .keyword word ∧ word.statementForm? = some form := by
  cases kind <;> simp [statementForm?]

end Kind

namespace Keyword

/-- The forms of statements that only one keyword starts. -/
def ofForm? : StatementForm → Option Keyword
  | .tool => some toolKw
  | .importNames => some importKw
  | .exported => some exportKw
  | .conditional => some ifKw
  | .whileLoop => some whileKw
  | .forOf => some forKw
  | .breakLoop => some breakKw
  | .continueLoop => some continueKw
  | .returnValue => some returnKw
  | .throwValue => some throwKw
  | .attempt => some tryKw
  | .config | .reserved => none

theorem eq_of_statementForm? {word only : Keyword} {form : StatementForm}
    (starts : word.statementForm? = some form) (onlyWord : ofForm? form = some only) :
    word = only := by
  cases word <;> cases starts <;> cases onlyWord <;> rfl

end Keyword

/-- The keyword that starts a statement of a form, for the forms that only one keyword starts. -/
theorem Kind.eq_of_statementForm? {kind : Kind} {only : Keyword} {form : StatementForm}
    (starts : kind.statementForm? = some form) (onlyWord : Keyword.ofForm? form = some only) :
    kind = .keyword only := by
  obtain ⟨word, rfl, startsWord⟩ := Kind.statementForm?_eq_some_iff.1 starts
  rw [Keyword.eq_of_statementForm? startsWord onlyWord]

/-- Whether a token of this kind continues the statement before it even if it starts a line. -/
def Kind.continuesStatement : Kind → Bool
  | pipe | nullish | or | and | equals | notEquals | less | lessEquals | greater | greaterEquals
  | plus | dash | star | slash | percent | dot | assign | colon
  | keyword .elseKw | keyword .catchKw | keyword .finallyKw => true
  | _ => false

section

variable {kind : Kind}

/-- A token that does not continue a statement binds to nothing before it, if it starts a line. -/
theorem Kind.power_of_not_continuesStatement (ends : kind.continuesStatement = false) :
    kind.power = .default ∨ kind.needsSameLine = true := by
  cases kind <;> first | exact .inl rfl | exact .inr rfl | cases ends

theorem Kind.noSign_of_not_continuesStatement (ends : kind.continuesStatement = false) :
    kind ≠ .assign ∧ kind ≠ .colon := by
  constructor <;>
    · rintro rfl
      cases ends

theorem Kind.not_continuesStatement_of_statementForm? (starts : kind.statementForm?.isSome = true) :
    kind.continuesStatement = false := by
  cases kind with
  | keyword word => cases word <;> first | rfl | cases starts
  | _ => cases starts

theorem Kind.not_continuesStatement_of_operandForm? (starts : kind.operandForm?.isSome = true)
    (noDash : kind ≠ .dash) : kind.continuesStatement = false := by
  cases kind with
  | dash => exact absurd rfl noDash
  | _ => first | rfl | cases starts

end

end AgentScript
