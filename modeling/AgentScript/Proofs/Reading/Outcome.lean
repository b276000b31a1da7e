import AgentScript.Grammar.Production
import Mathlib.Tactic.Common

/-!
Contract: what the steps that all productions are made of give, and when they succeed.

Owns: one equation for each step in front of a continuation, and one equivalence for the success of
each step that can fail.
-/

set_option autoImplicit false

namespace AgentScript.Production

variable {α β : Type} {state after : State}

section

variable {production : Production α} {next : α → Production β}

theorem bind_run_of_ok {first : α} {middle : State} (read : production state = .ok first middle) :
    (production >>= next) state = next first middle := by
  change EStateM.bind production next state = _
  unfold EStateM.bind
  rw [read]

theorem bind_run_of_error {diagnostic : Diagnostic} {failed : State}
    (read : production state = .error diagnostic failed) :
    (production >>= next) state = .error diagnostic failed := by
  change EStateM.bind production next state = _
  unfold EStateM.bind
  rw [read]

/-- What follows a production depends on its result alone. -/
theorem bind_run_congr {other : Production α} {elsewhere : State}
    (same : production state = other elsewhere) :
    (production >>= next) state = (other >>= next) elsewhere := by
  cases read : other elsewhere with
  | ok first middle => rw [bind_run_of_ok (same.trans read), bind_run_of_ok read]
  | error diagnostic failed => rw [bind_run_of_error (same.trans read), bind_run_of_error read]

end

theorem bind_ok_iff {production : Production α} {next : α → Production β} {value : β} :
    (production >>= next) state = .ok value after ↔
      ∃ first middle, production state = .ok first middle ∧ next first middle = .ok value after := by
  cases read : production state with
  | ok first middle => simp [bind_run_of_ok read]
  | error diagnostic failed => simp [bind_run_of_error read]

/-- The same for a production that is given, to rewrite one step and no other. -/
theorem step_ok_iff (production : Production α) {next : α → Production β} {value : β} :
    (production >>= next) state = .ok value after ↔
      ∃ first middle, production state = .ok first middle ∧ next first middle = .ok value after :=
  bind_ok_iff

theorem bind_pure_ok_iff {production : Production α} {finish : α → β} {value : β} :
    (production >>= fun first => pure (finish first)) state = .ok value after ↔
      ∃ first, production state = .ok first after ∧ finish first = value := by
  rw [bind_ok_iff]
  constructor
  · rintro ⟨first, _, read, ⟨⟩⟩
    exact ⟨first, read, rfl⟩
  · rintro ⟨first, read, rfl⟩
    exact ⟨first, after, read, rfl⟩

@[simp] theorem pure_run (value : α) : (pure value : Production α) state = .ok value state := rfl

@[simp] theorem throw_run (diagnostic : Diagnostic) :
    (throw diagnostic : Production α) state = .error diagnostic state := rfl

@[simp] theorem take_run : take state = .ok state.current state.advance := rfl

@[simp] theorem currentKind_run : currentKind state = .ok state.kind state := rfl

@[simp] theorem failHere_run (fault : Fault) :
    (failHere fault : Production α) state = .error (state.faultHere fault) state := rfl

@[simp] theorem failUnexpected_run (expected : String) :
    (failUnexpected expected : Production α) state = .error (state.unexpected expected) state := rfl

@[simp] theorem tooDeep_run :
    (tooDeep : Production α) state =
      .error (state.faultHere (.nestingTooDeep maxNesting)) state := rfl

@[simp] theorem take_bind (next : Token → Production β) :
    (take >>= next) state = next state.current state.advance := rfl

@[simp] theorem currentKind_bind (next : Kind → Production β) :
    (currentKind >>= next) state = next state.kind state := rfl

@[simp] theorem get_bind (next : State → Production β) :
    ((get : Production State) >>= next) state = next state state := rfl

@[simp] theorem pure_bind_run (value : α) (next : α → Production β) :
    ((pure value : Production α) >>= next) state = next value state := rfl

theorem ite_run (condition : Prop) [Decidable condition] (yes no : Production α) :
    (if condition then yes else no) state = if condition then yes state else no state := by
  split <;> rfl

theorem expectAs_run (kind : Kind) (expected : String) :
    expectAs kind expected state =
      if state.kind = kind then .ok state.current state.advance
      else .error (state.unexpected expected) state := by
  unfold expectAs
  rw [currentKind_bind, ite_run]
  rfl

theorem expectAs_ok_iff {kind : Kind} {expected : String} {token : Token} :
    expectAs kind expected state = .ok token after ↔
      state.kind = kind ∧ state.current = token ∧ state.advance = after := by
  rw [expectAs_run]
  split <;> simp [*]

/-- The success of a step that passes a token, with what follows it. -/
theorem expectAs_bind_ok_iff {kind : Kind} {expected : String} {next : Token → Production β}
    {value : β} :
    (expectAs kind expected >>= next) state = .ok value after ↔
      state.kind = kind ∧ next state.current state.advance = .ok value after := by
  simp only [bind_ok_iff, expectAs_ok_iff]
  constructor
  · rintro ⟨_, _, ⟨kind_eq, rfl, rfl⟩, rest⟩
    exact ⟨kind_eq, rest⟩
  · rintro ⟨kind_eq, rest⟩
    exact ⟨_, _, ⟨kind_eq, rfl, rfl⟩, rest⟩

theorem expect_bind_ok_iff {kind : Kind} {next : Token → Production β} {value : β} :
    (expect kind >>= next) state = .ok value after ↔
      state.kind = kind ∧ next state.current state.advance = .ok value after :=
  expectAs_bind_ok_iff

theorem passIf_run (kind : Kind) :
    passIf kind state = .ok () (if state.kind = kind then state.advance else state) := by
  unfold passIf
  rw [currentKind_bind, ite_run]
  split <;> rfl

theorem after?_ok_iff {kind : Kind} {production : Production α} {value : Option α} :
    after? kind production state = .ok value after ↔
      (state.kind = kind ∧ ∃ read, production state.advance = .ok read after ∧ some read = value) ∨
        (state.kind ≠ kind ∧ none = value ∧ state = after) := by
  unfold after?
  rw [currentKind_bind, ite_run]
  split
  · next here =>
      rw [take_bind, bind_pure_ok_iff]
      simp [here]
  · next elsewhere => simp [elsewhere]

theorem deeper_ok_iff {production : Production α} {value : α} :
    deeper production state = .ok value after ↔
      ∃ inside, production { state with nesting := state.nesting + 1 } = .ok value inside ∧
        { inside with nesting := inside.nesting - 1 } = after := by
  unfold deeper
  cases production { state with nesting := state.nesting + 1 } with
  | ok read inside => simp
  | error diagnostic failed => simp

end AgentScript.Production
