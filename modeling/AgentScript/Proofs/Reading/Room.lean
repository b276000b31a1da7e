import AgentScript.Proofs.Diagnostic.Text
import AgentScript.Proofs.Reading.Progress.Productions

/-!
Contract: reading as far as the room for nesting suffices.

Owns:
- outcomes that report too deep a nesting, and that nothing takes such a report back;
- productions that read what they should exactly if it fits, and report too deep a nesting if it
  does not, and the ways in which such productions are put together.
-/

set_option autoImplicit false

namespace AgentScript

/-! ## Reports of too deep a nesting -/

def Sink.HoldsTooDeep (sink : Sink) : Prop := ∃ entry ∈ sink.entries, entry.IsTooDeep

theorem Sink.holdsTooDeep_push {sink : Sink} {diagnostic : Diagnostic}
    (tooDeep : diagnostic.IsTooDeep) : (sink.push diagnostic).HoldsTooDeep := by
  unfold Sink.push
  split
  · next holds =>
      obtain ⟨entry, member, same⟩ := List.any_eq_true.1 holds
      exact ⟨entry, member, tooDeep.of_text_eq (of_decide_eq_true same)⟩
  · exact ⟨diagnostic, by simp, tooDeep⟩

theorem State.Reaches.holdsTooDeep {start state : State} (course : start.Reaches state)
    (tooDeep : start.sink.HoldsTooDeep) : state.sink.HoldsTooDeep := by
  obtain ⟨entry, member, isTooDeep⟩ := tooDeep
  exact ⟨entry, course.sink_prefix.subset member, isTooDeep⟩

namespace Production

variable {α β : Type}

/-- Too deep a nesting is reported, or makes the production fail. -/
def IsTooDeep : EStateM.Result Diagnostic State α → Prop
  | .ok _ after => after.sink.HoldsTooDeep
  | .error diagnostic failed => diagnostic.IsTooDeep ∨ failed.sink.HoldsTooDeep

theorem isTooDeep_bind {production : Production α} {next : α → Production β} {state : State}
    (tooDeep : IsTooDeep (production state)) (proceeds : ∀ value, (next value).Proceeds) :
    IsTooDeep ((production >>= next) state) := by
  cases result : production state with
  | error diagnostic failed =>
      rw [result] at tooDeep
      rw [bind_run_of_error result]
      exact tooDeep
  | ok value middle =>
      rw [result] at tooDeep
      rw [bind_run_of_ok result]
      have course := proceeds value middle
      change IsTooDeep (next value middle)
      generalize next value middle = outcome at course
      cases outcome with
      | ok read after => exact course.holdsTooDeep tooDeep
      | error diagnostic failed => exact .inr (course.holdsTooDeep tooDeep)

theorem isTooDeep_deeper {production : Production α} {state : State}
    (tooDeep : IsTooDeep (production { state with nesting := state.nesting + 1 })) :
    IsTooDeep (deeper production state) := by
  unfold deeper
  cases result : production { state with nesting := state.nesting + 1 } <;> rwa [result] at tooDeep

/-- Too deep a nesting that a statement reports remains reported after the list. -/
theorem statementsWithin_holdsTooDeep {statement : Production Stmt}
    {inBlock : Bool} {state : State} (proceeds : statement.Proceeds)
    (isOpen : endsStatements inBlock state.kind = false) (noSemicolon : state.kind ≠ .semicolon)
    (tooDeep : IsTooDeep (statement state)) (last : Lexed) (bound : List Lexed) :
    (statementsWithin inBlock statement (last :: bound) state).2.sink.HoldsTooDeep := by
  rw [statementsWithin, if_neg (by simp [isOpen]), if_neg noSemicolon]
  cases result : statement state with
  | ok first after =>
      rw [result] at tooDeep
      exact ((State.Reaches.checkSeparated inBlock after).trans
        (State.Reaches.statementsWithin proceeds inBlock bound _)).holdsTooDeep tooDeep
  | error diagnostic failed =>
      rw [result] at tooDeep
      refine ((State.Reaches.recover state (failed.report_sink_ne_empty _)).trans
        (State.Reaches.statementsWithin proceeds inBlock bound _)).holdsTooDeep ?_
      rcases tooDeep with isTooDeep | holds
      · exact Sink.holdsTooDeep_push isTooDeep
      · exact ((State.Reaches.refl failed).report diagnostic).holdsTooDeep holds

/-! ## Productions that read what fits -/

section

variable {production : Production α} {state : State} {fits : Prop} {good : α → State → Prop}

/-- A production reads a good value if that fits, and reports too deep a nesting if it does not. -/
def Yields (production : Production α) (state : State) (fits : Prop)
    (good : α → State → Prop) : Prop :=
  (fits ∧ ∃ value after, production state = .ok value after ∧ good value after) ∨
    (¬ fits ∧ IsTooDeep (production state))

theorem yields_of_ok {value : α} {after : State} (read : production state = .ok value after)
    (isGood : good value after) : production.Yields state True good :=
  .inl ⟨trivial, value, after, read, isGood⟩

theorem yields_pure {value : α} (isGood : good value state) :
    (pure value : Production α).Yields state True good :=
  yields_of_ok rfl isGood

theorem yields_tooDeep : (tooDeep : Production α).Yields state False good :=
  .inr ⟨id, .inl ⟨maxNesting, rfl⟩⟩

theorem Yields.of_iff {fitsToo : Prop} (yields : production.Yields state fits good)
    (same : fits ↔ fitsToo) : production.Yields state fitsToo good := by
  rwa [← propext same]

/-- A production that gives the outcome of another yields the same. -/
theorem Yields.congr {other : Production α} {before : State}
    (yields : production.Yields state fits good) (same : other before = production state) :
    other.Yields before fits good := by
  unfold Yields
  rwa [same]

theorem Yields.imp {goodToo : α → State → Prop} (yields : production.Yields state fits good)
    (implies : ∀ value after, good value after → goodToo value after) :
    production.Yields state fits goodToo :=
  Or.imp_left (fun ⟨doesFit, value, after, read, isGood⟩ =>
    ⟨doesFit, value, after, read, implies value after isGood⟩) yields

theorem Yields.bind {next : α → Production β} {fitsNext : Prop} {goodNext : β → State → Prop}
    (first : production.Yields state fits good) (proceeds : ∀ value, (next value).Proceeds)
    (second : fits → ∀ value after, good value after →
      (next value).Yields after fitsNext goodNext) :
    (production >>= next).Yields state (fits ∧ fitsNext) goodNext := by
  obtain ⟨doesFit, value, middle, read, isGood⟩ | ⟨tooMuch, tooDeep⟩ := first
  · exact ((second doesFit value middle isGood).congr (bind_run_of_ok read)).of_iff
      (and_iff_right doesFit).symm
  · exact .inr ⟨fun both => tooMuch both.1, isTooDeep_bind tooDeep proceeds⟩

theorem Yields.deeper (yields : production.Yields { state with nesting := state.nesting + 1 } fits
    fun value inside => good value { inside with nesting := inside.nesting - 1 }) :
    (deeper production).Yields state fits good :=
  Or.imp (fun ⟨doesFit, value, inside, read, isGood⟩ =>
      ⟨doesFit, value, _, deeper_ok_iff.2 ⟨inside, read, rfl⟩, isGood⟩)
    (And.imp_right isTooDeep_deeper) yields

end

end Production

end AgentScript
