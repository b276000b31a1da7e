import AgentScript.Proofs.Diagnostic.Text

/-!
Contract: diagnostics moved to other positions.

Owns:
- the replacement of every position that a diagnostic names;
- that a sink records moved diagnostics as it records the diagnostics themselves, as long as no two
  positions are moved to the same one.
-/

set_option autoImplicit false

namespace AgentScript

/-- The fault with another position in the place of the one it names, if it names one. -/
def Fault.moved (move : Position → Position) : Fault → Fault
  | unterminatedLiteral form start => unterminatedLiteral form (move start)
  | fault => fault

def Diagnostic.moved (move : Position → Position) (diagnostic : Diagnostic) : Diagnostic :=
  ⟨diagnostic.fault.moved move, move diagnostic.position⟩

def Sink.moved (move : Position → Position) (sink : Sink) : Sink :=
  ⟨sink.entries.map (Diagnostic.moved move)⟩

section

variable {move : Position → Position}

theorem Diagnostic.wording_moved (diagnostic : Diagnostic) :
    (diagnostic.moved move).wording = diagnostic.wording := by
  obtain ⟨fault, position⟩ := diagnostic
  cases fault <;> rfl

theorem Diagnostic.place_moved (diagnostic : Diagnostic) :
    (diagnostic.moved move).place = move diagnostic.place := by
  obtain ⟨fault, position⟩ := diagnostic
  cases fault <;> rfl

/-- Diagnostics have the same text before a move if they have it after the move. -/
theorem Diagnostic.text_moved_iff (injective : Function.Injective move) {left right : Diagnostic} :
    (left.moved move).text = (right.moved move).text ↔ left.text = right.text := by
  rw [text_eq_iff, text_eq_iff, wording_moved, wording_moved, place_moved, place_moved,
    injective.eq_iff]

namespace Sink

theorem holds_moved (injective : Function.Injective move) (sink : Sink) (diagnostic : Diagnostic) :
    (sink.moved move).holds (diagnostic.moved move) = sink.holds diagnostic := by
  unfold holds moved
  rw [List.any_map]
  refine List.any_congr rfl fun entry => ?_
  simp only [Function.comp_apply, Diagnostic.text_moved_iff injective]

theorem push_moved (injective : Function.Injective move) (sink : Sink) (diagnostic : Diagnostic) :
    (sink.moved move).push (diagnostic.moved move) = (sink.push diagnostic).moved move := by
  unfold push
  rw [holds_moved injective]
  split
  · rfl
  · simp [moved]

theorem pushAll_moved (injective : Function.Injective move) (sink : Sink)
    (diagnostics : List Diagnostic) :
    (sink.moved move).pushAll (diagnostics.map (Diagnostic.moved move)) =
      (sink.pushAll diagnostics).moved move := by
  unfold pushAll
  induction diagnostics generalizing sink with
  | nil => rfl
  | cons first rest inductionHypothesis =>
      rw [List.map_cons, List.foldl_cons, List.foldl_cons, push_moved injective]
      exact inductionHypothesis (sink.push first)

end Sink

end

end AgentScript
