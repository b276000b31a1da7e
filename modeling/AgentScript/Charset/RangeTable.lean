/-!
Contract: sets of characters given by their code point ranges.

Owns: membership in a table of ranges, and what it means for a table to be in order.
-/

set_option autoImplicit false

namespace AgentScript

/-- Closed ranges of code points, in ascending order. -/
abbrev RangeTable := List (Nat × Nat)

namespace RangeTable

/-- Whether a range of the table holds the number. The search ends at the first range that
starts above it, which is right for a table in order. -/
def covers : RangeTable → Nat → Bool
  | [], _ => false
  | (low, high) :: rest, code =>
      if code < low then false
      else if code ≤ high then true
      else covers rest code

/-- Whether every range starts at or after `floor` and above the end of the one before it. -/
def orderedFrom : Nat → RangeTable → Bool
  | _, [] => true
  | floor, (low, high) :: rest => floor ≤ low && low ≤ high && orderedFrom (high + 1) rest

private theorem floor_le_of_ordered {floor : Nat} {table : RangeTable}
    (ordered : orderedFrom floor table = true) {range : Nat × Nat} (member : range ∈ table) :
    floor ≤ range.1 := by
  induction table generalizing floor with
  | nil => simp at member
  | cons head tail inductionHypothesis =>
      simp only [orderedFrom, Bool.and_eq_true, decide_eq_true_eq] at ordered
      rcases List.mem_cons.1 member with rfl | inTail
      · exact ordered.1.1
      · have := inductionHypothesis ordered.2 inTail
        omega

/-- In a table in order, the early stop loses nothing. -/
theorem covers_iff_of_ordered {floor : Nat} {table : RangeTable}
    (ordered : orderedFrom floor table = true) (code : Nat) :
    covers table code = true ↔ ∃ range ∈ table, range.1 ≤ code ∧ code ≤ range.2 := by
  induction table generalizing floor with
  | nil => simp [covers]
  | cons range rest inductionHypothesis =>
      obtain ⟨low, high⟩ := range
      simp only [orderedFrom, Bool.and_eq_true, decide_eq_true_eq] at ordered
      obtain ⟨⟨_, lowLe⟩, restOrdered⟩ := ordered
      have fromRest := inductionHypothesis restOrdered
      simp only [List.mem_cons, or_and_right, exists_or, exists_eq_left, covers]
      split
      · next below =>
          simp only [Bool.false_eq_true, false_iff]
          rintro (⟨fits, _⟩ | ⟨range, member, fits, _⟩)
          · omega
          · have := floor_le_of_ordered restOrdered member
            omega
      · next notBelow =>
          split
          · next inside => exact iff_of_true rfl (.inl ⟨by omega, inside⟩)
          · next notInside =>
              rw [fromRest]
              exact ⟨.inr, fun found => found.resolve_left fun here => notInside here.2⟩

end RangeTable

end AgentScript
