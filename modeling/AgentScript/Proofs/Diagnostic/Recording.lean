import AgentScript.Proofs.Diagnostic.Recorded
import Mathlib.Data.List.Induction

/-!
Contract: a sequence of diagnostics recorded in one sink, with an answer for each.

Owns:
- the sequence as a run of recordings, which leaves the sink that holds them all;
- the answers and the entries of a new sink, told from the sequence alone: what is recorded is what
  no earlier diagnostic has the text of;
- that recording any of the sequence again changes nothing.
-/

set_option autoImplicit false

namespace AgentScript

/-- Whether no diagnostic of a sequence before the given place has the text of this one. -/
def isNews (diagnostics : List Diagnostic) (placed : Diagnostic × Nat) : Bool :=
  (diagnostics.take placed.2).all fun earlier => earlier.text ≠ placed.1.text

namespace Sink

/-- Records diagnostics one after the other, and tells of each whether it was recorded. -/
def recordAll (sink : Sink) : List Diagnostic → List Bool × Sink
  | [] => ([], sink)
  | first :: rest =>
      let (recorded, after) := sink.record first
      let (answers, final) := after.recordAll rest
      (recorded :: answers, final)

variable {diagnostics : List Diagnostic} {diagnostic : Diagnostic}

theorem recordAll_append (sink : Sink) (first second : List Diagnostic) :
    sink.recordAll (first ++ second) =
      ((sink.recordAll first).1 ++ ((sink.recordAll first).2.recordAll second).1,
        ((sink.recordAll first).2.recordAll second).2) := by
  induction first generalizing sink with
  | nil => rfl
  | cons head first inductionHypothesis =>
      simp only [List.cons_append, recordAll, inductionHypothesis]

theorem recordAll_snd (sink : Sink) (diagnostics : List Diagnostic) :
    (sink.recordAll diagnostics).2 = sink.pushAll diagnostics := by
  induction diagnostics generalizing sink with
  | nil => rfl
  | cons first rest inductionHypothesis => exact inductionHypothesis (sink.push first)

/-- A new sink holds the texts of what it recorded, and no others. -/
theorem holds_recordAll (diagnostics : List Diagnostic) (diagnostic : Diagnostic) :
    (Sink.empty.recordAll diagnostics).2.holds diagnostic =
      diagnostics.any fun recorded => recorded.text = diagnostic.text := by
  rw [recordAll_snd, Bool.eq_iff_iff, holds_iff, List.any_eq_true]
  constructor
  · rintro ⟨entry, member, same⟩
    exact ⟨entry, (mem_pushAll member).resolve_left List.not_mem_nil, by simpa using same⟩
  · rintro ⟨recorded, member, same⟩
    obtain ⟨entry, inEntries, sameEntry⟩ := holds_iff.1 (holds_pushAll Sink.empty member)
    exact ⟨entry, inEntries, sameEntry.trans (by simpa using same)⟩

/-- The answers, and the entries in order, told from the sequence alone. -/
theorem recordAll_empty (diagnostics : List Diagnostic) :
    Sink.empty.recordAll diagnostics =
      (diagnostics.zipIdx.map (isNews diagnostics),
        ⟨(diagnostics.zipIdx.filter (isNews diagnostics)).map Prod.fst⟩) := by
  -- from the end of the sequence, as what is news depends on what comes before
  induction diagnostics using List.reverseRecOn with
  | nil => rfl
  | append_singleton before last inductionHypothesis =>
      have newsBefore : ∀ placed ∈ before.zipIdx,
          isNews (before ++ [last]) placed = isNews before placed := by
        intro placed member
        have inside := List.snd_lt_of_mem_zipIdx member
        unfold isNews
        rw [List.take_append_of_le_length (by omega)]
      have newsLast : isNews (before ++ [last]) (last, before.length) =
          !(Sink.empty.recordAll before).2.holds last := by
        simp [isNews, holds_recordAll, List.not_any_eq_all_not]
      rw [recordAll_append, List.zipIdx_append, List.map_append, List.filter_append,
        List.map_append, List.map_congr_left newsBefore, List.filter_congr newsBefore]
      rw [inductionHypothesis] at newsLast ⊢
      simp only [List.zipIdx_singleton, Nat.zero_add, List.map_singleton, recordAll, record, push,
        List.filter_cons, List.filter_nil, newsLast]
      split
      · next heard => simp [heard]
      · next unheard => simp [unheard]

/-- What was recorded once, or has the text of what was, is not recorded again. -/
theorem record_again (member : diagnostic ∈ diagnostics) :
    (Sink.empty.recordAll diagnostics).2.record diagnostic =
      (false, (Sink.empty.recordAll diagnostics).2) := by
  have heard : (Sink.empty.recordAll diagnostics).2.holds diagnostic = true := by
    rw [recordAll_snd]
    exact holds_pushAll Sink.empty member
  simp [record, push, heard]

end Sink

end AgentScript
