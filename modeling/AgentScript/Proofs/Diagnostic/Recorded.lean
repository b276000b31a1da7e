import AgentScript.Diagnostic.Sink
import Mathlib.Tactic.Common

/-!
Contract: what a sink holds after diagnostics are recorded in it.

Owns:
- that recording keeps the entries there are, and adds no others than the recorded diagnostics;
- that what is recorded is held, at least by its text, and that no text is recorded twice;
- that a relation of earlier to later entries is kept if the entries have it to what is recorded;
- that a sink without entries has recorded nothing.
-/

set_option autoImplicit false

namespace AgentScript.Sink

variable {sink : Sink} {diagnostic entry : Diagnostic}

theorem holds_iff : sink.holds diagnostic = true ↔
    ∃ entry ∈ sink.entries, entry.text = diagnostic.text := by
  simp [holds]

theorem holds_mono {larger : Sink} (included : sink.entries <+: larger.entries)
    (holds : sink.holds diagnostic = true) : larger.holds diagnostic = true := by
  obtain ⟨entry, member, same⟩ := holds_iff.1 holds
  exact holds_iff.2 ⟨entry, included.subset member, same⟩

theorem prefix_push (sink : Sink) (diagnostic : Diagnostic) :
    sink.entries <+: (sink.push diagnostic).entries := by
  unfold push
  split
  · exact List.prefix_rfl
  · exact List.prefix_append _ _

theorem prefix_pushOption (sink : Sink) (diagnostic? : Option Diagnostic) :
    sink.entries <+: (sink.pushOption diagnostic?).entries := by
  cases diagnostic? with
  | none => exact List.prefix_rfl
  | some diagnostic => exact prefix_push sink diagnostic

theorem prefix_pushAll (sink : Sink) (diagnostics : List Diagnostic) :
    sink.entries <+: (sink.pushAll diagnostics).entries := by
  induction diagnostics generalizing sink with
  | nil => exact List.prefix_rfl
  | cons first rest inductionHypothesis =>
      exact (prefix_push sink first).trans (inductionHypothesis _)

theorem holds_push_self (sink : Sink) (diagnostic : Diagnostic) :
    (sink.push diagnostic).holds diagnostic = true := by
  unfold push
  split
  · next holds => exact holds
  · exact holds_iff.2 ⟨diagnostic, by simp, rfl⟩

theorem holds_pushAll {diagnostics : List Diagnostic} (sink : Sink)
    (member : diagnostic ∈ diagnostics) : (sink.pushAll diagnostics).holds diagnostic = true := by
  induction diagnostics generalizing sink with
  | nil => cases member
  | cons first rest inductionHypothesis =>
      rcases List.mem_cons.1 member with rfl | later
      · exact holds_mono (prefix_pushAll _ rest) (holds_push_self sink diagnostic)
      · exact inductionHypothesis (sink.push first) later

theorem mem_push (member : entry ∈ (sink.push diagnostic).entries) :
    entry ∈ sink.entries ∨ entry = diagnostic := by
  unfold push at member
  split at member
  · exact .inl member
  · simpa using member

theorem mem_pushOption {diagnostic? : Option Diagnostic}
    (member : entry ∈ (sink.pushOption diagnostic?).entries) :
    entry ∈ sink.entries ∨ entry ∈ diagnostic? := by
  cases diagnostic? with
  | none => exact .inl member
  | some diagnostic => exact (mem_push member).imp_right fun same => congrArg some same.symm

theorem mem_pushAll {diagnostics : List Diagnostic}
    (member : entry ∈ (sink.pushAll diagnostics).entries) :
    entry ∈ sink.entries ∨ entry ∈ diagnostics := by
  induction diagnostics generalizing sink with
  | nil => exact .inl member
  | cons first rest inductionHypothesis =>
      rcases inductionHypothesis member with before | later
      · exact (mem_push before).imp_right fun same => by rw [same]; exact List.mem_cons_self
      · exact .inr (List.mem_cons_of_mem _ later)

theorem holds_pushOption {diagnostic? : Option Diagnostic} (sink : Sink)
    (member : diagnostic ∈ diagnostic?) : (sink.pushOption diagnostic?).holds diagnostic = true := by
  cases member
  exact holds_push_self sink diagnostic

theorem nodup_texts_push (unique : sink.texts.Nodup) : (sink.push diagnostic).texts.Nodup := by
  unfold push
  split
  · exact unique
  · next fresh =>
      have absent : diagnostic.text ∉ sink.texts := by
        intro recorded
        obtain ⟨entry, member, same⟩ := List.mem_map.1 recorded
        exact fresh (holds_iff.2 ⟨entry, member, same⟩)
      simpa [texts, List.nodup_append] using ⟨unique, fun entry member same =>
        absent (List.mem_map.2 ⟨entry, member, same⟩)⟩

theorem nodup_texts_pushOption (unique : sink.texts.Nodup) (diagnostic? : Option Diagnostic) :
    (sink.pushOption diagnostic?).texts.Nodup := by
  cases diagnostic? with
  | none => exact unique
  | some diagnostic => exact nodup_texts_push unique

theorem nodup_texts_pushAll (unique : sink.texts.Nodup) (diagnostics : List Diagnostic) :
    (sink.pushAll diagnostics).texts.Nodup := by
  induction diagnostics generalizing sink with
  | nil => exact unique
  | cons first rest inductionHypothesis => exact inductionHypothesis (nodup_texts_push unique)

section

variable {relation : Diagnostic → Diagnostic → Prop}

theorem pairwise_push (pairwise : sink.entries.Pairwise relation)
    (follows : ∀ entry ∈ sink.entries, relation entry diagnostic) :
    (sink.push diagnostic).entries.Pairwise relation := by
  unfold push
  split
  · exact pairwise
  · exact List.pairwise_append.2 ⟨pairwise, List.pairwise_singleton _ _, by simpa using follows⟩

theorem pairwise_pushOption (pairwise : sink.entries.Pairwise relation)
    {diagnostic? : Option Diagnostic}
    (follows : ∀ diagnostic ∈ diagnostic?, ∀ entry ∈ sink.entries, relation entry diagnostic) :
    (sink.pushOption diagnostic?).entries.Pairwise relation := by
  cases diagnostic? with
  | none => exact pairwise
  | some diagnostic => exact pairwise_push pairwise (follows diagnostic rfl)

end

theorem push_ne_empty (sink : Sink) (diagnostic : Diagnostic) :
    sink.push diagnostic ≠ Sink.empty := by
  intro same
  have holds := holds_push_self sink diagnostic
  rw [same] at holds
  cases holds

theorem eq_nil_of_pushAll {diagnostics : List Diagnostic}
    (same : sink.pushAll diagnostics = Sink.empty) : diagnostics = [] := by
  cases diagnostics with
  | nil => rfl
  | cons first rest =>
      have holds := holds_pushAll sink (List.mem_cons_self (a := first) (l := rest))
      rw [same] at holds
      cases holds

end AgentScript.Sink
