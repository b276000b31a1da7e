import AgentScript.Proofs.Reading.Concatenation
import AgentScript.Proofs.Reading.Lines

/-!
Contract: what a script without diagnostics satisfies.

Owns: that nothing malformed is accepted. Brackets answer one another and none is left open, tokens are
known and literals are closed, statements are told apart by line breaks and by nothing else.
-/

set_option autoImplicit false

namespace AgentScript

/-- What is asked of the tokens of a script and of the lists of statements read from them. -/
structure Accepted (source : String) : Prop where
  brackets : Balanced (tokenize source).1
  depth : (State.ofSource source).readProgram.2.depth = 0
  kinds : ∀ token ∈ (tokenize source).1, token.kind ≠ .illegal ∧ token.kind ≠ .semicolon
  literals : (tokenize source).2.entries = []
  lines : (Node.program (parse source).1).Every
    (Node.LinedUpIn (Cursor.ofSource source).scan.tokens)

theorem tokenize_eq (source : String) :
    (tokenize source).1 =
      (State.ofSource source).upcoming.map Lexed.token ++
        [(Cursor.ofSource source).scan.ending.token] := by
  simp only [tokenize, Scan.allTokens, List.map_append]
  rfl

/-- A script that nothing is wrong with is well formed in its brackets, tokens and lines. -/
theorem accepted_of_clean (source : String) (clean : (parse source).2.entries = []) :
    Accepted source := by
  obtain ⟨succession, cleanFinal, ended⟩ := succession_readProgram clean
  obtain ⟨used, ahead, balanced, forms, _⟩ := Production.keeps_readProgram clean
  rw [ended, List.map_nil, List.append_nil] at ahead
  have ending := (Cursor.scan_ending (Cursor.ofSource source)).1
  have faultless : (Cursor.ofSource source).scan.faults = [] :=
    List.filterMap_eq_nil_iff.2 (fault?_eq_none_of_clean clean)
  refine ⟨?_, ?_, ?_, ?_, parse_linedUp clean⟩
  · -- the end of input is no bracket
    rw [tokenize_eq, ahead]
    exact balanced.append (.singleton (by rw [ending]; rfl))
  · rw [State.depth, openBrackets_eq_nil succession cleanFinal ended]
    rfl
  · rw [tokenize_eq, ahead]
    refine List.forall_mem_append.2 ⟨fun token member => ?_, List.forall_mem_singleton.2 ?_⟩
    · have inForms := forms token member
      constructor <;> intro kind <;> rw [kind] at inForms <;> cases inForms
    · rw [ending]
      decide
  · exact congrArg (fun faults => (Sink.empty.pushAll faults).entries) faultless

/-- A block of two statements, the first of which ends on the line its bracket closes on. -/
theorem accepted_of_clean_block :
    (parse "if (a) \x7b\nb = [1,\n2]\nf(b)\n\x7d").2.entries = [] ∧
      Accepted "if (a) \x7b\nb = [1,\n2]\nf(b)\n\x7d" := by
  have clean : (parse "if (a) \x7b\nb = [1,\n2]\nf(b)\n\x7d").2.entries = [] := by decide +kernel
  exact ⟨clean, accepted_of_clean _ clean⟩

end AgentScript
