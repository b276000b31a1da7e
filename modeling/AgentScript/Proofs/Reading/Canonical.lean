import AgentScript.Proofs.Reading.Canonical.Statements
import AgentScript.Proofs.Reading.Spacing
import AgentScript.Proofs.Reading.Succession
import AgentScript.Proofs.Reading.WellFormed

/-!
Contract: the canonical text of a program is read as this program.

Owns:
- the first state of reading a canonical text, which shows its printed tokens;
- the reading of the canonical text of a well-formed program, and of the program of any script;
- how many levels of nesting a program may take for its canonical text to be accepted.

The comparison leaves out positions, and the tokens that expression statements keep. Nesting can be
deeper in a canonical text than in the script, as its operators stand in parentheses: therefore the
limit of nesting may be met there and not here.
-/

set_option autoImplicit false

namespace AgentScript

namespace Program.WellFormed

variable {program : Program}

theorem first_gap (wellFormed : program.WellFormed) :
    ∀ first ∈ program.printed.head?, first.gap = .top := by
  unfold Program.printed
  rw [stmtsPrinted_eq_map]
  have formed := wellFormed.statements
  have noBlock := wellFormed.noBlock
  cases statements : program.statements with
  | nil => simp
  | cons first rest =>
      rw [statements] at formed noBlock
      obtain ⟨token, more, printed, starts⟩ :=
        (formed first List.mem_cons_self).exists_first (noBlock first List.mem_cons_self) 0 .top
      rw [List.map_cons]
      simp only [printed, List.cons_append, List.head?_cons, Option.mem_some_iff]
      rintro _ rfl
      exact starts.gap

/-- Reading a canonical text starts with its printed tokens ahead. -/
theorem shows_printed (wellFormed : program.WellFormed) :
    (State.ofSource program.text).Shows program.printed := by
  refine ScansAs.shows ?_ wellFormed.first_gap
  have scans := scansAs_nil.append wellFormed.legible
  rwa [List.append_nil, List.append_nil, wellFormed.printedText_eq] at scans

/-- The canonical text of a well-formed program is read as this program if there is room for its
levels, and as nested too deeply if there is not. -/
theorem parse_text (wellFormed : program.WellFormed) :
    (program.levels 1 ≤ maxNesting ∧ (parse program.text).2 = Sink.empty ∧
        (parse program.text).1.bare = program.bare) ∨
      (maxNesting < program.levels 1 ∧ (parse program.text).2.HoldsTooDeep) := by
  have shows := wellFormed.shows_printed
  have printed : program.printed =
      Production.listed (Stmt.printed 0) (Production.afterLine (Stmt.printed 0) 0 []) [] .top
        program.statements := by
    unfold Program.printed
    rw [stmtsPrinted_eq_map]
    cases program.statements with
    | nil => rfl
    | cons first rest => simp [Production.listed, Production.afterLine]
  rw [printed] at shows
  have proceeds := Production.levelProceeds_withRoom maxNesting
  have consumes := Production.levelConsumes_withRoom maxNesting
  have reads := Production.levelReads_withRoom maxNesting
  have closes : ∀ state : State, state.Shows [] →
      Production.endsStatements false state.kind = true := by
    intro state shows
    rw [shows.kind_of_nil]
    rfl
  have list := Production.statementsWithin_readsAs (Production.proceeds_statement proceeds)
    (Production.consumes_statement proceeds consumes)
    (fun statement member => (wellFormed.statements statement member).exists_first
      (wellFormed.noBlock statement member) 0)
    (fun statement member gap state following =>
      Production.readsAs_statement proceeds reads (wellFormed.statements statement member)
        (wellFormed.noBlock statement member))
    closes (fun _ next isNext => by cases isNext) .top (State.ofSource program.text).upcoming
    (Nat.le_refl _) shows
  rw [← levelsOfStmts_le_iff] at list
  rw [parse_eq]
  obtain ⟨fits, read, final, run, same, showsNothing⟩ | ⟨tooMuch, tooDeep⟩ := list
  · rw [run]
    refine .inl ⟨fits, showsNothing.clean, ?_⟩
    simp only [Program.bare, mapTokensOfStmts_eq_map]
    exact congrArg _ same
  · exact .inr ⟨Nat.not_le.1 tooMuch, tooDeep⟩

end Program.WellFormed

/-- The canonical text of the program that any script holds is read as this program, without
diagnostics and up to positions, unless it is nested too deeply. -/
theorem parse_text_parse (source : String)
    (shallow : ∀ entry ∈ (parse (parse source).1.text).2.entries, ¬ entry.IsTooDeep) :
    (parse (parse source).1.text).2.entries = [] ∧
      (parse (parse source).1.text).1.bare = (parse source).1.bare ∧
      (parse (parse source).1.text).1.text = (parse source).1.text := by
  have wellFormed := parse_wellFormed source
  obtain ⟨_, clean, same⟩ | ⟨_, entry, member, tooDeep⟩ := wellFormed.parse_text
  · refine ⟨by rw [clean]; rfl, same, ?_⟩
    rw [← (parse_wellFormed _).text_bare, same, wellFormed.text_bare]
  · exact absurd tooDeep (shallow entry member)

/-- A script with a diagnostic, whose program lacks the line it is about. -/
theorem parse_text_parse_partial :
    (parse "if (a + 1) \x7b b \x7d\n)").2.entries ≠ [] ∧
      (parse (parse "if (a + 1) \x7b b \x7d\n)").1.text).2.entries = [] ∧
      (parse (parse "if (a + 1) \x7b b \x7d\n)").1.text).1.bare =
        (parse "if (a + 1) \x7b b \x7d\n)").1.bare := by
  have clean : (parse (parse "if (a + 1) \x7b b \x7d\n)").1.text).2.entries = [] := by
    decide +kernel
  obtain ⟨_, same, _⟩ := parse_text_parse "if (a + 1) \x7b b \x7d\n)" (by rw [clean]; simp)
  exact ⟨by decide +kernel, clean, same⟩

/-- The canonical text of the program that any script holds is accepted if and only if there is room
for its levels of nesting, with a pair of parentheses around every operator and every index. -/
theorem parse_text_clean_iff (source : String) :
    (parse (parse source).1.text).2.entries = [] ↔ (parse source).1.levels 1 ≤ maxNesting := by
  obtain ⟨fits, clean, _⟩ | ⟨tooMuch, entry, member, _⟩ := (parse_wellFormed source).parse_text
  · exact iff_of_true (congrArg Sink.entries clean) fits
  · refine iff_of_false (fun none => ?_) (Nat.not_le.2 tooMuch)
    rw [none] at member
    cases member

/-- A script without diagnostics whose canonical text is nested too deeply: each of its fifty signs
stands in parentheses there. -/
theorem parse_text_not_clean :
    (parse "!!!!!!!!!!!!!!!!!!!!!!!!!!!!!!!!!!!!!!!!!!!!!!!!!!x").2.entries = [] ∧
      (parse (parse "!!!!!!!!!!!!!!!!!!!!!!!!!!!!!!!!!!!!!!!!!!!!!!!!!!x").1.text).2.entries =
        [⟨.nestingTooDeep maxNesting, ⟨1, 101⟩⟩] := by
  constructor <;> decide +kernel

end AgentScript
