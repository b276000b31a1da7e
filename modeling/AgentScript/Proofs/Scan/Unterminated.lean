import AgentScript.Proofs.Scan.Order

/-!
Contract: a literal without its closing quote takes all of the text.

Owns:
- that an unterminated lexeme leaves nothing of the text after it;
- that no token but the last one of a script has a fault, so that a script has at most one.
-/

set_option autoImplicit false

namespace AgentScript

namespace Extent

theorem single_body_of_not_closed {quote : Char} {text : List Char}
    (unclosed : (single quote text).closed = false) : (single quote text).body = text := by
  obtain ⟨tail, split, whole⟩ := single_append quote text
  simpa [unclosed, whole unclosed] using split.symm

theorem triple_body_of_not_closed {quote : Char} {text : List Char}
    (unclosed : (triple quote text).closed = false) : (triple quote text).body = text := by
  obtain ⟨tail, split, whole⟩ := triple_append quote text
  simpa [unclosed, whole unclosed] using split.symm

end Extent

namespace Lexeme

theorem delimited_unterminated?_isSome {kind : Kind} {form : LiteralForm} {opening closing : Nat}
    {extent : Extent} {value : List Char}
    (unterminated : (delimited kind form opening closing extent value).unterminated?.isSome) :
    extent.closed = false ∧
      (delimited kind form opening closing extent value).more = opening + extent.body.length := by
  cases closed : extent.closed <;> simp_all [delimited]

theorem readString_more_of_unterminated {quote : Char} {rest : List Char}
    (unterminated : (readString quote rest).unterminated?.isSome) :
    (readString quote rest).more = rest.length := by
  unfold readString at unterminated ⊢
  split at unterminated
  · next opens =>
      obtain ⟨tail, rfl⟩ := List.isPrefixOf_iff_prefix.1 opens
      obtain ⟨unclosed, more⟩ := delimited_unterminated?_isSome unterminated
      rw [if_pos opens, more, Extent.triple_body_of_not_closed unclosed]
      simp only [List.cons_append, List.nil_append, List.drop_succ_cons, List.drop_zero,
        List.length_cons]
      omega
  · next plain =>
      obtain ⟨unclosed, more⟩ := delimited_unterminated?_isSome unterminated
      rw [if_neg plain, more, Extent.single_body_of_not_closed unclosed, Nat.zero_add]

theorem readTemplate_more_of_unterminated {rest : List Char}
    (unterminated : (readTemplate rest).unterminated?.isSome) :
    (readTemplate rest).more = rest.length := by
  obtain ⟨unclosed, more⟩ := delimited_unterminated?_isSome unterminated
  rw [readTemplate, more, Extent.single_body_of_not_closed unclosed, Nat.zero_add]

/-- A lexeme whose closing quote is missing takes all of the text. -/
theorem read_more_of_unterminated {first : Char} {rest : List Char}
    (unterminated : (read first rest).unterminated?.isSome) :
    (read first rest).more = rest.length := by
  unfold read at unterminated ⊢
  split at unterminated
  · cases unterminated
  · next single =>
      split at unterminated
      · cases unterminated
      · next other =>
          split_ifs at unterminated ⊢
          · exact readString_more_of_unterminated unterminated
          · exact readTemplate_more_of_unterminated unterminated
          all_goals cases unterminated

end Lexeme

namespace Cursor

/-- No token follows one with a fault. -/
theorem next_scan_of_fault {cursor : Cursor} (fault : cursor.next.1.fault? ≠ none) :
    cursor.next.2.scan.tokens = [] := by
  cases ahead : cursor.skipGap.rest with
  | nil =>
      rw [next_of_end ahead] at fault
      exact absurd rfl fault
  | cons first rest =>
      rw [next_of_cons ahead] at fault ⊢
      have unterminated : (Lexeme.read first rest).unterminated?.isSome := by
        rw [Option.isSome_iff_ne_none]
        rintro none
        simp [none] at fault
      have nothing : rest.drop (Lexeme.read first rest).more = [] := by
        rw [Lexeme.read_more_of_unterminated unterminated, List.drop_length]
      simp only [nothing]
      rfl

/-- Only the last token of a text can have a fault. -/
theorem scan_dropLast_fault? (cursor : Cursor) :
    ∀ lexed ∈ cursor.scan.tokens.dropLast, lexed.fault? = none := by
  induction cursor using scan_induction with
  | ending cursor ended => simp [scan_of_end ended]
  | token cursor token inductionHypothesis =>
      rw [scan_of_token token]
      by_cases fault : cursor.next.1.fault? = none
      · intro lexed member
        cases more : cursor.next.2.scan.tokens with
        | nil => simp [more] at member
        | cons second rest =>
            rw [more] at inductionHypothesis member
            rw [List.dropLast_cons_of_ne_nil (List.cons_ne_nil _ _)] at member
            rcases List.mem_cons.1 member with rfl | later
            · exact fault
            · exact inductionHypothesis lexed later
      · simp [next_scan_of_fault fault]

end Cursor

/-- A text has no fault, or one, at its last token: an unterminated literal that starts there. -/
theorem Cursor.scan_faults (cursor : Cursor) :
    cursor.scan.faults = [] ∨ ∃ before last form, cursor.scan.tokens = before ++ [last] ∧
      cursor.scan.faults = [unterminatedAt last.token.position form] := by
  rcases List.eq_nil_or_concat cursor.scan.tokens with none | ⟨before, last, split⟩
  · exact .inl (by simp [Scan.faults, none])
  · rw [List.concat_eq_append] at split
    have sound : before.filterMap Lexed.fault? = [] := by
      have noFault := cursor.scan_dropLast_fault?
      rw [split, List.dropLast_concat] at noFault
      exact List.filterMap_eq_nil_iff.2 noFault
    have faults : cursor.scan.faults = last.fault?.toList := by
      rw [Scan.faults, split, List.filterMap_append, sound]
      cases fault : last.fault? <;> simp [fault]
    cases fault : last.fault? with
    | none => exact .inl (by rw [faults, fault, Option.toList_none])
    | some diagnostic =>
        obtain ⟨form, rfl⟩ :=
          cursor.scan_fault? last (by simp [split]) diagnostic fault
        exact .inr ⟨before, last, form, split, by rw [faults, fault, Option.toList_some]⟩

/-- What is wrong with the tokens of a script are the faults of its scan. -/
theorem tokenize_entries (source : String) :
    (tokenize source).2.entries = (Cursor.ofSource source).scan.faults := by
  unfold tokenize
  rcases (Cursor.ofSource source).scan_faults with none | ⟨_, _, _, _, one⟩
  · simp only [none]
    rfl
  · simp only [one]
    rfl

end AgentScript
