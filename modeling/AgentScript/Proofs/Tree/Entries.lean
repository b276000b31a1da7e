import AgentScript.Tree.Entries
import Mathlib.Data.List.Induction
import Mathlib.Data.List.Nodup

/-!
Contract: what putting pairs into entries one after the other leaves.

Owns:
- the keys after an insertion, and their distinctness;
- that every entry is one of the pairs it was built from;
- that pairs with distinct keys are left as they are;
- where repeated keys stand, and which of their values they have.
-/

set_option autoImplicit false

universe u

namespace AgentScript.Entries

variable {α : Type u} {key : String} {value : α} {entries : Entries α}

/-- An insertion replaces the value of a key that is present, and appends one that is not. -/
theorem keys_insert :
    keys (insert key value entries) =
      if key ∈ keys entries then keys entries else keys entries ++ [key] := by
  induction entries with
  | nil => simp [insert, keys]
  | cons entry rest inductionHypothesis =>
      obtain ⟨present, old⟩ := entry
      unfold insert
      by_cases same : present = key
      · simp [keys, same]
      · simp only [keys, same, ↓reduceIte, List.map_cons, List.mem_cons, Ne.symm same,
          false_or] at inductionHypothesis ⊢
        by_cases member : key ∈ rest.map Prod.fst
        · simp [inductionHypothesis, member]
        · simp [inductionHypothesis, member]

theorem insert_of_not_mem (new : key ∉ keys entries) :
    insert key value entries = entries ++ [(key, value)] := by
  induction entries with
  | nil => rfl
  | cons entry rest inductionHypothesis =>
      obtain ⟨present, old⟩ := entry
      simp only [keys, List.map_cons, List.mem_cons, not_or] at new
      simp only [insert, Ne.symm new.1, ↓reduceIte, List.cons_append]
      rw [inductionHypothesis new.2]

theorem nodup_keys_insert (distinct : (keys entries).Nodup) :
    (keys (insert key value entries)).Nodup := by
  rw [keys_insert]
  split
  · exact distinct
  · next new =>
      refine List.nodup_append.2 ⟨distinct, List.nodup_singleton key, ?_⟩
      intro left leftMember right rightMember
      rw [List.mem_singleton.1 rightMember]
      rintro rfl
      exact new leftMember

theorem mem_of_mem_insert {entry : String × α} (member : entry ∈ insert key value entries) :
    entry = (key, value) ∨ entry ∈ entries := by
  induction entries with
  | nil => simpa [insert] using member
  | cons head rest inductionHypothesis =>
      obtain ⟨present, old⟩ := head
      unfold insert at member
      split at member
      · rcases List.mem_cons.1 member with here | inRest
        · exact .inl here
        · exact .inr (List.mem_cons_of_mem _ inRest)
      · rcases List.mem_cons.1 member with here | inRest
        · exact .inr (here ▸ List.mem_cons_self)
        · exact (inductionHypothesis inRest).imp_right (List.mem_cons_of_mem _)

/-! ## Pairs inserted from left to right -/

/-- Inserts pairs after those that are there. -/
private theorem foldl_invariant {motive : Entries α → Prop} (pairs : List (String × α))
    (step : ∀ pair ∈ pairs, ∀ entries, motive entries → motive (insert pair.1 pair.2 entries))
    (entries : Entries α) (start : motive entries) :
    motive (pairs.foldl (fun entries pair => insert pair.1 pair.2 entries) entries) := by
  induction pairs generalizing entries with
  | nil => exact start
  | cons pair rest inductionHypothesis =>
      exact inductionHypothesis (fun next member => step next (List.mem_cons_of_mem _ member)) _
        (step pair List.mem_cons_self entries start)

theorem nodup_keys_ofPairs (pairs : List (String × α)) : (keys (ofPairs pairs)).Nodup :=
  foldl_invariant (motive := fun entries => (keys entries).Nodup) pairs
    (fun _ _ _ => nodup_keys_insert) [] List.nodup_nil

theorem mem_of_mem_ofPairs {pairs : List (String × α)} {entry : String × α}
    (member : entry ∈ ofPairs pairs) : entry ∈ pairs := by
  refine foldl_invariant (motive := fun entries => ∀ entry ∈ entries, entry ∈ pairs) pairs
    ?_ [] (by simp) entry member
  intro pair pairMember entries within entry entryMember
  rcases mem_of_mem_insert entryMember with rfl | old
  · exact pairMember
  · exact within entry old

/-- Pairs with distinct keys are the entries they give. -/
theorem ofPairs_of_nodup {pairs : List (String × α)} (distinct : (keys pairs).Nodup) :
    ofPairs pairs = pairs := by
  have general : ∀ (entries : Entries α), (keys (entries ++ pairs)).Nodup →
      pairs.foldl (fun entries pair => insert pair.1 pair.2 entries) entries = entries ++ pairs := by
    clear distinct
    induction pairs with
    | nil => simp
    | cons pair rest inductionHypothesis =>
        intro entries distinct
        have new : pair.1 ∉ keys entries := by
          intro member
          simp only [keys, List.map_append, List.map_cons] at distinct
          exact (List.nodup_append.1 distinct).2.2 _ member _ List.mem_cons_self rfl
        rw [List.foldl_cons, insert_of_not_mem new, inductionHypothesis]
        · simp
        · simpa using distinct
  exact general [] distinct

/-! ## Repeated keys -/

/-- The distinct keys of pairs in the order in which they first occur, each with its last value. -/
def settled (pairs : List (String × α)) : Entries α :=
  (keys pairs).eraseDups.filterMap fun key =>
    (pairs.reverse.lookup key).map fun value => (key, value)

theorem get?_cons (entry : String × α) (entries : Entries α) (key : String) :
    get? (entry :: entries) key = if entry.1 = key then some entry.2 else get? entries key := by
  unfold get?
  rw [List.find?_cons]
  by_cases same : entry.1 = key <;> simp [same]

theorem get?_insert (other : String) :
    get? (insert key value entries) other =
      if key = other then some value else get? entries other := by
  induction entries with
  | nil => exact get?_cons (key, value) [] other
  | cons entry rest inductionHypothesis =>
      obtain ⟨present, old⟩ := entry
      unfold insert
      by_cases same : present = key
      · rw [if_pos same, get?_cons, get?_cons, same]
        by_cases isKey : key = other
        · simp only [isKey, ↓reduceIte]
        · simp only [isKey, ↓reduceIte]
      · rw [if_neg same, get?_cons, get?_cons, inductionHypothesis]
        by_cases here : present = other
        · have noKey : key ≠ other := fun isKey => same (here.trans isKey.symm)
          simp only [here, noKey, ↓reduceIte]
        · simp only [here, ↓reduceIte]

theorem ofPairs_append_singleton (pairs : List (String × α)) (pair : String × α) :
    ofPairs (pairs ++ [pair]) = insert pair.1 pair.2 (ofPairs pairs) :=
  List.foldl_append

/-- Each key keeps the place where it first occurs. -/
theorem keys_ofPairs (pairs : List (String × α)) : keys (ofPairs pairs) = (keys pairs).eraseDups := by
  induction pairs using List.reverseRecOn with
  | nil => rfl
  | append_singleton pairs pair inductionHypothesis =>
      have split : keys (pairs ++ [pair]) = keys pairs ++ [pair.1] := List.map_append
      rw [ofPairs_append_singleton, keys_insert, inductionHypothesis, split, List.eraseDups_append]
      by_cases old : pair.1 ∈ keys pairs
      · simp [old, List.removeAll]
      · simp [old, List.removeAll, List.eraseDups_cons]

/-- Each key has the value that is given for it last. -/
theorem get?_ofPairs (pairs : List (String × α)) (key : String) :
    get? (ofPairs pairs) key = pairs.reverse.lookup key := by
  induction pairs using List.reverseRecOn with
  | nil => rfl
  | append_singleton pairs pair inductionHypothesis =>
      rw [ofPairs_append_singleton, get?_insert, inductionHypothesis, List.reverse_append,
        List.reverse_singleton, List.singleton_append, List.lookup_cons]
      by_cases same : pair.1 = key
      · simp [same]
      · rw [if_neg same, beq_false_of_ne (Ne.symm same)]

/-- Entries with distinct keys are determined by the order of the keys and the value under each. -/
theorem filterMap_get? (distinct : (keys entries).Nodup) :
    ((keys entries).filterMap fun key => (get? entries key).map fun value => (key, value)) =
      entries := by
  induction entries with
  | nil => rfl
  | cons entry rest inductionHypothesis =>
      obtain ⟨new, distinctRest⟩ := List.nodup_cons.1 distinct
      have later : ∀ key ∈ keys rest, get? (entry :: rest) key = get? rest key := by
        intro key member
        rw [get?_cons, if_neg]
        rintro rfl
        exact new member
      have here : get? (entry :: rest) entry.1 = some entry.2 := by rw [get?_cons, if_pos rfl]
      change List.filterMap _ (entry.1 :: keys rest) = _
      rw [List.filterMap_cons, here, Option.map_some, List.filterMap_congr fun key member => by
        rw [later key member], inductionHypothesis distinctRest]

/-- Pairs that are inserted one after the other leave each key in its first place with its last
value. -/
theorem ofPairs_eq_settled (pairs : List (String × α)) : ofPairs pairs = settled pairs := by
  rw [← filterMap_get? (nodup_keys_ofPairs pairs), keys_ofPairs]
  simp only [get?_ofPairs]
  rfl

end AgentScript.Entries
