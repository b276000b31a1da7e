/-!
Contract: keyed values in the order their keys first appeared.

Owns: insertion, which keeps the place of a key that is present and takes the new value, and look-up.
-/

set_option autoImplicit false

universe u

namespace AgentScript

/-- Keyed values. Built by `insert`, no key occurs twice. -/
abbrev Entries (α : Type u) := List (String × α)

namespace Entries

variable {α : Type u}

/-- Puts a value under a key: in the place of the value it replaces, or at the end. -/
def insert (key : String) (value : α) : Entries α → Entries α
  | [] => [(key, value)]
  | (present, old) :: rest =>
      if present = key then (key, value) :: rest else (present, old) :: insert key value rest

/-- The entries given by a list of pairs, inserted from left to right. -/
def ofPairs (pairs : List (String × α)) : Entries α :=
  pairs.foldl (fun entries pair => insert pair.1 pair.2 entries) []

/-- The value under a key. -/
def get? (entries : Entries α) (key : String) : Option α :=
  (entries.find? fun entry => entry.1 = key).map Prod.snd

def keys (entries : Entries α) : List String := entries.map Prod.fst

end Entries

end AgentScript
