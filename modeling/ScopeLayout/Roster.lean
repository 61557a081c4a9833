import ScopeLayout.Registry

/-!
# `ScopeLayout.Roster`: distinct names in the order in which they came

A `Roster` is what a scope keeps of names that carry no value but their place.
`insert` appends a name that is new and ignores one that is listed
(`names_insert`), so a name that has a place keeps it. That no name is listed
twice is part of the roster.
-/

set_option autoImplicit false

namespace ScopeLayout

/-- A list of names, each with the place at which it was first inserted. -/
structure Roster where
  names : List String := []
  -- No name has two places.
  nodup : names.Nodup := by decide
deriving DecidableEq, Repr

namespace Roster

instance : Membership String Roster := ⟨fun roster name => name ∈ roster.names⟩

instance (name : String) (roster : Roster) : Decidable (name ∈ roster) :=
  inferInstanceAs (Decidable (name ∈ roster.names))

/-- A name is in the roster if it is listed. -/
theorem mem_def {roster : Roster} {name : String} : name ∈ roster ↔ name ∈ roster.names := Iff.rfl

/-- Rosters with the same names are one. -/
@[ext] theorem ext {roster roster' : Roster} (h : roster.names = roster'.names) :
    roster = roster' := by
  obtain ⟨names, _⟩ := roster
  obtain ⟨names', _⟩ := roster'
  obtain rfl : names = names' := h
  rfl

/-- The number of names. -/
def size (roster : Roster) : Nat := roster.names.length

/-- The place of a name, counted from zero. -/
def indexOf? (roster : Roster) (name : String) : Option Nat := roster.names.idxOf? name

/-- Appends a name that is not listed yet. -/
def insert (roster : Roster) (name : String) : Roster where
  names := if name ∈ roster then roster.names else roster.names ++ [name]
  nodup := by
    split
    · exact roster.nodup
    · rename_i new
      exact nodup_append_singleton roster.nodup new

/-- `insert` lists a new name last and leaves the list of a known one alone. -/
theorem names_insert (roster : Roster) (name : String) :
    (roster.insert name).names =
      if name ∈ roster then roster.names else roster.names ++ [name] := rfl

/-- The inserted name is listed, and so is everything that was. -/
@[simp] theorem mem_insert {roster : Roster} {key name : String} :
    name ∈ roster.insert key ↔ name ∈ roster ∨ name = key := by
  rw [mem_def, names_insert]
  split
  · constructor
    · exact Or.inl
    · rintro (h | rfl)
      · exact h
      · assumption
  · simp [mem_def]

/-- Only a listed name has a place. -/
theorem indexOf?_eq_none_iff {roster : Roster} {name : String} :
    roster.indexOf? name = none ↔ name ∉ roster := by
  simp [indexOf?, mem_def, List.idxOf?_eq_none_iff]

end Roster

end ScopeLayout
