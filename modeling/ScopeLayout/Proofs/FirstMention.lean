import Mathlib.Data.Finset.Card
import ScopeLayout.Proofs.BlockNumbering

/-!
# `ScopeLayout.Proofs.FirstMention`: how many names come before

A block gives a new name the number of variables it has so far. What this number is can
be said without the block: it is the number of different names that are mentioned before
the name is mentioned for the first time (`mentionedBefore`). Repeated mentions take no
number and move no other name, whatever their pattern is.

* `getElem?_eraseDups_of_first`: among the different names, a name stands at this place.
* `Locals.find?_ofPairs` and `Locals.names_ofPairs`: a block that takes indices from
  elsewhere has the first index of each name, and lists each name once.
* `Locals.rows_ofPairs_of_nodup`: pairs without repeated names are the rows of the block.
  So the two ways to make a block agree on the different names with their places.

`Locals.numbered_by_first_mention` says it of both kinds of block and of every scope
that may be around them.
-/

set_option autoImplicit false

namespace ScopeLayout

/-! ### Counting different names -/

/-- The number of different names that are mentioned before the first mention of a name. -/
def mentionedBefore (names : List String) (name : String) : Nat :=
  (names.takeWhile (· ≠ name)).toFinset.card

/-- Without its repetitions, a list has as many entries as it has different ones. -/
theorem length_eraseDups (names : List String) : names.eraseDups.length = names.toFinset.card := by
  have hsame : names.eraseDups.toFinset = names.toFinset := by
    ext name
    simp
  rw [← List.toFinset_card_of_nodup (nodup_eraseDups names), hsame]

/-- A name stands behind all different names that are mentioned before it. -/
theorem getElem?_eraseDups_of_first {before rest : List String} {name : String}
    (first : name ∉ before) :
    (before ++ name :: rest).eraseDups[before.toFinset.card]? = some name := by
  rw [List.eraseDups_append, ← length_eraseDups, List.getElem?_append_right (Nat.le_refl _)]
  simp [List.removeAll, first, List.eraseDups_cons]

namespace Locals

/-- The number of a name in a block of names is the number of different names before it. -/
theorem find?_ofNames (names : List String) (name : String) : (ofNames names).find? name =
    if name ∈ names then some (mentionedBefore names name) else none := by
  split
  · rename_i hmem
    obtain ⟨before, rest, rfl, first⟩ := List.eq_append_cons_of_mem hmem
    rw [find?_ofNames_eq_some_iff, mentionedBefore, takeWhile_ne_append first]
    exact getElem?_eraseDups_of_first first
  · rename_i hnot
    exact find?_ofNames_eq_none_iff.mpr hnot

example : (ofNames ["x", "y", "x", "z"]).find? "z" = some 2 := by decide

/-! ### Indices from elsewhere -/

/-- One more pair is one more request for its index. -/
theorem ofPairs_concat (pairs : List (String × Nat)) (pair : String × Nat) :
    ofPairs (pairs ++ [pair]) = (ofPairs pairs).add pair.1 pair.2 := by
  rw [ofPairs, List.foldl_concat]
  rfl

/-- A name has the index of the first pair of this name. -/
theorem find?_ofPairs (pairs : List (String × Nat)) (name : String) :
    (ofPairs pairs).find? name = (pairs.find? (·.1 = name)).map (·.2) := by
  induction pairs using List.reverseRecOn with
  | nil => rfl
  | append_singleton pairs pair ih =>
    rw [ofPairs_concat, Registry.find?_add, ih, List.find?_append]
    cases pairs.find? (·.1 = name) with
    | some first => rfl
    | none =>
      by_cases h : name = pair.1
      · simp [h]
      · simp [h, Ne.symm h]

/-- Each name is listed once, in the order of the first pairs. -/
theorem names_ofPairs (pairs : List (String × Nat)) :
    (ofPairs pairs).names = (pairs.map (·.1)).eraseDups := by
  induction pairs using List.reverseRecOn with
  | nil => rfl
  | append_singleton pairs pair ih =>
    rw [ofPairs_concat, Registry.names_add, ih, List.map_append, List.map_cons, List.map_nil,
      eraseDups_concat]
    simp only [List.mem_eraseDups]

/-- Pairs without repeated names are listed as they are. -/
theorem rows_ofPairs_of_nodup {pairs : List (String × Nat)} (h : (pairs.map (·.1)).Nodup) :
    (ofPairs pairs).rows = pairs := by
  induction pairs using List.reverseRecOn with
  | nil => rfl
  | append_singleton pairs pair ih =>
    rw [List.map_append, List.nodup_append] at h
    obtain ⟨hpairs, -, hnew⟩ := h
    have habsent : (ofPairs pairs).find? pair.1 = none := by
      rw [Registry.find?_eq_none_iff, names_ofPairs, List.mem_eraseDups]
      intro hmem
      exact hnew _ hmem _ (by simp) rfl
    rw [ofPairs_concat, Registry.rows_add habsent, ih hpairs]

/-- The different names with their places give the block that numbers the names itself. -/
theorem ofPairs_zipIdx_eraseDups (names : List String) :
    ofPairs names.eraseDups.zipIdx = ofNames names := by
  have hnodup : (names.eraseDups.zipIdx.map (·.1)).Nodup := by
    rw [List.zipIdx_map_fst]
    exact nodup_eraseDups names
  exact Registry.ext ((rows_ofPairs_of_nodup hnodup).trans (rows_ofNames names).symm)

/-- In a block of names, the number of a name is the number of different names before its first
mention. So the numbers in use are those below the number of different names, each for one name.
What is around the block does not matter for the names of the block.

The same block comes from the different names with their places. A block with indices from
elsewhere has the index of the first pair for each name, and as many variables as there are
different names. -/
theorem numbered_by_first_mention (names : List String) :
    (∀ name, (ofNames names).find? name =
      if name ∈ names then some (mentionedBefore names name) else none)
    ∧ (∀ index, (∃ name, (ofNames names).find? name = some index) ↔
        index < (ofNames names).size)
    ∧ (∀ index, (∃! name, (ofNames names).find? name = some index) ↔
        index < (ofNames names).size)
    ∧ (ofNames names).size = names.toFinset.card
    ∧ (∀ (w : World) (enclosing : Scope) name,
        w.resolve (.block (ofNames names) enclosing) name =
          if name ∈ names then .localVar (mentionedBefore names name)
          else w.resolve enclosing name)
    ∧ (∀ (w : World) name, w.resolve (.looseBlock (ofNames names)) name =
          if name ∈ names then .localVar (mentionedBefore names name) else .address name)
    ∧ ofPairs names.eraseDups.zipIdx = ofNames names
    ∧ ∀ pairs : List (String × Nat),
        (∀ name, (ofPairs pairs).find? name = (pairs.find? (·.1 = name)).map (·.2))
        ∧ (ofPairs pairs).size = (pairs.map (·.1)).toFinset.card := by
  have hrange : ∀ index, (∃ name, (ofNames names).find? name = some index) ↔
      index < (ofNames names).size := by
    intro index
    rw [← exists_find?_ofNames_iff]
    constructor
    · rintro ⟨name, hname⟩
      refine ⟨name, ?_, hname⟩
      by_contra hnot
      rw [find?_ofNames_eq_none_iff.mpr hnot] at hname
      simp at hname
    · rintro ⟨name, -, hname⟩
      exact ⟨name, hname⟩
  refine ⟨find?_ofNames names, hrange, ?_, ?_, ?_, ?_, ofPairs_zipIdx_eraseDups names, ?_⟩
  · intro index
    rw [← hrange]
    constructor
    · exact ExistsUnique.exists
    · rintro ⟨name, hname⟩
      refine ⟨name, hname, ?_⟩
      intro other hother
      exact find?_ofNames_injective hother hname
  · rw [size_ofNames, length_eraseDups]
  · intro w enclosing name
    by_cases hmem : name ∈ names <;> simp [World.resolve, find?_ofNames, hmem]
  · intro w name
    by_cases hmem : name ∈ names <;> simp [World.resolve, find?_ofNames, hmem]
  · intro pairs
    refine ⟨find?_ofPairs pairs, ?_⟩
    have hsize : (ofPairs pairs).size = (ofPairs pairs).names.length := by
      rw [Registry.names, List.length_map, Registry.size]
    rw [hsize, names_ofPairs, length_eraseDups]

end Locals

end ScopeLayout
