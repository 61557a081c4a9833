import ScopeLayout.Identity

/-!
# `ScopeLayout.Store`: the shared things of one kind

A `Store` holds the things of one kind by their identities. A thing is made at
the end and never removed, so an identity that was given out stays good. An
identity that was never given out refers to nothing, and `Store.at?` says so
with `none`.

The view is `at?`. A change is seen at its own identity and nowhere else
(`at?_change`), and making a thing leaves those that exist alone (`at?_make`).
-/

set_option autoImplicit false

namespace ScopeLayout

/-- The things of one kind, in the order in which they were made. -/
structure Store (kind : Kind) (α : Type) where
  things : Array α := #[]
deriving DecidableEq, Repr

namespace Store

variable {kind : Kind} {α : Type}

/-- The number of things. -/
def size (store : Store kind α) : Nat := store.things.size

/-- The thing of an identity. -/
def at? (store : Store kind α) (i : Identity kind) : Option α := store.things[i.index]?

/-- Changes one thing. -/
def change (store : Store kind α) (i : Identity kind) (f : α → α) : Store kind α :=
  ⟨store.things.modify i.index f⟩

/-- Makes a thing. -/
def make (store : Store kind α) (thing : α) : Store kind α := ⟨store.things.push thing⟩

/-- The identity of the thing that is made next. -/
def next (store : Store kind α) : Identity kind := ⟨store.size⟩

/-- Where nothing was made, nothing is found. -/
@[simp] theorem at?_empty (i : Identity kind) : ({} : Store kind α).at? i = none := rfl

/-- A change shows at its identity and at no other. -/
theorem at?_change (store : Store kind α) (changed i : Identity kind) (f : α → α) :
    (store.change changed f).at? i =
      if i = changed then (store.at? i).map f else store.at? i := by
  obtain ⟨k⟩ := changed
  obtain ⟨j⟩ := i
  by_cases h : k = j
  · simp [at?, change, Array.getElem?_modify, h]
  · simp [at?, change, Array.getElem?_modify, h, Ne.symm h]

/-- A new thing is found under the identity after all others. -/
theorem at?_make (store : Store kind α) (made : α) (i : Identity kind) :
    (store.make made).at? i = if i.index = store.size then some made else store.at? i :=
  Array.getElem?_push

/-- A change makes nothing. -/
@[simp] theorem size_change (store : Store kind α) (i : Identity kind) (f : α → α) :
    (store.change i f).size = store.size :=
  Array.size_modify

/-- Making a thing adds one. -/
@[simp] theorem size_make (store : Store kind α) (made : α) :
    (store.make made).size = store.size + 1 :=
  Array.size_push made

/-- Only identities below the number of things are given out. -/
theorem index_lt {store : Store kind α} {i : Identity kind} {thing : α}
    (found : store.at? i = some thing) : i.index < store.size :=
  (Array.getElem?_eq_some_iff.mp found).1

/-- A thing that is found is not the one that is made next. -/
theorem index_ne_size {store : Store kind α} {i : Identity kind} {thing : α}
    (found : store.at? i = some thing) : i.index ≠ store.size :=
  Nat.ne_of_lt (index_lt found)

/-- Identities from the number of things on refer to nothing. -/
theorem at?_eq_none_iff {store : Store kind α} {i : Identity kind} :
    store.at? i = none ↔ store.size ≤ i.index :=
  Array.getElem?_eq_none_iff

/-- A change that leaves what stands at its identity leaves all. -/
theorem change_eq_self {store : Store kind α} {i : Identity kind} {f : α → α}
    (h : ∀ thing, store.at? i = some thing → f thing = thing) : store.change i f = store := by
  have hthings : store.things.modify i.index f = store.things := by
    apply Array.ext
    · exact Array.size_modify
    · intro j hj _
      have hlt : j < store.things.size := by simpa using hj
      rw [Array.getElem_modify]
      split
      · rename_i hij
        exact h _ (hij ▸ Array.getElem?_eq_getElem hlt)
      · rfl
  rw [change, hthings]

end Store

end ScopeLayout
