import ScopeLayout.CallSite
import ScopeLayout.Registry
import ScopeLayout.Settings

/-!
# `ScopeLayout.Numbering`: the dispatch slots of one hierarchy

All classes of a hierarchy keep their methods at the same places of the class
object, so that a call can pick the place before it knows the class. A
`Numbering` gives every method name its slot:

    0 … header - 1   the header of the class object
    header           `new`
    header + 1       `__send__`
    header + 2       kept free
    header + 3 …     all other names, in the order of their first request

A name keeps the slot it has, and a new name gets the next one
(`slot?_allocate`, `allocate_of_contains`). Slots are machine words, and adding
to a slot wraps around: behind a header near the last word, the names of the
program stand at the lowest slots.
-/

set_option autoImplicit false

namespace ScopeLayout

/-- The name of the method that makes instances. Every class has it. -/
def constructorName : String := "new"

/-- The name of the method that sends a message whose name is computed. Every class has it. -/
def senderName : String := "__send__"

/-- The slots that lie between the header and the first name of the program: the two methods
that every class has, and one that is kept free. -/
def builtinSlots : UInt64 := 3

/-- The dispatch slots handed out so far. -/
structure Numbering where
  -- The slots of the header, which no method takes.
  header : UInt64
  -- The slot of each name, in the order of first request.
  slots : Registry UInt64
  -- The slot that is handed out next.
  next : UInt64
deriving DecidableEq, Repr

namespace Numbering

/-- The numbering of a new hierarchy. -/
def fresh (settings : Settings) : Numbering where
  header := settings.headerSlots
  slots :=
    { rows := [(constructorName, settings.headerSlots), (senderName, settings.headerSlots + 1)]
      distinct := by simp [constructorName, senderName] }
  next := settings.headerSlots + builtinSlots

/-- The slot of a name that has one. -/
def slot? (numbering : Numbering) (name : String) : Option UInt64 := numbering.slots.find? name

/-- Whether a name has a slot. -/
def contains (numbering : Numbering) (name : String) : Bool := numbering.slots.contains name

/-- The slot that a request for the name is answered with: its own, or the next free one. -/
def slotFor (numbering : Numbering) (name : String) : UInt64 :=
  (numbering.slot? name).getD numbering.next

/-- Hands out the next slot to a name that has none. -/
def allocate (numbering : Numbering) (name : String) : Numbering :=
  if numbering.contains name then numbering
  else
    { numbering with
      slots := numbering.slots.add name numbering.next
      next := numbering.next + 1 }

/-- The slot of a name that must have one. -/
def demand (numbering : Numbering) (name : String) : Except Refusal UInt64 :=
  match numbering.slot? name with
  | some slot => .ok slot
  | none => .error (.unallocatedSlot name)

/-- The names with their slots, by slot. -/
def entries (numbering : Numbering) : List (String × UInt64) :=
  numbering.slots.rows.mergeSort fun a b => decide (a.2 ≤ b.2)

/-- After a request, the name has the slot of the answer and every other name has its old one. -/
theorem slot?_allocate (numbering : Numbering) (key name : String) :
    (numbering.allocate key).slot? name =
      if name = key then some (numbering.slotFor key) else numbering.slot? name := by
  unfold allocate
  split
  · rename_i h
    obtain ⟨slot, hslot⟩ := Registry.contains_eq_true_iff.mp h
    by_cases hn : name = key
    · simp [hn, slotFor, slot?, hslot]
    · simp [hn]
  · rename_i h
    have hnone : numbering.slots.find? key = none := by
      simpa [contains, Registry.contains] using h
    by_cases hn : name = key
    · simp [slot?, slotFor, Registry.find?_add, hn, hnone]
    · simp [slot?, Registry.find?_add, hn]

/-- A request never moves the header. -/
@[simp] theorem header_allocate (numbering : Numbering) (name : String) :
    (numbering.allocate name).header = numbering.header := by
  unfold allocate
  split <;> rfl

/-- A repeated request changes nothing. -/
theorem allocate_of_contains {numbering : Numbering} {name : String}
    (h : numbering.contains name = true) : numbering.allocate name = numbering :=
  if_pos h

end Numbering

end ScopeLayout
