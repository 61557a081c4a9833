import ScopeLayout.World.Basic

/-!
# `ScopeLayout.World.Lineage`: what a class has from its ancestors

A class inherits along its lineage: the class itself, the class it extends, the
class that one extends, up to the root of the hierarchy. Methods are looked up
there and not copied, so a method that an ancestor gets later is seen as well.

Two readings of the lineage exist. `World.method?` looks for one name and stops
at the nearest definition. `World.dispatchTable` begins at the root and lays the
definitions of each class over the table of the class it extends.
-/

set_option autoImplicit false

namespace ScopeLayout

namespace World

/-- The class that a class extends. -/
def parent? (w : World) (c : ClassId) : Option ClassId := (w.classAt? c).bind (·.parent?)

/-- A class and its ancestors, nearest first. A class is made after the class it extends, so
the walk goes from later to earlier classes and ends. -/
def lineage (w : World) (c : ClassId) : List ClassId :=
  match w.parent? c with
  | none => [c]
  | some p => if p.index < c.index then c :: w.lineage p else [c]
termination_by c.index

/-- The root of the hierarchy of a class. -/
def root (w : World) (c : ClassId) : ClassId := (w.lineage c).getLastD c

/-- The methods that a class defines itself. -/
def ownMethods (w : World) (c : ClassId) : Registry Method :=
  ((w.classAt? c).map (·.methods)).getD .empty

/-- The method that a name selects in a class: its own, or that of the nearest ancestor that
defines one. -/
def method? (w : World) (c : ClassId) (name : String) : Option Method :=
  (w.lineage c).findSome? fun ancestor => (w.ownMethods ancestor).find? name

/-- A table with the methods of one more class: they replace those of their names and stand
behind the others, until all are sorted by slot. -/
def overlay (inherited own : List Method) : List Method :=
  ((Registry.empty.putAll Method.name inherited).putAll Method.name own).values.mergeSort
    fun a b => decide (a.slot ≤ b.slot)

/-- The dispatch table of a class: its methods, inherited ones too, by slot. -/
def dispatchTable (w : World) (c : ClassId) : List Method :=
  (w.lineage c).foldr (fun ancestor inherited => overlay inherited (w.ownMethods ancestor).values)
    []

/-- The place of a field in the instances of a class. -/
def fieldIndex? (w : World) (c : ClassId) (field : String) : Option Nat :=
  (w.classAt? c).bind (·.fields.indexOf? field)

/-- The name of the class that a class extends. -/
def superclassName? (w : World) (c : ClassId) : Option String :=
  ((w.parent? c).bind w.classAt?).map (·.name)

/-- All that can be seen of a class. -/
structure ClassView where
  -- The name it was made with.
  name : String
  superclass? : Option String
  -- The fields of an instance, by slot.
  fields : List String
  -- Whether another class extends it.
  extended : Bool
  dispatch : List Method
  -- The slots that its class object takes: those of the header and of all names of the
  -- hierarchy.
  size : UInt64
deriving DecidableEq, Repr

/-- The view of a class. -/
def view? (w : World) (c : ClassId) : Option ClassView := do
  let body ← w.classAt? c
  let numbering ← w.numberingAt? body.numbering
  some {
    name := body.name
    superclass? := w.superclassName? c
    fields := body.fields.names
    extended := body.extended
    dispatch := w.dispatchTable c
    size := numbering.next }

/-- The view of a class that exists and has its numbering. -/
theorem view?_of_found {w : World} {c : ClassId} {body : ClassBody} {numbering : Numbering}
    (found : w.classAt? c = some body) (numbered : w.numberingAt? body.numbering = some numbering) :
    w.view? c = some {
      name := body.name
      superclass? := w.superclassName? c
      fields := body.fields.names
      extended := body.extended
      dispatch := w.dispatchTable c
      size := numbering.next } := by
  simp [view?, found, numbered]

/-- The lineage of a class that extends nothing. -/
theorem lineage_of_root {w : World} {c : ClassId} (h : w.parent? c = none) :
    w.lineage c = [c] := by
  rw [lineage, h]

/-- The lineage of a class begins with the class and goes on with that of the class it
extends. -/
theorem lineage_of_child {w : World} {c p : ClassId} (h : w.parent? c = some p)
    (earlier : p.index < c.index) : w.lineage c = c :: w.lineage p := by
  rw [lineage, h]
  simp [earlier]

end World

end ScopeLayout
