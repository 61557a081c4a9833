import ScopeLayout.Identity
import ScopeLayout.Registry
import ScopeLayout.Roster

/-!
# `ScopeLayout.ClassBody`: what a class keeps of its own

A class lists its fields by slot, the inherited ones first, and the methods
that it defines itself. Inherited methods stay with the class that defines
them. As soon as a class is extended its fields are fixed, because the subclass
has placed its own behind them.
-/

set_option autoImplicit false

namespace ScopeLayout

/-- The hidden field that refers to the class of an instance. It is the first of every class. -/
def selfField : String := "@__class__"

/-- A method that a class defines. -/
structure Method where
  name : String
  -- Its place in the dispatch table.
  slot : UInt64
  -- The label of its code, once it is compiled.
  label? : Option String := none
deriving DecidableEq, Repr

/-- A class. -/
structure ClassBody where
  -- The name it was made with.
  name : String
  -- The module level around it.
  globals : GlobalsId
  parent? : Option ClassId
  -- The slot numbering of its hierarchy.
  numbering : NumberingId
  -- The fields of an instance, by slot.
  fields : Roster
  -- The methods it defines itself.
  methods : Registry Method
  -- A method is registered under its own name.
  named : methods.Named Method.name
  -- How often it was extended.
  subclasses : Nat
deriving DecidableEq, Repr

namespace ClassBody

/-- A class that extends nothing and starts a hierarchy. -/
def root (name : String) (globals : GlobalsId) (numbering : NumberingId) : ClassBody where
  name := name
  globals := globals
  parent? := none
  numbering := numbering
  fields := { names := [selfField] }
  methods := .empty
  named := Registry.named_empty Method.name
  subclasses := 0

/-- A class that extends `parent`, whose body is `body`: it takes over the fields and shares
the module level and the numbering. -/
def child (name : String) (parent : ClassId) (body : ClassBody) : ClassBody where
  name := name
  globals := body.globals
  parent? := some parent
  numbering := body.numbering
  fields := body.fields
  methods := .empty
  named := Registry.named_empty Method.name
  subclasses := 0

/-- Whether another class extends it. -/
def extended (body : ClassBody) : Bool := decide (0 < body.subclasses)

/-- Counts one more class that extends it. -/
def extend (body : ClassBody) : ClassBody := { body with subclasses := body.subclasses + 1 }

/-- A class that was extended is. -/
@[simp] theorem extended_extend (body : ClassBody) : body.extend.extended = true := by
  simp [extended, extend]

/-- Adds a field behind all others. -/
def addField (body : ClassBody) (field : String) : ClassBody :=
  { body with fields := body.fields.insert field }

/-- Defines a method at a slot, without code. A method that is defined already stays as it is. -/
def define (body : ClassBody) (method : String) (slot : UInt64) : ClassBody :=
  { body with
    methods := body.methods.add method { name := method, slot }
    named := body.named.add rfl }

/-- Gives the code of a method that is defined. -/
def bind (body : ClassBody) (method label : String) : ClassBody :=
  { body with
    methods := body.methods.update method fun m => { m with label? := some label }
    named := body.named.update method fun _ => rfl }

end ClassBody

end ScopeLayout
