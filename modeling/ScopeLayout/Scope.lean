import ScopeLayout.Identity
import ScopeLayout.Locals
import ScopeLayout.Signature

/-!
# `ScopeLayout.Scope`: places in the nesting of a program

A `Scope` is a place from which names are looked up. Blocks and functions are
values: what they bind is fixed when they are made. Module-level scopes and
classes grow while the program is read, so a scope refers to them by identity.

Going outwards from a scope, one meets blocks and functions (`Scope.frames`)
and then exactly one end (`Scope.outermost`): a module, a class, or nothing.
-/

set_option autoImplicit false

namespace ScopeLayout

/-- A place in the nesting of a program. -/
inductive Scope where
  | globals (g : GlobalsId)
  | classBody (c : ClassId)
  -- The body of a function, which sees the scope it was written in.
  | function (signature : Signature) (definedIn : Scope)
  -- A block within another scope.
  | block (locals : Locals) (enclosing : Scope)
  -- A block without anything around it.
  | looseBlock (locals : Locals)
deriving DecidableEq, Repr

/-- The four kinds of scope. -/
inductive ScopeKind where
  | globals
  | function
  | block
  | classBody
deriving DecidableEq, Repr

/-- The innermost bindings of a function or block, without what is around it. -/
inductive Frame where
  | parameters (signature : Signature)
  | locals (locals : Locals)
deriving DecidableEq, Repr

/-- Where the way outwards ends: at a module level, in a class, or in a block that nothing
encloses. -/
inductive Outermost where
  | globals (g : GlobalsId)
  | classBody (c : ClassId)
  | nothing
deriving DecidableEq, Repr

namespace Scope

/-- The kind of a scope. -/
def kind : Scope → ScopeKind
  | .globals _ => .globals
  | .classBody _ => .classBody
  | .function _ _ => .function
  | .block _ _ => .block
  | .looseBlock _ => .block

/-- The functions and blocks that one meets on the way outwards, innermost first. -/
def frames : Scope → List Frame
  | .globals _ => []
  | .classBody _ => []
  | .function signature definedIn => .parameters signature :: definedIn.frames
  | .block locals enclosing => .locals locals :: enclosing.frames
  | .looseBlock locals => [.locals locals]

/-- The end of the way outwards. -/
def outermost : Scope → Outermost
  | .globals g => .globals g
  | .classBody c => .classBody c
  | .function _ definedIn => definedIn.outermost
  | .block _ enclosing => enclosing.outermost
  | .looseBlock _ => .nothing

end Scope

/-- A function together with the scope it was written in. -/
structure Procedure where
  signature : Signature
  -- The scope around the definition, which is not the scope of the caller.
  definedIn : Scope
deriving DecidableEq, Repr

/-- The scope inside a function. -/
def Procedure.scope (procedure : Procedure) : Scope :=
  .function procedure.signature procedure.definedIn

end ScopeLayout
