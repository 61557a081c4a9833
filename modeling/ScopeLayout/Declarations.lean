import ScopeLayout.Identity
import ScopeLayout.Registry

/-!
# `ScopeLayout.Declarations`: the classes declared in a program

A program declares a class once and may reopen it as often as it likes. The
list of declarations knows each class by its name and keeps the order in which
the names came.
-/

set_option autoImplicit false

namespace ScopeLayout

/-- The classes declared at one module level. -/
structure Declarations where
  -- The module level whose globals the classes become.
  globals : GlobalsId
  -- The classes by name, in the order of declaration.
  classes : Registry ClassId
deriving DecidableEq, Repr

/-- How the superclass of a class that has none is spelled where a name is expected. -/
def noSuperclass : String := "(none)"

end ScopeLayout
