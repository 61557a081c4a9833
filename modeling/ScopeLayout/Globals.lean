import ScopeLayout.Referent
import ScopeLayout.Roster
import ScopeLayout.Settings

/-!
# `ScopeLayout.Globals`: the names of a module

The module level knows the globals of a program and the settings of its layout.
A name that it does not know may still be a method, so it denotes a method call.
-/

set_option autoImplicit false

namespace ScopeLayout

/-- The constants that every module knows from the start. -/
def predefinedGlobals : List String := ["true", "false", "nil"]

/-- The module level of a program. -/
structure Globals where
  -- The registered names, in the order of registration.
  names : Roster
  -- The layout settings, fixed when the module level is made.
  settings : Settings
deriving DecidableEq, Repr

namespace Globals

/-- A module level that knows the constants only. -/
def fresh (settings : Settings) : Globals where
  names := { names := predefinedGlobals }
  settings := settings

/-- Registers a name. -/
def register (globals : Globals) (name : String) : Globals :=
  { globals with names := globals.names.insert name }

/-- What a name denotes at the module level. -/
def resolve (globals : Globals) (name : String) : Referent :=
  if name ∈ globals.names then .global name else .methodCall name

end Globals

end ScopeLayout
