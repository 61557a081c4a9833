/-!
# `ScopeLayout.Identity`: names for things that are shared and change

Several scopes refer to one registry of globals, several classes to one
numbering of slots. What changes through one reference is seen through all, so
a reference is an identity and not a copy. Identities count from zero in the
order in which a `World` made the things, separately for each kind of thing.
-/

set_option autoImplicit false

namespace ScopeLayout

/-- The kinds of things that are shared. -/
inductive Kind where
  | globals
  | numbering
  | classBody
  | declarations
deriving DecidableEq, Repr

/-- Refers to a thing of one kind. -/
structure Identity (kind : Kind) where
  index : Nat
deriving DecidableEq, Repr

/-- Refers to a module-level scope. -/
abbrev GlobalsId := Identity .globals

/-- Refers to the slot numbering of a hierarchy. -/
abbrev NumberingId := Identity .numbering

/-- Refers to a class. -/
abbrev ClassId := Identity .classBody

/-- Refers to a list of declared classes. -/
abbrev DeclarationsId := Identity .declarations

end ScopeLayout
