import ScopeLayout.Registry

/-!
# `ScopeLayout.Locals`: the variables of one block

A block gives each of its variables an index. `Locals.ofNames` numbers names in
the order of their first mention, so a repeated name takes no index of its own.
`Locals.ofPairs` takes indices that were chosen elsewhere, the first of them for
a repeated name.
-/

set_option autoImplicit false

namespace ScopeLayout

/-- The variables of one block with their indices. -/
abbrev Locals := Registry Nat

namespace Locals

/-- The variables with given indices. A name that is repeated has its first index. -/
def ofPairs (pairs : List (String × Nat)) : Locals :=
  pairs.foldl (fun locals pair => locals.add pair.1 pair.2) Registry.empty

/-- The variables numbered from zero, in the order of first mention. -/
def ofNames (names : List String) : Locals :=
  names.foldl (fun locals name => locals.add name locals.size) Registry.empty

end Locals

end ScopeLayout
