import ScopeLayout.Identity
import ScopeLayout.Refusal

/-!
# `ScopeLayout.World.Answer`: what a request is answered with

Every request to a `World` has one answer. A refusal is an answer like any
other: requests that come later are not affected by it.
-/

set_option autoImplicit false

namespace ScopeLayout

/-- The answer to a request. -/
inductive Answer where
  -- The thing that was made or found.
  | globals (g : GlobalsId)
  | numbering (n : NumberingId)
  | classBody (c : ClassId)
  | declarations (t : DeclarationsId)
  -- Whether the request registered something new.
  | registered (isNew : Bool)
  | slot (index : UInt64)
  -- No class is declared under this name.
  | undeclared
  | refused (refusal : Refusal)
  -- The request refers to a thing that was never made.
  | dangling
deriving DecidableEq, Repr

/-- The answer to a request for the slot of a name. -/
def Answer.ofSlot : Except Refusal UInt64 → Answer
  | .ok found => .slot found
  | .error refusal => .refused refusal

end ScopeLayout
