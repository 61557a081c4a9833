/-!
# `ScopeLayout.Referent`: what a name denotes

A `Referent` is the answer to "what is this name, seen from here?". It says
where the code generator finds the value, or that the name is to be sent as a
method call because nothing binds it. `Referent.listing` is the form that
listings show: a keyword, one space, and the number or text.
-/

set_option autoImplicit false

namespace ScopeLayout

/-- What a name denotes at a place in the program. -/
inductive Referent where
  -- A variable of a block, at this index of the block that binds it.
  | localVar (index : Nat)
  | argument (position : Nat)
  -- A field of the receiver, at this slot of the instance.
  | field (slot : Nat)
  | global (name : String)
  -- A class variable, kept as a global under this key.
  | classVar (key : String)
  -- A storage cell known by its name alone, where no scope is around.
  | address (name : String)
  -- Bound by nothing: sent to the receiver as a method call.
  | methodCall (name : String)
deriving DecidableEq, Repr

namespace Referent

/-- Whether the decision is left to the run: only unbound names are deferred. -/
def isDeferred : Referent → Bool
  | .methodCall _ => true
  | _ => false

/-- The form in listings. -/
def listing : Referent → String
  | .localVar index => "lvar " ++ Nat.repr index
  | .argument position => "arg " ++ Nat.repr position
  | .field slot => "ivar " ++ Nat.repr slot
  | .global name => "global " ++ name
  | .classVar key => "classvar " ++ key
  | .address name => "addr " ++ name
  | .methodCall name => "callm " ++ name

end Referent

end ScopeLayout
