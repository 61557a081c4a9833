/-!
# `ScopeLayout.CallSite`: the record of a compiled call

A call site records how the receiver is written, the name of the method, and
data for later stages. Dispatch slots belong to the method name alone, so
`CallSite.slotName` is all that the numbering of slots looks at.
-/

set_option autoImplicit false

namespace ScopeLayout

/-- How a call names its receiver. -/
inductive Receiver where
  -- The receiver is left out.
  | implicit
  -- The receiver is an expression.
  | explicit
  -- The call goes to the implementation of the superclass.
  | super
deriving DecidableEq, Repr

/-- A compiled call. -/
structure CallSite where
  receiver : Receiver
  method : String
  -- Data for later stages, in the order in which it was attached.
  extra : List String := []
deriving DecidableEq, Repr

namespace CallSite

/-- Attaches one more piece of data. -/
def attach (call : CallSite) (datum : String) : CallSite :=
  { call with extra := call.extra ++ [datum] }

/-- The name under which a call takes its dispatch slot. -/
def slotName (call : CallSite) : String := call.method

end CallSite

end ScopeLayout
