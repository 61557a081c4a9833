/-!
# `ScopeLayout.Signature`: the parameters of a function

A function, method or block takes its arguments by position. Two parameters may
bear one name. The first of them is then the one that the name denotes.
-/

set_option autoImplicit false

namespace ScopeLayout

/-- How a parameter takes arguments. -/
inductive ParameterKind where
  -- Takes exactly one argument.
  | required
  -- Takes all arguments that are left.
  | rest
deriving DecidableEq, Repr

/-- A named parameter. -/
structure Parameter where
  -- The name that the body uses.
  name : String
  kind : ParameterKind := .required
deriving DecidableEq, Repr

/-- The head of a function: its name, if it has one, and its parameters in order. -/
structure Signature where
  -- Blocks and anonymous functions have no name.
  name? : Option String := none
  parameters : List Parameter := []
deriving DecidableEq, Repr

namespace Signature

/-- The signature in which each of the names takes one argument. -/
def ofNames (name? : Option String) (names : List String) : Signature :=
  { name?, parameters := names.map fun name => { name } }

/-- The number of arguments that every call passes. -/
def arity (signature : Signature) : Nat :=
  signature.parameters.countP (·.kind = .required)

/-- Whether the last parameter takes the arguments that are left. -/
def isVariadic (signature : Signature) : Bool :=
  signature.parameters.getLast?.any (·.kind = .rest)

/-- The position of the first parameter of this name. -/
def position? (signature : Signature) (name : String) : Option Nat :=
  signature.parameters.findIdx? (·.name = name)

end Signature

end ScopeLayout
