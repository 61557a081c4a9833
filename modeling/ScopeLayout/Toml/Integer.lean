import ScopeLayout.Toml.Character

/-!
# `ScopeLayout.Toml.Integer`: the integers of TOML

A decimal integer may have a sign and has no leading zero. An integer in base
two, eight or sixteen begins with `0b`, `0o` or `0x`, has no sign, and may have
leading zeros. Single underscores may stand between digits. An integer must fit
64 bits with sign.
-/

set_option autoImplicit false

namespace ScopeLayout.Toml

namespace Integer

/-- The digits of a number, between two of which one underscore may stand. -/
def digits? (base : Nat) : List Char → Option (List Nat)
  | [] => none
  | [c] => (digit? base c).map ([·])
  | c :: '_' :: rest => do
    let first ← digit? base c
    let others ← digits? base rest
    some (first :: others)
  | c :: next :: rest => do
    let first ← digit? base c
    let others ← digits? base (next :: rest)
    some (first :: others)

/-- A number in a base other than ten. -/
def based? (base : Nat) (cs : List Char) : Option Nat := (digits? base cs).map (ofDigits base)

/-- A decimal number. It begins with zero only if it is zero. -/
def decimal? (cs : List Char) : Option Nat := do
  let digits ← digits? 10 cs
  if digits.head? = some 0 && digits.length ≠ 1 then none else some (ofDigits 10 digits)

/-- An integer of any size. -/
def unbounded? : List Char → Option Int
  | '0' :: 'x' :: cs => (based? 16 cs).map Int.ofNat
  | '0' :: 'o' :: cs => (based? 8 cs).map Int.ofNat
  | '0' :: 'b' :: cs => (based? 2 cs).map Int.ofNat
  | '+' :: cs => (decimal? cs).map Int.ofNat
  | '-' :: cs => (decimal? cs).map fun n => -Int.ofNat n
  | cs => (decimal? cs).map Int.ofNat

/-- Whether an integer fits 64 bits with sign. -/
def Fits (i : Int) : Prop := -9223372036854775808 ≤ i ∧ i ≤ 9223372036854775807

instance (i : Int) : Decidable (Fits i) := inferInstanceAs (Decidable (_ ∧ _))

/-- Reads an integer. -/
def parse? (cs : List Char) : Option Int :=
  (unbounded? cs).filter fun i => decide (Fits i)

/-- The decimal spelling of an integer. -/
def spell : Int → List Char
  | .ofNat n => Nat.toDigits 10 n
  | .negSucc n => '-' :: Nat.toDigits 10 (n + 1)

end Integer

end ScopeLayout.Toml
