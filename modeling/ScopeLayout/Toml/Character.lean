/-!
# `ScopeLayout.Toml.Character`: the character classes of TOML

The grammar of TOML 1.0 speaks of a few classes of characters. They are given
here for a text whose line ends are already single line feeds
(`unifyLineEnds`), so that a carriage return belongs to none of them.
-/

set_option autoImplicit false

namespace ScopeLayout.Toml

/-- Space and tab, which may stand between the parts of a line. -/
def isBlank (c : Char) : Bool := c = ' ' || c = '\t'

/-- The characters that stand for themselves in comments and texts: the tab, and all that are
no control characters. The controls from U+0080 on count as ordinary characters. -/
def isPrintable (c : Char) : Bool := c = '\t' || (0x20 ≤ c.toNat && c.toNat ≠ 0x7F)

/-- The characters of a key without quotes. -/
def isBareKey (c : Char) : Bool := c.isAlphanum || c = '_' || c = '-'

/-- The value of a digit in a base of at most sixteen. -/
def digit? (base : Nat) (c : Char) : Option Nat :=
  let value? :=
    if '0' ≤ c && c ≤ '9' then some (c.toNat - '0'.toNat)
    else if 'a' ≤ c && c ≤ 'f' then some (c.toNat - 'a'.toNat + 10)
    else if 'A' ≤ c && c ≤ 'F' then some (c.toNat - 'A'.toNat + 10)
    else none
  value?.filter (· < base)

/-- The number that a list of digits spells, most significant first. -/
def ofDigits (base : Nat) (digits : List Nat) : Nat :=
  digits.foldl (fun value digit => value * base + digit) 0

/-- Turns each carriage return with the line feed behind it into the line feed. A carriage
return that stands alone occurs nowhere in the grammar, so a text that has one is refused. -/
def unifyLineEnds : List Char → Option (List Char)
  | [] => some []
  | '\r' :: '\n' :: rest => (unifyLineEnds rest).map ('\n' :: ·)
  | c :: rest => if c = '\r' then none else (unifyLineEnds rest).map (c :: ·)

/-- A text without carriage returns is left as it is. -/
theorem unifyLineEnds_of_not_mem {s : List Char} (h : '\r' ∉ s) : unifyLineEnds s = some s := by
  fun_induction unifyLineEnds s with
  | case1 => rfl
  | case2 rest ih => simp at h
  | case3 rest => simp at h
  | case4 c rest _ hc ih =>
    rw [ih fun hmem => h (List.mem_cons_of_mem _ hmem)]
    rfl

end ScopeLayout.Toml
