import ScopeLayout.Refusal

/-!
# `ScopeLayout.Settings`: what a target machine fixes about the layout

Two things differ between target machines: how many slots of a class object
come before its dispatch table, and with which text the key of a class variable
begins. The number of slots is a machine word, and nothing bounds it further.
`Settings.check` refuses the one value that would make such keys look like other
globals, the empty prefix.

Settings can be kept in a text. Which text says what is the business of a
reader. `Settings.read` takes over what the reader says and checks it, so the
prefix is looked at only after the text was read as a whole.
-/

set_option autoImplicit false

namespace ScopeLayout

/-- The layout settings of one compilation. -/
structure Settings where
  -- The slots of a class object that lie before its dispatch table.
  headerSlots : UInt64 := 4
  -- The text with which the key of every class variable begins.
  classVarPrefix : String := "__classvar__"
deriving DecidableEq, Repr

namespace Settings

/-- The settings of the standard target: a header of four slots. -/
def standard : Settings := {}

/-- Refuses settings under which class-variable keys begin with nothing. -/
def check (settings : Settings) : Except Refusal Unit :=
  if settings.classVarPrefix = "" then .error (.badSettings .emptyPrefix) else .ok ()

/-- Reads settings from a text that a reader understands. Where the reader fails, its message
stands in the refusal. -/
def read (reader : String → Except String Settings) (source : String) :
    Except Refusal Settings :=
  match reader source with
  | .error message => .error (.badSettings (.malformed message))
  | .ok settings => settings.check.map fun _ => settings

/-- Only the empty prefix is refused. -/
theorem check_eq_ok_iff {settings : Settings} :
    settings.check = .ok () ↔ settings.classVarPrefix ≠ "" := by
  unfold check
  split <;> simp_all

end Settings

end ScopeLayout
