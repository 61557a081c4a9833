import ScopeLayout.Settings
import ScopeLayout.Toml.Document

/-!
# `ScopeLayout.Settings.Document`: layout settings as a text

Settings are kept in a flat TOML table with the keys `reserved_field_slots` and
`class_var_prefix`. A key that is left out keeps its standard value, and a key
of any other name is refused. The number of header slots is an integer from
zero up, the prefix a text.

`Settings.ofToml` is a reader of such texts for `Settings.read`. It says nothing
of the prefix that it reads, so a table that is wrong anywhere is malformed even
if its prefix is empty.
-/

set_option autoImplicit false

namespace ScopeLayout

namespace Settings

/-- The key of the number of header slots. -/
def headerKey : String := "reserved_field_slots"

/-- The key of the prefix of class-variable keys. -/
def prefixKey : String := "class_var_prefix"

/-- Takes over one entry of a table. -/
def assign (settings : Settings) (entry : Toml.Entry) : Option Settings :=
  if entry.key = headerKey then
    match entry.value with
    | .int value =>
      if 0 ≤ value then some { settings with headerSlots := UInt64.ofNat value.toNat } else none
    | .text _ => none
  else if entry.key = prefixKey then
    match entry.value with
    | .int _ => none
    | .text value => some { settings with classVarPrefix := value }
  else none

/-- The settings of a table. What it does not say is standard. -/
def ofEntries (entries : List Toml.Entry) : Option Settings := entries.foldlM assign standard

/-- Reads a table of settings. -/
def ofToml (source : String) : Except String Settings :=
  match (Toml.Document.read source).bind ofEntries with
  | none => .error "not a flat table of layout settings"
  | some settings => .ok settings

/-- The entry for the number of header slots. -/
def headerEntry (headerSlots : UInt64) : Toml.Entry :=
  { key := headerKey, value := .int headerSlots.toNat }

/-- The entry for the prefix. -/
def prefixEntry (classVarPrefix : String) : Toml.Entry :=
  { key := prefixKey, value := .text classVarPrefix }

/-- The table that says everything about the settings. -/
def entries (settings : Settings) : List Toml.Entry :=
  [headerEntry settings.headerSlots, prefixEntry settings.classVarPrefix]

/-- Writes settings. -/
def write (settings : Settings) : String := Toml.Document.write settings.entries

end Settings

end ScopeLayout
