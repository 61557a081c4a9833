import ScopeLayout.Proofs.Toml.Lines
import ScopeLayout.Settings.Document

/-!
# `ScopeLayout.Proofs.SettingsDocument`: settings that are read as they are written

What a text says about the settings is decided by a reader, and `Settings.read` adds the
check. `ReadsToml` is what must be known of the reader. It reads documents with a line
for each entry into the settings that the entries describe (`Describes`), and it fails
if a key is given twice or is no key of a setting. It is a condition on written
documents only: what the reader makes of other texts is left open.

`read_written` follows for every such reader. It needs that documents are written in a
way that the reader understands, whatever characters the prefix has
(`Toml.Document.spells_write`), and that the check comes behind the reader.

`ofToml` is such a reader (`readsToml_ofToml`):

* `ofEntries_of_describes`: the entries of a table, taken over one after the other, give
  the settings that they describe.
* `ofEntries_of_foreign`: one entry of another key spoils the table, wherever it stands.
-/

set_option autoImplicit false

namespace ScopeLayout

open Toml (Entry)

namespace Settings

/-! ### Readers -/

/-- The table says just this about the settings.

- `taken`: each entry is for one of the two settings and has its value.
- `header` and `classVarPrefix`: a setting without entry is standard. -/
structure Describes (entries : List Entry) (settings : Settings) : Prop where
  taken : ∀ entry ∈ entries,
    entry = headerEntry settings.headerSlots ∨ entry = prefixEntry settings.classVarPrefix
  header : headerKey ∉ entries.map Entry.key → settings.headerSlots = standard.headerSlots
  classVarPrefix : prefixKey ∉ entries.map Entry.key →
    settings.classVarPrefix = standard.classVarPrefix

/-- What is known of a reader of settings: that it reads written documents as TOML, into the two
settings and nothing else.

- `described`: a table that gives no key twice is read into the settings that it describes.
- `repeated`: a table that gives a key twice is no table.
- `foreign`: neither is one with a key that belongs to no setting. -/
structure ReadsToml (reader : String → Except String Settings) : Prop where
  described : ∀ (entries : List Entry) (source : String) (settings : Settings),
    Toml.Document.Spells entries source.toList → (entries.map Entry.key).Nodup →
    Describes entries settings → reader source = .ok settings
  repeated : ∀ (entries : List Entry) (source : String),
    Toml.Document.Spells entries source.toList → ¬ (entries.map Entry.key).Nodup →
    ∃ message, reader source = .error message
  foreign : ∀ (entries : List Entry) (source : String),
    Toml.Document.Spells entries source.toList →
    (∃ entry ∈ entries, entry.key ≠ headerKey ∧ entry.key ≠ prefixKey) →
    ∃ message, reader source = .error message

/-! ### From entries to settings -/

/-- The two settings have separate keys. -/
theorem headerKey_ne : headerKey ≠ prefixKey := by decide

/-- The entry for the header sets it. -/
theorem assign_headerEntry (settings : Settings) (headerSlots : UInt64) :
    settings.assign (headerEntry headerSlots) = some { settings with headerSlots } := by
  simp [assign, headerEntry]

/-- The entry for the prefix sets it. -/
theorem assign_prefixEntry (settings : Settings) (classVarPrefix : String) :
    settings.assign (prefixEntry classVarPrefix) = some { settings with classVarPrefix } := by
  simp [assign, prefixEntry, headerKey_ne.symm]

/-- An entry of another key is refused, whatever was read before. -/
theorem assign_of_foreign {entry : Entry}
    (foreign : entry.key ≠ headerKey ∧ entry.key ≠ prefixKey) (settings : Settings) :
    settings.assign entry = none := by
  rw [assign, if_neg foreign.1, if_neg foreign.2]

/-- Entries that agree with some settings give these, and leave a setting without entry as it was
before. -/
theorem foldlM_assign {entries : List Entry} {settings : Settings}
    (taken : ∀ entry ∈ entries,
      entry = headerEntry settings.headerSlots ∨ entry = prefixEntry settings.classVarPrefix)
    (before : Settings) : entries.foldlM assign before = some {
      headerSlots :=
        if headerKey ∈ entries.map Entry.key then settings.headerSlots else before.headerSlots
      classVarPrefix :=
        if prefixKey ∈ entries.map Entry.key then settings.classVarPrefix
        else before.classVarPrefix } := by
  induction entries generalizing before with
  | nil => simp
  | cons entry entries ih =>
    have hrest := ih fun e he => taken e (List.mem_cons_of_mem _ he)
    rw [List.foldlM_cons]
    rcases taken entry List.mem_cons_self with rfl | rfl
    · rw [assign_headerEntry, Option.bind_eq_bind, Option.bind_some, hrest]
      simp [headerEntry, headerKey_ne.symm]
    · rw [assign_prefixEntry, Option.bind_eq_bind, Option.bind_some, hrest]
      simp [prefixEntry, headerKey_ne]

/-- A table gives the settings that it describes. -/
theorem ofEntries_of_describes {entries : List Entry} {settings : Settings}
    (h : Describes entries settings) : ofEntries entries = some settings := by
  rw [ofEntries, foldlM_assign h.taken]
  congr 2
  · split
    · rfl
    · rename_i absent
      exact (h.header absent).symm
  · split
    · rfl
    · rename_i absent
      exact (h.classVarPrefix absent).symm

/-- A table with an entry of another key is refused as a whole. -/
theorem ofEntries_of_foreign {entries : List Entry} {entry : Entry} (hmem : entry ∈ entries)
    (foreign : entry.key ≠ headerKey ∧ entry.key ≠ prefixKey) : ofEntries entries = none := by
  rw [ofEntries]
  -- The settings so far do not matter, and they change along the entries.
  generalize standard = settings
  induction entries generalizing settings with
  | nil => simp at hmem
  | cons first entries ih =>
    rw [List.foldlM_cons]
    rcases List.mem_cons.mp hmem with rfl | hmem
    · rw [assign_of_foreign foreign]
      rfl
    · cases settings.assign first with
      | none => rfl
      | some assigned => exact ih hmem assigned

/-- Where no settings come of a text, its reader has failed. -/
theorem ofToml_of_none {source : String}
    (h : (Toml.Document.read source).bind ofEntries = none) :
    ∃ message, ofToml source = .error message := by
  rw [ofToml, h]
  exact ⟨_, rfl⟩

/-- The reader of flat tables reads written documents as TOML. -/
theorem readsToml_ofToml : ReadsToml ofToml where
  described entries source settings spells distinct describes := by
    rw [ofToml, Toml.Document.read_of_spells spells, if_pos distinct, Option.bind_some,
      ofEntries_of_describes describes]
  repeated entries source spells repeated := by
    refine ofToml_of_none ?_
    rw [Toml.Document.read_of_spells spells, if_neg repeated]
    rfl
  foreign entries source spells := by
    rintro ⟨entry, hmem, foreign⟩
    refine ofToml_of_none ?_
    rw [Toml.Document.read_of_spells spells]
    split
    · exact ofEntries_of_foreign hmem foreign
    · rfl

/-! ### From written documents to settings -/

/-- The check lets all settings pass but those with an empty prefix. -/
theorem map_check (settings : Settings) : settings.check.map (fun _ => settings) =
    if settings.classVarPrefix = "" then .error (.badSettings .emptyPrefix) else .ok settings := by
  unfold check
  split
  · rfl
  · rfl

/-- The key of the header needs no quotes. -/
theorem isBare_headerKey : Toml.IsBare headerKey := Toml.isBare_iff.mpr (by decide)

/-- Neither does the key of the prefix. -/
theorem isBare_prefixKey : Toml.IsBare prefixKey := Toml.isBare_iff.mpr (by decide)

section

variable {reader : String → Except String Settings} {source : String}

/-- Settings that the reader gives are those that are read, if they pass the check. -/
theorem read_of_ok {settings : Settings} (taken : reader source = .ok settings) :
    read reader source = if settings.classVarPrefix = "" then .error (.badSettings .emptyPrefix)
      else .ok settings := by
  rw [read, taken, ← map_check]

/-- A failure of the reader is passed on with its message. -/
theorem read_of_error {message : String} (failed : reader source = .error message) :
    read reader source = .error (.badSettings (.malformed message)) := by
  rw [read, failed]

/-- Settings that were read pass the check. -/
theorem check_of_read {settings : Settings} (h : read reader source = .ok settings) :
    settings.check = .ok () := by
  unfold read at h
  split at h
  · cases h
  · rename_i taken _
    rw [map_check] at h
    split at h
    · cases h
    · rename_i nonempty
      cases h
      exact check_eq_ok_iff.mpr nonempty

variable {entries : List Entry}

/-- A written document with one line for each key gives the settings of its entries, if they pass
the check. -/
theorem ReadsToml.read_of_spells (reads : ReadsToml reader)
    (h : Toml.Document.Spells entries source.toList) (distinct : (entries.map Entry.key).Nodup)
    {settings : Settings} (describes : Describes entries settings) :
    read reader source = if settings.classVarPrefix = "" then .error (.badSettings .emptyPrefix)
      else .ok settings :=
  read_of_ok (reads.described entries source settings h distinct describes)

/-- A written document that gives a key twice, or has another key, is refused as a whole. -/
theorem ReadsToml.read_of_spells_malformed (reads : ReadsToml reader)
    (h : Toml.Document.Spells entries source.toList)
    (wrong : ¬ (entries.map Entry.key).Nodup
      ∨ ∃ entry ∈ entries, entry.key ≠ headerKey ∧ entry.key ≠ prefixKey) :
    ∃ message, read reader source = .error (.badSettings (.malformed message)) := by
  have hfailed : ∃ message, reader source = .error message := by
    rcases wrong with repeated | foreign
    · exact reads.repeated entries source h repeated
    · exact reads.foreign entries source h foreign
  obtain ⟨message, hmessage⟩ := hfailed
  exact ⟨message, read_of_error hmessage⟩

end

/-- Settings are read from a document as they are written there, by every reader that reads written
documents as TOML.

A document with a line for either setting gives both, in either order. A line that is left out
leaves its setting standard. An empty prefix is refused as such. But a document that gives a key
twice, or has a line with another key, is refused as a whole with the message of the reader, also
if its prefix is empty. All these documents exist, whatever the number is that fits and the text of
the prefix is: `Document.write` writes them.

And whatever text any reader has read, settings that come of it pass the check. -/
theorem read_written {reader : String → Except String Settings} (reads : ReadsToml reader)
    {headerSlots : UInt64} (fits : headerSlots.toNat ≤ 9223372036854775807)
    (classVarPrefix : String) :
    (∀ source : String,
      Toml.Document.Spells [headerEntry headerSlots, prefixEntry classVarPrefix] source.toList
        ∨ Toml.Document.Spells [prefixEntry classVarPrefix, headerEntry headerSlots] source.toList →
      read reader source = if classVarPrefix = "" then .error (.badSettings .emptyPrefix)
        else .ok { headerSlots, classVarPrefix })
    ∧ (∀ source : String, Toml.Document.Spells [headerEntry headerSlots] source.toList →
      read reader source = .ok { standard with headerSlots })
    ∧ (∀ source : String, Toml.Document.Spells [prefixEntry classVarPrefix] source.toList →
      read reader source = if classVarPrefix = "" then .error (.badSettings .emptyPrefix)
        else .ok { standard with classVarPrefix })
    ∧ (∀ (lines : List Entry) (source : String), Toml.Document.Spells lines source.toList →
      (¬ (lines.map Entry.key).Nodup
        ∨ ∃ line ∈ lines, line.key ≠ headerKey ∧ line.key ≠ prefixKey) →
      ∃ message, read reader source = .error (.badSettings (.malformed message)))
    ∧ (∀ lines : List Entry,
      (∀ line ∈ lines, line = headerEntry headerSlots ∨ line = prefixEntry classVarPrefix
        ∨ ∃ key, Toml.IsBare key ∧ line = { key, value := .int 1 }) →
      Toml.Document.Spells lines (Toml.Document.write lines).toList)
    ∧ ∀ (other : String → Except String Settings) (source : String) (settings : Settings),
      read other source = .ok settings →
        settings.check = .ok () ∧ settings.classVarPrefix ≠ "" := by
  refine ⟨?_, ?_, ?_, fun lines source => reads.read_of_spells_malformed, ?_, ?_⟩
  · have describes : Describes [headerEntry headerSlots, prefixEntry classVarPrefix]
        { headerSlots, classVarPrefix } :=
      ⟨by simp, by simp [headerEntry], by simp [prefixEntry]⟩
    have describes' : Describes [prefixEntry classVarPrefix, headerEntry headerSlots]
        { headerSlots, classVarPrefix } :=
      ⟨by simp, by simp [headerEntry], by simp [prefixEntry]⟩
    rintro source (h | h)
    · exact reads.read_of_spells h (by simp [headerEntry, prefixEntry, headerKey_ne]) describes
    · exact reads.read_of_spells h (by simp [headerEntry, prefixEntry, headerKey_ne.symm])
        describes'
  · intro source h
    have describes : Describes [headerEntry headerSlots] { standard with headerSlots } :=
      ⟨by simp, by simp [headerEntry], fun _ => rfl⟩
    have nonempty : standard.classVarPrefix ≠ "" := by decide
    exact (reads.read_of_spells h (by simp) describes).trans (if_neg nonempty)
  · intro source h
    have describes : Describes [prefixEntry classVarPrefix] { standard with classVarPrefix } :=
      ⟨by simp, fun _ => rfl, by simp [prefixEntry]⟩
    exact reads.read_of_spells h (by simp) describes
  · intro lines hlines
    refine Toml.Document.spells_write ?_ ?_
    · intro line hline
      rcases hlines line hline with rfl | rfl | ⟨key, bare, rfl⟩
      · exact isBare_headerKey
      · exact isBare_prefixKey
      · exact bare
    · intro line hline i hvalue
      rcases hlines line hline with rfl | rfl | ⟨key, -, rfl⟩
      · obtain rfl := Toml.Value.int.inj hvalue
        exact ⟨by omega, by omega⟩
      · cases hvalue
      · obtain rfl := Toml.Value.int.inj hvalue
        decide
  · intro other source settings h
    have hcheck := check_of_read h
    exact ⟨hcheck, check_eq_ok_iff.mp hcheck⟩

/-- A prefix of a quote and a control character. -/
def awkwardPrefix : String := "\x22\x1f"

/-- A document whose second line lacks its end, with a capital letter in the number of the control
character. -/
def awkwardDocument : String :=
  "class_var_prefix = \x22\x5c\x22\x5cu001F\x22\nreserved_field_slots = 7"

/-- This is how the document is written. -/
theorem spells_awkwardDocument :
    Toml.Document.Spells [prefixEntry awkwardPrefix, headerEntry 7] awkwardDocument.toList := by
  have hprefix : Toml.Text.Spells awkwardPrefix.toList
      ['\\', '\x22', '\\', 'u', '0', '0', '1', 'F'] :=
    .cons (.marked (.inl rfl)) (.cons (.numbered (.inl (by decide)) .lower .upper) .nil)
  have hlast : Toml.Document.Spells [headerEntry 7] _ :=
    .last (.mk isBare_headerKey (.int (by decide)))
  exact .line (.mk isBare_prefixKey (.text hprefix)) hlast

/-- The reader of flat tables reads written documents as TOML. From this one, it reads the prefix
and the number. If the number is given again, or another key is given, the document is refused. -/
theorem read_written_awkwardDocument :
    ReadsToml ofToml
    ∧ (7 : UInt64).toNat ≤ 9223372036854775807
    ∧ Toml.Document.Spells [prefixEntry awkwardPrefix, headerEntry 7] awkwardDocument.toList
    ∧ read ofToml awkwardDocument = .ok { headerSlots := 7, classVarPrefix := awkwardPrefix }
    ∧ (∃ message, read ofToml
        (Toml.Document.write [headerEntry 7, prefixEntry awkwardPrefix, headerEntry 7])
      = .error (.badSettings (.malformed message)))
    ∧ ∃ message, read ofToml
        (Toml.Document.write [prefixEntry "", { key := "vtable_base", value := .int 1 }])
      = .error (.badSettings (.malformed message)) := by
  have fits : (7 : UInt64).toNat ≤ 9223372036854775807 := by decide
  obtain ⟨hboth, -, -, hwrong, hwritten, -⟩ := read_written readsToml_ofToml fits awkwardPrefix
  obtain ⟨-, -, -, -, hwritten', -⟩ := read_written readsToml_ofToml fits ""
  have hother : Toml.IsBare "vtable_base" := Toml.isBare_iff.mpr (by decide)
  refine ⟨readsToml_ofToml, fits, spells_awkwardDocument, ?_, ?_, ?_⟩
  · rw [hboth _ (.inr spells_awkwardDocument)]
    rfl
  · refine hwrong _ _ (hwritten _ ?_) (.inl (by decide))
    simp
  · refine hwrong _ _ (hwritten' _ ?_) (.inr ⟨_, List.mem_cons_of_mem _ List.mem_cons_self, ?_⟩)
    · simp [hother]
    · decide

end Settings

end ScopeLayout
