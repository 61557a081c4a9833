/-!
# `ScopeLayout.Registry`: a table in the order of first registration

A `Registry` attaches a value to each of its names and lists its rows in the
order in which the names first came. No name has two rows, and the registry
carries the proof of it. `add` never disturbs what is there: the first
registration of a name stands. `put` replaces the value of a name but leaves the
name where it is, and `update` changes a value in place.

The view is `find?`. Each operation has one lemma that says what it does to the
view (`find?_empty`, `find?_add`, `find?_put`, `find?_update`), and `names_add`
says what becomes of the list of names.

Some values bear a name of their own. `Named` says that they are registered
under it, and the operations keep that.
-/

set_option autoImplicit false

namespace ScopeLayout

/-- A name that is not listed can be listed last. -/
theorem nodup_append_singleton {names : List String} {name : String} (h : names.Nodup)
    (new : name ∉ names) : (names ++ [name]).Nodup := by
  have hlast : ∀ a ∈ names, a ≠ name := by
    rintro a ha rfl
    exact new ha
  simpa [List.nodup_append, h] using hlast

/-- Names with a value each, in the order of first registration. -/
structure Registry (α : Type) where
  -- The rows, oldest first.
  rows : List (String × α) := []
  -- No name has two rows.
  distinct : (rows.map Prod.fst).Nodup := by decide
deriving DecidableEq, Repr

namespace Registry

variable {α : Type}

/-- Registries with the same rows are one. -/
@[ext] theorem ext {r r' : Registry α} (h : r.rows = r'.rows) : r = r' := by
  obtain ⟨rows, _⟩ := r
  obtain ⟨rows', _⟩ := r'
  obtain rfl : rows = rows' := h
  rfl

/-- The registry without rows. -/
def empty : Registry α where
  rows := []
  distinct := List.nodup_nil

/-- The names in the order of their first registration. -/
def names (r : Registry α) : List String := r.rows.map Prod.fst

/-- The values in the order of the first registration of their names. -/
def values (r : Registry α) : List α := r.rows.map Prod.snd

/-- The number of rows. -/
def size (r : Registry α) : Nat := r.rows.length

/-- The value registered under a name. -/
def find? (r : Registry α) (name : String) : Option α := r.rows.lookup name

/-- Whether the name is registered. -/
def contains (r : Registry α) (name : String) : Bool := (r.find? name).isSome

/-! ### What is registered -/

/-- No name is listed twice. -/
theorem nodup_names (r : Registry α) : r.names.Nodup := r.distinct

/-- Nothing is found in a registry without rows. -/
@[simp] theorem find?_empty (name : String) : (empty : Registry α).find? name = none := rfl

/-- The first row of a name decides what a look-up finds. -/
theorem lookup_row (row : String × α) (rest : List (String × α)) (name : String) :
    (row :: rest).lookup name = if name = row.1 then some row.2 else rest.lookup name := by
  obtain ⟨key, value⟩ := row
  rw [List.lookup_cons]
  by_cases h : name = key
  · simp [h]
  · simp [beq_eq_false_iff_ne.mpr h, h]

/-- A name is registered exactly if a look-up finds a value. -/
theorem contains_eq_true_iff {r : Registry α} {name : String} :
    r.contains name = true ↔ ∃ value, r.find? name = some value := by
  simp [contains, Option.isSome_iff_exists]

/-- Nothing is found under a name that has no row. -/
private theorem lookup_eq_none_iff {rows : List (String × α)} {name : String} :
    rows.lookup name = none ↔ name ∉ rows.map Prod.fst := by
  induction rows with
  | nil => simp
  | cons row rest ih =>
    rw [lookup_row, List.map_cons, List.mem_cons]
    by_cases h : name = row.1
    · simp [h]
    · rw [if_neg h, ih]
      simp only [h, false_or]

/-- Nothing is found under a name that is not listed. -/
theorem find?_eq_none_iff {r : Registry α} {name : String} :
    r.find? name = none ↔ name ∉ r.names :=
  lookup_eq_none_iff

/-- A name is listed exactly if something is registered under it. -/
theorem mem_names_iff {r : Registry α} {name : String} :
    name ∈ r.names ↔ r.contains name = true := by
  have h : r.find? name = none ↔ name ∉ r.names := find?_eq_none_iff
  cases hf : r.find? name <;> simp_all [contains]

/-- The rows are the look-ups. -/
theorem mem_rows_iff {r : Registry α} (row : String × α) :
    row ∈ r.rows ↔ r.find? row.1 = some row.2 := by
  obtain ⟨rows, distinct⟩ := r
  obtain ⟨name, value⟩ := row
  simp only [find?]
  induction rows with
  | nil => simp
  | cons head rest ih =>
    obtain ⟨hkey, hrest⟩ := List.nodup_cons.mp distinct
    obtain ⟨key, first⟩ := head
    rw [List.mem_cons, lookup_row]
    by_cases hname : name = key
    · -- The name has its only row here, so it has none in the rest.
      subst hname
      have habsent : (name, value) ∉ rest := by
        intro hmem
        exact hkey (List.mem_map.mpr ⟨_, hmem, rfl⟩)
      simp [habsent, eq_comm]
    · rw [if_neg hname, ← ih hrest]
      simp [hname]

/-! ### Operations -/

/-- Registers a name that is new, behind all others. A name that is known keeps its value. -/
def add (r : Registry α) (name : String) (value : α) : Registry α where
  rows := if r.contains name then r.rows else r.rows ++ [(name, value)]
  distinct := by
    split
    · exact r.distinct
    · rename_i new
      rw [List.map_append]
      exact nodup_append_singleton r.distinct (mt mem_names_iff.mp new)

/-- The names do not change when the values do. -/
private theorem map_fst_update (rows : List (String × α)) (name : String) (change : α → α) :
    (rows.map fun row => if row.1 = name then (row.1, change row.2) else row).map Prod.fst
      = rows.map Prod.fst := by
  rw [List.map_map]
  apply List.map_congr_left
  intro row _
  by_cases h : row.1 = name <;> simp [h]

/-- Changes the value under a name in place. Nothing happens to a name that is not registered. -/
def update (r : Registry α) (name : String) (change : α → α) : Registry α where
  rows := r.rows.map fun row => if row.1 = name then (row.1, change row.2) else row
  distinct := (map_fst_update r.rows name change).symm ▸ r.distinct

/-- Gives a name this value: in its old place if it is registered, behind all others if not. -/
def put (r : Registry α) (name : String) (value : α) : Registry α :=
  if r.contains name then r.update name fun _ => value else r.add name value

/-- Puts the values one after the other, each under its own name. -/
def putAll (r : Registry α) (nameOf : α → String) (values : List α) : Registry α :=
  values.foldl (fun r value => r.put (nameOf value) value) r

/-- A row behind all others is found if no other row has its name. -/
private theorem lookup_append_single (rows : List (String × α)) (key name : String) (value : α) :
    (rows ++ [(key, value)]).lookup name =
      (rows.lookup name).or (if name = key then some value else none) := by
  induction rows with
  | nil => simp [lookup_row]
  | cons row rest ih =>
    rw [List.cons_append, lookup_row, lookup_row, ih]
    by_cases h : name = row.1 <;> simp [h]

/-- A new name is listed last. -/
theorem rows_add {r : Registry α} {key : String} (new : r.find? key = none) (value : α) :
    (r.add key value).rows = r.rows ++ [(key, value)] := by
  have habsent : ¬ r.contains key = true := by simp [contains, new]
  exact if_neg habsent

/-- Nothing is added under a name that is listed. -/
theorem add_of_find? {r : Registry α} {key : String} {value : α} (known : r.find? key = some value)
    (other : α) : r.add key other = r :=
  ext (if_pos (contains_eq_true_iff.mpr ⟨value, known⟩))

/-- After `add`, a name that was known has its old value and the added name has the new one. -/
theorem find?_add (r : Registry α) (key name : String) (value : α) :
    (r.add key value).find? name =
      (r.find? name).or (if name = key then some value else none) := by
  cases h : r.find? key with
  | some old =>
    rw [add_of_find? h]
    by_cases hn : name = key
    · simp [hn, h]
    · simp [hn]
  | none =>
    rw [find?, rows_add h]
    exact lookup_append_single r.rows key name value

/-- After `update`, the changed name has the changed value and every other name its old one. -/
theorem find?_update (r : Registry α) (key name : String) (change : α → α) :
    (r.update key change).find? name =
      if name = key then (r.find? name).map change else r.find? name := by
  simp only [find?, update]
  induction r.rows with
  | nil => simp
  | cons row rest ih =>
    rw [List.map_cons, lookup_row, lookup_row, ih]
    by_cases hk : row.1 = key
    · by_cases hn : name = key
      · simp [hk, hn]
      · simp [hk, hn]
    · by_cases hn : name = row.1
      · simp [hk, hn]
      · simp [hk, hn]

/-- After `put`, the name has the value and every other name its old one. -/
theorem find?_put (r : Registry α) (key name : String) (value : α) :
    (r.put key value).find? name = if name = key then some value else r.find? name := by
  unfold put
  split
  · rename_i h
    obtain ⟨old, hold⟩ := contains_eq_true_iff.mp h
    rw [find?_update]
    by_cases hn : name = key
    · simp [hn, hold]
    · simp [hn]
  · rename_i h
    have hnone : r.find? key = none := by
      simpa [contains] using h
    rw [find?_add]
    by_cases hn : name = key
    · simp [hn, hnone]
    · simp [hn]

/-! ### Values that bear their names -/

/-- Every value is registered under the name that it bears. -/
def Named (nameOf : α → String) (r : Registry α) : Prop :=
  ∀ name value, r.find? name = some value → nameOf value = name

/-- Without rows, no value is out of place. -/
theorem named_empty (nameOf : α → String) : (empty : Registry α).Named nameOf := by
  simp [Named]

/-- A value that is added under its name is in place. -/
theorem Named.add {nameOf : α → String} {r : Registry α} (h : r.Named nameOf) {name : String}
    {value : α} (own : nameOf value = name) : (r.add name value).Named nameOf := by
  intro other found hfound
  rw [find?_add] at hfound
  cases hold : r.find? other with
  | some old =>
    rw [hold, Option.some_or] at hfound
    exact h other found (hold.trans hfound)
  | none =>
    obtain ⟨rfl, rfl⟩ : other = name ∧ value = found := by simpa [hold] using hfound
    exact own

/-- A change that keeps the names of the values keeps them in place. -/
theorem Named.update {nameOf : α → String} {r : Registry α} (h : r.Named nameOf) (name : String)
    {change : α → α} (keeps : ∀ value, nameOf (change value) = nameOf value) :
    (r.update name change).Named nameOf := by
  intro other found hfound
  rw [find?_update] at hfound
  split at hfound
  · obtain ⟨old, hold, rfl⟩ := Option.map_eq_some_iff.mp hfound
    exact (keeps old).trans (h other old hold)
  · exact h other found hfound

/-- A value that is put under its name is in place. -/
theorem Named.put {nameOf : α → String} {r : Registry α} (h : r.Named nameOf) {name : String}
    {value : α} (own : nameOf value = name) : (r.put name value).Named nameOf := by
  intro other found hfound
  rw [find?_put] at hfound
  split at hfound
  · rename_i hname
    rw [← Option.some.inj hfound, hname]
    exact own
  · exact h other found hfound

/-! ### The order of the names -/

/-- `add` lists a new name last and leaves the list of a known one alone. -/
theorem names_add (r : Registry α) (key : String) (value : α) :
    (r.add key value).names = if key ∈ r.names then r.names else r.names ++ [key] := by
  cases h : r.find? key with
  | some old =>
    have hlisted : key ∈ r.names := mem_names_iff.mpr (contains_eq_true_iff.mpr ⟨old, h⟩)
    rw [add_of_find? h, if_pos hlisted]
  | none =>
    rw [if_neg (find?_eq_none_iff.mp h), names, rows_add h]
    simp [names]

end Registry

end ScopeLayout
