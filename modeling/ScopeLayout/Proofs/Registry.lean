import Mathlib.Data.List.Induction
import ScopeLayout.Registry

/-!
# `ScopeLayout.Proofs.Registry`: values put one after the other

A list of values becomes a registry by `Registry.putAll`: each value goes under the
name that it bears, and a later one of that name replaces it. So what is found is the
last value of a name in the list, and what was there before if the list has none
(`find?_putAll`).

Values that bear the name under which they are registered are listed exactly if a
look-up of their name finds them (`Named.mem_values_iff`), and `putAll` leaves them
where they belong (`Named.putAll`). A list of such values is searched like the
registry (`find?_eq_of_mem_iff`), and values with separate names are listed as they
were put (`values_putAll`).
-/

set_option autoImplicit false

namespace ScopeLayout

/-- A list that has exactly the values that a look-up finds under their names is searched with the
same result as the look-up. -/
theorem find?_eq_of_mem_iff {α : Type} {nameOf : α → String} {look : String → Option α}
    {values : List α} (listed : ∀ value, value ∈ values ↔ look (nameOf value) = some value)
    (named : ∀ name value, look name = some value → nameOf value = name) (name : String) :
    values.find? (fun value => decide (nameOf value = name)) = look name := by
  cases hlook : look name with
  | none =>
    rw [List.find?_eq_none]
    intro value hmem
    simp only [decide_eq_true_eq]
    rintro rfl
    exact nomatch hlook.symm.trans ((listed value).mp hmem)
  | some value =>
    have hown : nameOf value = name := named name value hlook
    have hmem : value ∈ values := (listed value).mpr (hown.symm ▸ hlook)
    cases hfind : values.find? (fun value => decide (nameOf value = name)) with
    | none =>
      have hnone := List.find?_eq_none.mp hfind value hmem
      simp [hown] at hnone
    | some found =>
      -- There is no other value of this name.
      have hfound : nameOf found = name := by simpa using List.find?_some hfind
      have hlisted := (listed found).mp (List.mem_of_find?_eq_some hfind)
      rw [hfound, hlook] at hlisted
      exact hlisted.symm

namespace Registry

variable {α : Type} {nameOf : α → String} {r : Registry α}

/-- A value that bears its name is listed exactly if it is found. -/
theorem Named.mem_values_iff (h : r.Named nameOf) {value : α} :
    value ∈ r.values ↔ r.find? (nameOf value) = some value := by
  rw [values, List.mem_map]
  constructor
  · rintro ⟨row, hrow, rfl⟩
    have hfind := (mem_rows_iff row).mp hrow
    rw [h _ _ hfind]
    exact hfind
  · intro hfind
    exact ⟨(nameOf value, value), (mem_rows_iff _).mpr hfind, rfl⟩

/-- Values that bear their names are listed in the order of the names. -/
theorem Named.map_values (h : r.Named nameOf) : r.values.map nameOf = r.names := by
  rw [values, names, List.map_map]
  apply List.map_congr_left
  intro row hrow
  exact h _ _ ((mem_rows_iff row).mp hrow)

/-- Values go where they belong. -/
theorem Named.putAll (h : r.Named nameOf) (values : List α) :
    (r.putAll nameOf values).Named nameOf := by
  induction values generalizing r with
  | nil => exact h
  | cons value rest ih => exact ih (h.put rfl)

/-- Values with separate names are listed in the order in which they are put. -/
theorem values_putAll {values : List α} (distinct : (values.map nameOf).Nodup) :
    (empty.putAll nameOf values).values = values := by
  -- A value is put behind those before it, so the induction is from behind.
  induction values using List.reverseRecOn with
  | nil => rfl
  | append_singleton values value ih =>
    have hsplit : empty.putAll nameOf (values ++ [value])
        = (empty.putAll nameOf values).put (nameOf value) value := by
      simp [Registry.putAll]
    rw [List.map_append, List.nodup_append] at distinct
    obtain ⟨hbefore, -, hnew⟩ := distinct
    have hvalues := ih hbefore
    have hnames := ((named_empty nameOf).putAll values).map_values
    rw [hvalues] at hnames
    have habsent : nameOf value ∉ (empty.putAll nameOf values).names := by
      intro hmem
      exact hnew _ (hnames ▸ hmem) _ (by simp) rfl
    have hlast := rows_add (find?_eq_none_iff.mpr habsent) value
    rw [hsplit, put, if_neg (mt mem_names_iff.mpr habsent), Registry.values, hlast,
      List.map_append, ← Registry.values, hvalues]
    rfl

/-- The last value of a name is found, and what was there before if there is none. -/
theorem find?_putAll (r : Registry α) (nameOf : α → String) (values : List α) (name : String) :
    (r.putAll nameOf values).find? name
      = (values.reverse.find? fun value => decide (nameOf value = name)).or (r.find? name) := by
  induction values generalizing r with
  | nil => rfl
  | cons value rest ih =>
    have hstep : r.putAll nameOf (value :: rest)
        = (r.put (nameOf value) value).putAll nameOf rest := rfl
    rw [hstep, ih, find?_put, List.reverse_cons, List.find?_append, Option.or_assoc]
    by_cases hname : name = nameOf value
    · simp [hname]
    · simp [hname, Ne.symm hname]

end Registry

end ScopeLayout
