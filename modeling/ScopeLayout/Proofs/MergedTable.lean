import Mathlib.Data.List.Dedup
import ScopeLayout.Proofs.DispatchTable

/-!
# `ScopeLayout.Proofs.MergedTable`: the table of all methods and the look-up of one

What a class inherits can be read in two ways. The look-up of a name asks the class and
then the one it extends, and stops at the first that defines the name
(`Grounded.method?_eq`). The table begins with the table of the class it extends, lays
the methods of the class over it and sorts the result by slot
(`Grounded.dispatchTable_eq`).

Both read the same methods, each of them once (`nodup_names_dispatchTable`). Sorting is
where they could come apart: a table that is sorted at each class of the lineage is the
one that is sorted at the end only because no two methods of a table stand at one slot
(`Built.eq_of_slot_eq`). So a table is known by its methods alone, whatever order they
come in.

`table_lists_lookups` puts this together.
-/

set_option autoImplicit false

namespace ScopeLayout

namespace World

variable {w : World}

/-! ### Two ways along a lineage -/

/-- The look-up of a name asks the class first and then the class that it extends. -/
theorem Grounded.method?_eq (grounded : w.Grounded) (c : ClassId) (name : String) :
    w.method? c name
      = ((w.ownMethods c).find? name).or ((w.parent? c).bind fun p => w.method? p name) := by
  cases hp : w.parent? c with
  | none =>
    rw [method?, lineage_of_root hp, List.findSome?_cons]
    cases (w.ownMethods c).find? name <;> rfl
  | some p =>
    rw [method?, grounded.lineage_parent hp, List.findSome?_cons]
    cases (w.ownMethods c).find? name <;> rfl

/-- The table that a class finds where it is extended from: that of the class it extends. -/
def inherited (w : World) (c : ClassId) : List Method :=
  ((w.parent? c).map w.dispatchTable).getD []

/-- The table of a class is that of the class it extends with its own methods laid over, sorted
again. -/
theorem Grounded.dispatchTable_eq (grounded : w.Grounded) (c : ClassId) :
    w.dispatchTable c = overlay (w.inherited c) (w.ownMethods c).values := by
  cases hp : w.parent? c with
  | none =>
    rw [inherited, hp, dispatchTable, lineage_of_root hp]
    rfl
  | some p =>
    rw [inherited, hp, dispatchTable, grounded.lineage_parent hp]
    rfl

/-! ### What a table lists -/

/-- Laying methods over a table lists each name once. -/
theorem nodup_names_overlay (inherited own : List Method) :
    ((overlay inherited own).map Method.name).Nodup := by
  have hnamed := ((Registry.named_empty Method.name).putAll inherited).putAll own
  have hperm := (List.mergeSort_perm
    ((Registry.empty.putAll Method.name inherited).putAll Method.name own).values
    fun a b => decide (a.slot ≤ b.slot)).map Method.name
  rw [hnamed.map_values] at hperm
  exact hperm.nodup_iff.mpr (Registry.nodup_names _)

/-- A table lists each name once. -/
theorem nodup_names_dispatchTable (w : World) (c : ClassId) :
    ((w.dispatchTable c).map Method.name).Nodup := by
  obtain ⟨rest, hrest⟩ := w.lineage_eq_cons c
  rw [dispatchTable, hrest]
  exact nodup_names_overlay _ _

/-- The slots of a table do not descend. -/
theorem sorted_dispatchTable (w : World) (c : ClassId) :
    (w.dispatchTable c).Pairwise fun a b => a.slot ≤ b.slot := by
  obtain ⟨rest, hrest⟩ := w.lineage_eq_cons c
  rw [dispatchTable, hrest]
  exact ascending_mergeSort Method.slot _

/-- A name is looked up with success exactly if some class of the lineage defines it. -/
theorem method?_isSome_iff (w : World) (c : ClassId) (name : String) :
    (∃ method, w.method? c name = some method) ↔
      ∃ a ∈ w.lineage c, name ∈ (w.ownMethods a).names := by
  rw [← Option.isSome_iff_exists, method?, List.findSome?_isSome_iff]
  simp only [Registry.mem_names_iff, Registry.contains]

/-- The names of a table are those that the classes of the lineage define, each of them once. -/
theorem names_dispatchTable_perm (w : World) (c : ClassId) :
    ((w.dispatchTable c).map Method.name).Perm
      ((w.lineage c).flatMap fun a => (w.ownMethods a).names).dedup := by
  rw [List.perm_ext_iff_of_nodup (w.nodup_names_dispatchTable c) (List.nodup_dedup _)]
  intro name
  rw [List.mem_dedup, List.mem_flatMap, ← w.method?_isSome_iff c name, List.mem_map]
  constructor
  · rintro ⟨e, he, rfl⟩
    exact ⟨e, (w.mem_dispatchTable_iff c e).mp he⟩
  · rintro ⟨method, hmethod⟩
    have hname := name_of_method? hmethod
    exact ⟨method, (w.mem_dispatchTable_iff c method).mpr (hname.symm ▸ hmethod), hname⟩

/-! ### Separate slots -/

/-- The names that have a slot in the hierarchy of a class are fewer than there are words. -/
def Counted (w : World) (c : ClassId) : Prop :=
  ∀ body numbering, w.classAt? c = some body →
    w.numberingAt? body.numbering = some numbering → numbering.Counted

/-- Methods of one class stand at separate slots. -/
theorem Built.eq_of_slot_eq (built : w.Built) {c : ClassId} (counted : w.Counted c)
    {a b : Method} (ha : a ∈ w.dispatchTable c) (hb : b ∈ w.dispatchTable c)
    (hslot : a.slot = b.slot) : a = b := by
  obtain ⟨body, numbering, found, numbered, hslota⟩ :=
    built.slot_of_method ((w.mem_dispatchTable_iff c a).mp ha)
  have hslotb := built.slot_of_entry found numbered rfl hb
  obtain ⟨names, hnames⟩ := built.lists numbered
  have hname := hnames.slot_injective (counted body numbering found numbered) hslota
    (hslot ▸ hslotb)
  rw [mem_dispatchTable_iff] at ha hb
  rw [hname, hb] at ha
  exact (Option.some.inj ha).symm

/-- The table of a class is what sorting its methods gives, in whatever order they are listed. -/
theorem Built.mergeSort_eq_dispatchTable (built : w.Built) {c : ClassId} (counted : w.Counted c)
    {listed : List Method} (hperm : listed.Perm (w.dispatchTable c)) :
    listed.mergeSort (fun a b => decide (a.slot ≤ b.slot)) = w.dispatchTable c := by
  rw [mergeSort_eq_of_perm Method.slot hperm
    fun a ha b hb => built.eq_of_slot_eq counted ha hb]
  exact mergeSort_eq_self (w.sorted_dispatchTable c)

/-- The slots of a table ascend. -/
theorem Built.ascending_dispatchTable (built : w.Built) {c : ClassId} (counted : w.Counted c) :
    (w.dispatchTable c).Pairwise fun a b => a.slot < b.slot := by
  have hnames : (w.dispatchTable c).Pairwise fun a b => a.name ≠ b.name :=
    List.pairwise_map.mp (w.nodup_names_dispatchTable c)
  refine ((w.sorted_dispatchTable c).and hnames).imp_of_mem ?_
  rintro a b ha hb ⟨hab, hname⟩
  refine UInt64.lt_of_le_of_ne hab ?_
  intro hslot
  -- One slot would make them one entry.
  exact hname (congrArg Method.name (built.eq_of_slot_eq counted ha hb hslot))

/-- A dispatch table lists what the look-up of single names finds, each method once and in the order
of the slots.

An entry is in the table of a class exactly if the look-up of its name in the class finds it. No
name comes twice, and the names are those that the classes of the lineage define, each of them once.
The look-up goes from the class to the one it extends, and the table is made the other way round:
the own methods are laid over the table of the class it extends, and all are sorted again.

The slots do not descend. They ascend strictly, so that no slot comes twice and the order in which
the methods were laid together does not matter, as soon as the names that have a slot in the
hierarchy are fewer than there are words. They are after every run of fewer requests than that. -/
theorem table_lists_lookups {w : World} (reachable : w.Reachable) (c : ClassId) :
    (∀ e, e ∈ w.dispatchTable c ↔ w.method? c e.name = some e)
    ∧ (w.dispatchTable c).Pairwise (fun a b => a.slot ≤ b.slot)
    ∧ ((w.dispatchTable c).map Method.name).Nodup
    ∧ ((w.dispatchTable c).map Method.name).Perm
        ((w.lineage c).flatMap fun a => (w.ownMethods a).names).dedup
    ∧ (∀ name, w.method? c name
        = ((w.ownMethods c).find? name).or ((w.parent? c).bind fun p => w.method? p name))
    ∧ w.dispatchTable c = overlay (w.inherited c) (w.ownMethods c).values
    ∧ (∀ requests, w = after requests → requests.length + 2 < UInt64.size → w.Counted c)
    ∧ (w.Counted c →
        (w.dispatchTable c).Pairwise (fun a b => a.slot < b.slot)
        ∧ ((w.dispatchTable c).map Method.slot).Nodup
        ∧ ∀ listed : List Method, listed.Perm (w.dispatchTable c) →
            listed.mergeSort (fun a b => decide (a.slot ≤ b.slot)) = w.dispatchTable c) := by
  have built := reachable.built
  have grounded := built.grounded
  refine ⟨w.mem_dispatchTable_iff c, w.sorted_dispatchTable c, w.nodup_names_dispatchTable c,
    w.names_dispatchTable_perm c, grounded.method?_eq c, grounded.dispatchTable_eq c, ?_, ?_⟩
  · rintro requests rfl short body numbering - hnumbering
    exact counted_of_length requests hnumbering short
  · intro counted
    have hascending := built.ascending_dispatchTable counted
    refine ⟨hascending, ?_, fun listed => built.mergeSort_eq_dispatchTable counted⟩
    exact List.pairwise_map.mpr (hascending.imp UInt64.ne_of_lt)

/-- Three classes, each extending the one before. The last overrides what the second overrides
already, and the first gets a method when the others are there. -/
def overriddenTwice : World := (World.empty.run [
  .openGlobals .standard, .addRoot "A" ⟨0⟩, .bindMethod ⟨0⟩ "go" "A_go", .addChild "B" ⟨0⟩,
  .addMethod ⟨1⟩ "stop", .bindMethod ⟨1⟩ "go" "B_go", .addChild "C" ⟨1⟩,
  .bindMethod ⟨2⟩ "go" "C_go", .addMethod ⟨2⟩ "new", .bindMethod ⟨0⟩ "late" "A_late"]).1

/-- The last class has its own entry for the method that all three define and not that of the class
two above it, and it has the entry of the late method. -/
theorem table_lists_lookups_overriddenTwice :
    overriddenTwice.Reachable ∧ overriddenTwice.Counted ⟨2⟩
    ∧ { name := "go", slot := 7, label? := some "C_go" } ∈ overriddenTwice.dispatchTable ⟨2⟩
    ∧ { name := "go", slot := 7, label? := some "A_go" } ∉ overriddenTwice.dispatchTable ⟨2⟩
    ∧ { name := "late", slot := 9, label? := some "A_late" } ∈ overriddenTwice.dispatchTable ⟨2⟩
    ∧ ((overriddenTwice.dispatchTable ⟨2⟩).map Method.name).Perm ["new", "stop", "go", "late"]
    ∧ (overriddenTwice.dispatchTable ⟨2⟩).Pairwise (fun a b => a.slot < b.slot) := by
  have hreachable : overriddenTwice.Reachable := Reachable.empty.run _
  obtain ⟨hmem, -, -, hnames, -, -, hshort, hseparate⟩ := table_lists_lookups hreachable ⟨2⟩
  have hcounted : overriddenTwice.Counted ⟨2⟩ := hshort _ rfl (by decide)
  have hdefined : ((overriddenTwice.lineage ⟨2⟩).flatMap fun a =>
      (overriddenTwice.ownMethods a).names).dedup = ["new", "stop", "go", "late"] := by
    decide +kernel
  refine ⟨hreachable, hcounted, (hmem _).mpr (by decide +kernel), ?_,
    (hmem _).mpr (by decide +kernel), hdefined ▸ hnames, (hseparate hcounted).1⟩
  rw [hmem]
  decide +kernel

end World

end ScopeLayout
