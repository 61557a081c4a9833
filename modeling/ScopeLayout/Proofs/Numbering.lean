import ScopeLayout.Numbering
import ScopeLayout.Proofs.Registry

/-!
# `ScopeLayout.Proofs.Numbering`: the shape of a slot numbering

A numbering is known once its header and the names that the program asked for are known.
Behind the header, the two methods that every class has take the first two places, one
place stays free, and the names of the program follow without a gap (`placed`). The slot
of a name is the header and its place, added as machine words. `Numbering.Lists` is this
shape.

* `Lists.fresh` and `Lists.allocate`: a new numbering has the shape with no names, and a
  request appends its name to the list if it is new and not one of the two methods that
  every class has. So every numbering has the shape.
* `Lists.slot?_eq_some_iff`: which name has which slot.
* `userNames_concat`: a request appends to the list of names exactly what it appends to
  the names asked for, without repeats.

The sum wraps around, so two questions remain. Names share no slot as long as fewer of
them have one than there are words (`Counted`, `Lists.slot_injective`), which holds of
every table that can be kept. The slots lie in order behind the header only if the sums do
not wrap (`Fits`, `Lists.bounds`, `Lists.ascending`), and that is more: the header is a
setting, and a header near the last word leaves no room behind it. `Lists.fits_iff` says
that this shows, because the next slot is then no longer above the header.
-/

set_option autoImplicit false

namespace ScopeLayout

/-- Sorting by a word puts it in ascending order. -/
theorem ascending_mergeSort {α : Type} (key : α → UInt64) (l : List α) :
    (l.mergeSort fun a b => decide (key a ≤ key b)).Pairwise fun a b => key a ≤ key b := by
  have htrans : ∀ a b c : α, decide (key a ≤ key b) = true → decide (key b ≤ key c) = true →
      decide (key a ≤ key c) = true := by
    intro a b c hab hbc
    simp only [decide_eq_true_eq] at hab hbc ⊢
    exact UInt64.le_trans hab hbc
  have htotal : ∀ a b : α, (decide (key a ≤ key b) || decide (key b ≤ key a)) = true := by
    intro a b
    simpa using UInt64.le_total (key a) (key b)
  exact (List.pairwise_mergeSort htrans htotal l).imp of_decide_eq_true

/-- Lists of things with separate words are sorted alike if they are permutations of each other. -/
theorem mergeSort_eq_of_perm {α : Type} (key : α → UInt64) {l l' : List α}
    (hperm : l.Perm l') (separate : ∀ a ∈ l', ∀ b ∈ l', key a = key b → a = b) :
    l.mergeSort (fun a b => decide (key a ≤ key b))
      = l'.mergeSort fun a b => decide (key a ≤ key b) := by
  have hsame : (l.mergeSort fun a b => decide (key a ≤ key b)).Perm
      (l'.mergeSort fun a b => decide (key a ≤ key b)) :=
    (List.mergeSort_perm l _).trans (hperm.trans (List.mergeSort_perm l' _).symm)
  refine List.Perm.eq_of_pairwise ?_ (ascending_mergeSort key l) (ascending_mergeSort key l') hsame
  intro a b ha hb hab hba
  exact separate a (List.mem_mergeSort.mp (hsame.subset ha)) b (List.mem_mergeSort.mp hb)
    (UInt64.le_antisymm hab hba)

/-- A sorted list stays as it is. -/
theorem mergeSort_eq_self {α : Type} {key : α → UInt64} {l : List α}
    (ascending : l.Pairwise fun a b => key a ≤ key b) :
    (l.mergeSort fun a b => decide (key a ≤ key b)) = l :=
  List.mergeSort_of_pairwise (ascending.imp decide_eq_true)

/-- A name that has no slot before a program asks for one. -/
def IsUserName (name : String) : Prop := name ≠ constructorName ∧ name ≠ senderName

instance (name : String) : Decidable (IsUserName name) :=
  inferInstanceAs (Decidable (name ≠ constructorName ∧ name ≠ senderName))

/-- The names of the program among those asked for, each once, in the order of the first
request. -/
def userNames (asked : List String) : List String :=
  (asked.filter fun name => decide (IsUserName name)).eraseDups

/-- What one more request adds to the names of the program. -/
def withName (names : List String) (name : String) : List String :=
  if IsUserName name ∧ name ∉ names then names ++ [name] else names

/-- A name behind others is kept if it is none of them. -/
theorem eraseDups_concat (names : List String) (name : String) :
    (names ++ [name]).eraseDups
      = if name ∈ names then names.eraseDups else names.eraseDups ++ [name] := by
  rw [List.eraseDups_append]
  by_cases h : name ∈ names
  · simp [List.removeAll, h]
  · simp [List.removeAll, h, List.eraseDups_cons]

/-- Each name is kept once. -/
theorem nodup_eraseDups (names : List String) : names.eraseDups.Nodup := by
  cases names with
  | nil => exact List.nodup_nil
  | cons name rest =>
    rw [List.eraseDups_cons, List.nodup_cons]
    refine ⟨?_, nodup_eraseDups _⟩
    simp [List.mem_eraseDups]
termination_by names.length
decreasing_by exact Nat.lt_succ_of_le (List.length_filter_le _ rest)

/-- Dropping repeats makes no list longer. -/
theorem length_eraseDups_le (names : List String) : names.eraseDups.length ≤ names.length := by
  cases names with
  | nil => simp
  | cons name rest =>
    rw [List.eraseDups_cons, List.length_cons, List.length_cons]
    exact Nat.succ_le_succ
      (Nat.le_trans (length_eraseDups_le _) (List.length_filter_le _ rest))
termination_by names.length
decreasing_by exact Nat.lt_succ_of_le (List.length_filter_le _ rest)

/-- In front of the first mention stands all that comes before it. -/
theorem takeWhile_ne_append {α : Type} [DecidableEq α] {before : List α} {a : α}
    (first : a ∉ before) (rest : List α) : (before ++ a :: rest).takeWhile (· ≠ a) = before := by
  rw [List.takeWhile_append_of_pos]
  · simp
  · intro other hother
    simp only [decide_eq_true_eq]
    rintro rfl
    exact first hother

/-- One more name asked for is one more request. -/
theorem userNames_concat (asked : List String) (name : String) :
    userNames (asked ++ [name]) = withName (userNames asked) name := by
  by_cases huser : IsUserName name
  · have hsplit : userNames (asked ++ [name])
        = (asked.filter (fun name => decide (IsUserName name)) ++ [name]).eraseDups := by
      simp [userNames, huser]
    rw [hsplit, eraseDups_concat, withName]
    by_cases hknown : name ∈ asked <;> simp [hknown, huser, userNames]
  · -- The filter drops a name that every class has, so nothing is appended.
    have hsplit : userNames (asked ++ [name]) = userNames asked := by
      simp [userNames, huser]
    have hsame : withName (userNames asked) name = userNames asked := by
      refine if_neg ?_
      intro h
      exact huser h.1
    rw [hsplit, hsame]

/-- The names of the program are no more than the names asked for. -/
theorem length_userNames_le (asked : List String) :
    (userNames asked).length ≤ asked.length :=
  Nat.le_trans (length_eraseDups_le _) (List.length_filter_le _ asked)

namespace Numbering

/-! ### Places and slots -/

/-- The names with their places behind the header: the two methods that every class has, and
behind the free place the names of the program. -/
def placed (names : List String) : List (String × Nat) :=
  (constructorName, 0) :: (senderName, 1) :: names.zipIdx 3

/-- The slot of a place behind the header. -/
def slotAt (header : UInt64) (place : Nat) : UInt64 := header + UInt64.ofNat place

/-- Which name has which place. -/
theorem mem_placed_iff {names : List String} {name : String} {place : Nat} :
    (name, place) ∈ placed names ↔
      (name = constructorName ∧ place = 0) ∨ (name = senderName ∧ place = 1)
        ∨ (3 ≤ place ∧ names[place - 3]? = some name) := by
  simp only [placed, List.mem_cons, Prod.mk.injEq, List.mk_mem_zipIdx_iff_le_and_getElem?_sub]

/-- All places lie before the next one. -/
theorem place_lt {names : List String} {name : String} {place : Nat}
    (h : (name, place) ∈ placed names) : place < names.length + 3 := by
  rcases mem_placed_iff.mp h with ⟨-, rfl⟩ | ⟨-, rfl⟩ | ⟨hle, hget⟩
  · omega
  · omega
  · have hlt : place - 3 < names.length := (List.getElem?_eq_some_iff.mp hget).1
    omega

/-- No two names share a place. -/
theorem eq_of_place_eq {names : List String} {a b : String} {place : Nat}
    (ha : (a, place) ∈ placed names) (hb : (b, place) ∈ placed names) : a = b := by
  rw [mem_placed_iff] at ha hb
  -- Both names are of one kind, because the kinds take separate places. A kind with more names than
  -- one has them on separate places, too.
  rcases ha with ⟨rfl, hpa⟩ | ⟨rfl, hpa⟩ | ⟨hpa, hia⟩ <;>
    rcases hb with ⟨rfl, hpb⟩ | ⟨rfl, hpb⟩ | ⟨hpb, hib⟩ <;>
    first
      | rfl
      | omega
      | exact Option.some.inj (hia.symm.trans hib)

/-- The names have their places in ascending order. -/
theorem ascending_placed (names : List String) :
    (placed names).Pairwise fun a b => a.2 < b.2 := by
  have hlow : ∀ row ∈ names.zipIdx 3, 3 ≤ row.2 := fun row => List.le_snd_of_mem_zipIdx
  rw [placed, List.pairwise_cons, List.pairwise_cons]
  refine ⟨?_, ?_, ?_⟩
  · intro row hrow
    rcases List.mem_cons.mp hrow with rfl | hrow
    · exact Nat.zero_lt_one
    · have := hlow row hrow
      omega
  · intro row hrow
    have := hlow row hrow
    omega
  · rw [← List.pairwise_map (f := Prod.snd) (R := (· < ·)), List.zipIdx_map_snd]
    exact List.pairwise_lt_range'

/-- Separate places have separate slots, if they are words. -/
theorem slotAt_injective {header : UInt64} {p q : Nat} (hp : p < UInt64.size)
    (hq : q < UInt64.size) (h : slotAt header p = slotAt header q) : p = q := by
  have hword : UInt64.ofNat p = UInt64.ofNat q := (UInt64.add_right_inj header).mp h
  rw [← UInt64.toNat_ofNat_of_lt' hp, hword, UInt64.toNat_ofNat_of_lt' hq]

/-- A slot is the sum of the header and the place if that is a word. -/
theorem toNat_slotAt {header : UInt64} {place : Nat} (h : header.toNat + place < UInt64.size) :
    (slotAt header place).toNat = header.toNat + place := by
  have hplace : place < UInt64.size := by omega
  rw [slotAt, UInt64.toNat_add, UInt64.toNat_ofNat_of_lt' hplace]
  exact Nat.mod_eq_of_lt h

/-! ### The shape of a numbering -/

/-- The numbering gives slots to the two methods that every class has and to the given names of
the program, in this order:

- `nodup`: no name is given two slots;
- `user`: the two methods that every class has are not names of the program;
- `rows`: the slot of a name is that of its place;
- `next`: the next slot is that of the place behind them all. -/
structure Lists (numbering : Numbering) (names : List String) : Prop where
  nodup : names.Nodup
  user : ∀ name ∈ names, IsUserName name
  rows : numbering.slots.rows
    = (placed names).map fun row => (row.1, slotAt numbering.header row.2)
  next : numbering.next = slotAt numbering.header (names.length + 3)

/-- Fewer names have a slot than there are words. -/
def Counted (numbering : Numbering) : Prop := numbering.slots.size < UInt64.size

/-- The header, the slots of all names and the free slot are as many as a word can say. -/
def Fits (numbering : Numbering) : Prop :=
  numbering.header.toNat + numbering.slots.size + 1 < UInt64.size

instance (numbering : Numbering) : Decidable numbering.Counted :=
  inferInstanceAs (Decidable (_ < _))

instance (numbering : Numbering) : Decidable numbering.Fits :=
  inferInstanceAs (Decidable (_ < _))

/-- What fits can be counted. -/
theorem Fits.counted {numbering : Numbering} (fits : numbering.Fits) : numbering.Counted := by
  unfold Fits at fits
  unfold Counted
  omega

namespace Lists

variable {numbering : Numbering} {names : List String}

/-- A new numbering lists no name of the program. -/
theorem fresh (settings : Settings) : (Numbering.fresh settings).Lists [] where
  nodup := List.nodup_nil
  user := by simp
  rows := by simp [Numbering.fresh, placed, slotAt]
  next := rfl

/-- The names of the rows. -/
theorem names_slots (h : numbering.Lists names) :
    numbering.slots.names = constructorName :: senderName :: names := by
  have hnames : (placed names).map Prod.fst = constructorName :: senderName :: names := by
    simp [placed]
  rw [← hnames, Registry.names, h.rows, List.map_map]
  rfl

/-- How many names have a slot. -/
theorem size_slots (h : numbering.Lists names) : numbering.slots.size = names.length + 2 := by
  rw [Registry.size, h.rows]
  simp [placed]

/-- Which name has which slot. -/
theorem slot?_eq_some_iff (h : numbering.Lists names) {name : String} {slot : UInt64} :
    numbering.slot? name = some slot ↔
      ∃ place, (name, place) ∈ placed names ∧ slot = slotAt numbering.header place := by
  rw [slot?, ← Registry.mem_rows_iff (name, slot), h.rows, List.mem_map]
  constructor
  · rintro ⟨⟨key, place⟩, hmem, heq⟩
    obtain ⟨rfl, rfl⟩ := Prod.mk.inj heq
    exact ⟨place, hmem, rfl⟩
  · rintro ⟨place, hmem, rfl⟩
    exact ⟨(name, place), hmem, rfl⟩

/-- A name has a slot if the program asked for it or if every class has it. -/
theorem contains_iff (h : numbering.Lists names) {name : String} :
    numbering.contains name = true ↔
      name = constructorName ∨ name = senderName ∨ name ∈ names := by
  rw [contains, ← Registry.mem_names_iff, h.names_slots]
  simp

/-- One more name has the place behind all others. -/
theorem placed_concat (names : List String) (name : String) :
    placed (names ++ [name]) = placed names ++ [(name, names.length + 3)] := by
  simp [placed, List.zipIdx_append, Nat.add_comm]

/-- A request appends its name to the list if it is new. -/
theorem allocate (h : numbering.Lists names) (name : String) :
    (numbering.allocate name).Lists (withName names name) := by
  by_cases hknown : numbering.contains name = true
  · -- A name that has a slot is listed, or every class has it. Neither appends anything.
    have hsame : withName names name = names := by
      refine if_neg ?_
      rintro ⟨huser, hnew⟩
      rcases h.contains_iff.mp hknown with heq | heq | hmem
      · exact huser.1 heq
      · exact huser.2 heq
      · exact hnew hmem
    rw [allocate_of_contains hknown, hsame]
    exact h
  · have hnew : name ∉ names := by
      intro hmem
      exact hknown (h.contains_iff.mpr (.inr (.inr hmem)))
    have huser : IsUserName name := by
      refine ⟨?_, ?_⟩
      · intro heq
        exact hknown (h.contains_iff.mpr (.inl heq))
      · intro heq
        exact hknown (h.contains_iff.mpr (.inr (.inl heq)))
    have habsent : numbering.slots.find? name = none := by
      simpa [contains, Registry.contains] using hknown
    rw [Numbering.allocate, if_neg hknown, withName, if_pos ⟨huser, hnew⟩]
    refine ⟨nodup_append_singleton h.nodup hnew, ?_, ?_, ?_⟩
    · intro a ha
      rcases List.mem_append.mp ha with hold | hlast
      · exact h.user a hold
      · rw [List.mem_singleton.mp hlast]
        exact huser
    · -- The new row is that of the next place.
      rw [Registry.rows_add habsent, h.rows, h.next, placed_concat]
      simp
    · have hlength : (names ++ [name]).length + 3 = (names.length + 3) + 1 := by simp
      simp only [h.next, slotAt, hlength, UInt64.ofNat_add (names.length + 3), UInt64.add_assoc]
      rfl

/-- All places are words if fewer names have one than there are words. -/
theorem place_lt_size (h : numbering.Lists names) (counted : numbering.Counted) {name : String}
    {place : Nat} (hmem : (name, place) ∈ placed names) : place < UInt64.size := by
  have hlt := place_lt hmem
  have hsize := h.size_slots
  unfold Counted at counted
  omega

/-- No two names share a slot. -/
theorem slot_injective (h : numbering.Lists names) (counted : numbering.Counted) {a b : String}
    {slot : UInt64} (ha : numbering.slot? a = some slot) (hb : numbering.slot? b = some slot) :
    a = b := by
  obtain ⟨p, hp, rfl⟩ := h.slot?_eq_some_iff.mp ha
  obtain ⟨q, hq, hsame⟩ := h.slot?_eq_some_iff.mp hb
  obtain rfl : p = q :=
    slotAt_injective (h.place_lt_size counted hp) (h.place_lt_size counted hq) hsame
  exact eq_of_place_eq hp hq

/-- The first three slots: only the methods that every class has are on the first two, and no
name is on the third. -/
theorem builtin_slots (h : numbering.Lists names) (counted : numbering.Counted) {name : String}
    {slot : UInt64} (hslot : numbering.slot? name = some slot) :
    slot ≠ slotAt numbering.header 2
      ∧ (slot = slotAt numbering.header 0 → name = constructorName)
      ∧ (slot = slotAt numbering.header 1 → name = senderName) := by
  obtain ⟨place, hplace, rfl⟩ := h.slot?_eq_some_iff.mp hslot
  have hlt := h.place_lt_size counted hplace
  have hsame : ∀ other < 3, slotAt numbering.header place = slotAt numbering.header other →
      place = other := by
    intro other hother
    exact slotAt_injective hlt (Nat.lt_trans hother (by decide))
  have hcases := mem_placed_iff.mp hplace
  refine ⟨?_, ?_, ?_⟩
  · intro heq
    have hfree := hsame 2 (by decide) heq
    omega
  · intro heq
    have hfirst := hsame 0 (by decide) heq
    rcases hcases with ⟨hname, -⟩ | ⟨-, hplace⟩ | ⟨hplace, -⟩
    · exact hname
    · omega
    · omega
  · intro heq
    have hsecond := hsame 1 (by decide) heq
    rcases hcases with ⟨-, hplace⟩ | ⟨hname, -⟩ | ⟨hplace, -⟩
    · omega
    · exact hname
    · omega

/-! ### Slots that fit -/

/-- The next slot of a numbering that fits is the number of slots before it. -/
theorem toNat_next (h : numbering.Lists names) (fits : numbering.Fits) :
    numbering.next.toNat = numbering.header.toNat + (names.length + 3) := by
  have hsize := h.size_slots
  unfold Fits at fits
  rw [h.next]
  exact toNat_slotAt (by omega)

/-- The slots of a numbering that fits are the header and the places, added as numbers. -/
theorem toNat_slotAt_of_mem (h : numbering.Lists names) (fits : numbering.Fits) {name : String}
    {place : Nat} (hmem : (name, place) ∈ placed names) :
    (slotAt numbering.header place).toNat = numbering.header.toNat + place := by
  have hlt := place_lt hmem
  have hsize := h.size_slots
  unfold Fits at fits
  exact toNat_slotAt (by omega)

/-- A numbering fits exactly if the place behind its names does. -/
theorem fits_iff_length (h : numbering.Lists names) :
    numbering.Fits ↔ numbering.header.toNat + 3 + names.length < UInt64.size := by
  have hsize := h.size_slots
  unfold Fits
  omega

/-- Where the slot of a name lies: between the header and the next slot. -/
theorem bounds (h : numbering.Lists names) (fits : numbering.Fits) {name : String} {slot : UInt64}
    (hslot : numbering.slot? name = some slot) :
    numbering.header ≤ slot ∧ slot < numbering.next := by
  obtain ⟨place, hplace, rfl⟩ := h.slot?_eq_some_iff.mp hslot
  have hlt := place_lt hplace
  rw [UInt64.le_iff_toNat_le, UInt64.lt_iff_toNat_lt, h.toNat_next fits,
    h.toNat_slotAt_of_mem fits hplace]
  omega

/-- The rows of a numbering that fits ascend by slot. -/
theorem ascending (h : numbering.Lists names) (fits : numbering.Fits) :
    numbering.slots.rows.Pairwise fun a b => a.2 < b.2 := by
  rw [h.rows, List.pairwise_map]
  refine (ascending_placed names).imp_of_mem ?_
  intro a b ha hb hab
  rw [UInt64.lt_iff_toNat_lt, h.toNat_slotAt_of_mem fits ha, h.toNat_slotAt_of_mem fits hb]
  omega

/-- The names of a numbering that fits are sorted by slot in the order of their first request. -/
theorem entries_eq (h : numbering.Lists names) (fits : numbering.Fits) :
    numbering.entries = numbering.slots.rows :=
  mergeSort_eq_self ((h.ascending fits).imp UInt64.le_of_lt)

/-- The slots of a numbering that fits follow each other behind the header, with one left free. -/
theorem map_toNat_entries (h : numbering.Lists names) (fits : numbering.Fits) :
    numbering.entries.map (fun row => (row.1, row.2.toNat))
      = (constructorName, numbering.header.toNat) :: (senderName, numbering.header.toNat + 1)
        :: names.zipIdx (numbering.header.toNat + 3) := by
  have hshift : (names.zipIdx 3).map (Prod.map id (· + numbering.header.toNat))
      = names.zipIdx (numbering.header.toNat + 3) :=
    List.map_snd_add_zipIdx_eq_zipIdx
  have hplaces : numbering.entries.map (fun row => (row.1, row.2.toNat))
      = (placed names).map fun row => (row.1, row.2 + numbering.header.toNat) := by
    rw [h.entries_eq fits, h.rows, List.map_map]
    apply List.map_congr_left
    intro row hrow
    simp only [Function.comp_apply, h.toNat_slotAt_of_mem fits hrow, Nat.add_comm]
  rw [hplaces, ← hshift, placed, List.map_cons, List.map_cons, Nat.zero_add, Nat.add_comm 1]
  rfl

/-- The slots and the next one are these numbers exactly if the last of them is a word. -/
theorem numbers_iff (h : numbering.Lists names) :
    (numbering.entries.map (fun row => (row.1, row.2.toNat))
          = (constructorName, numbering.header.toNat) :: (senderName, numbering.header.toNat + 1)
            :: names.zipIdx (numbering.header.toNat + 3)
        ∧ numbering.next.toNat = numbering.header.toNat + 3 + names.length)
      ↔ numbering.header.toNat + 3 + names.length < UInt64.size := by
  constructor
  · rintro ⟨-, hnext⟩
    rw [← hnext]
    exact numbering.next.toNat_lt_size
  · intro hlast
    have fits := h.fits_iff_length.mpr hlast
    refine ⟨h.map_toNat_entries fits, ?_⟩
    rw [h.toNat_next fits]
    omega

/-- Sorted by slot, the names with their slots are the same in whatever order they were listed. -/
theorem sorted_rows (h : numbering.Lists names) (counted : numbering.Counted)
    {listed : List (String × UInt64)} (hperm : listed.Perm numbering.slots.rows) :
    listed.mergeSort (fun a b => decide (a.2 ≤ b.2)) = numbering.entries := by
  refine mergeSort_eq_of_perm Prod.snd hperm ?_
  -- Rows of one slot are one row, because no two names share a slot.
  intro a ha b hb hslot
  have ha' := (Registry.mem_rows_iff a).mp ha
  have hb' := (Registry.mem_rows_iff b).mp hb
  exact Prod.ext (h.slot_injective counted (hslot ▸ ha') hb') hslot

/-- A numbering fits exactly if the next slot is above the header. -/
theorem fits_iff (h : numbering.Lists names) (counted : numbering.Counted) :
    numbering.Fits ↔ numbering.header < numbering.next := by
  constructor
  · intro fits
    rw [UInt64.lt_iff_toNat_lt, h.toNat_next fits]
    omega
  · -- A sum of two words that wraps is below both of them.
    intro hlt
    have hsize := h.size_slots
    have hheader := numbering.header.toNat_lt_size
    have hword : UInt64.size = 2 ^ 64 := rfl
    unfold Counted at counted
    rw [h.next, UInt64.lt_iff_toNat_lt, slotAt, UInt64.toNat_add, UInt64.toNat_ofNat'] at hlt
    unfold Fits
    omega

end Lists

end Numbering

end ScopeLayout
