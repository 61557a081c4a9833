import ScopeLayout.Proofs.RequestHistory

/-!
# `ScopeLayout.Proofs.DispatchTable`: one slot for one name in all classes

A class keeps a copy of the slot next to each method that it defines, while the
slots are handed out by the numbering that the whole hierarchy shares. The two
agree in every world that comes about by steps:

* `Built.lists`: every numbering has the shape that `Numbering.Lists` describes.
* `Built.slotted`: a method that a class defines stands at the slot of its name.

A dispatch table is laid together from the classes of a lineage. It lists what the
look-up of a single name finds (`mem_dispatchTable_iff`), so that its slots are those of
the numbering (`Built.slot_of_method`) and a class has a method for every name that an
ancestor has one for (`method?_of_mem_lineage`). In all tables of a hierarchy these are
the slots of one numbering (`Built.slot_of_entry`).

`dispatch_slots_agree` puts this together for all dispatch tables of a world. What it says
of one slot for one name holds without a condition. That the slots lie within the class
object holds as long as the numbering fits, and `not_slot_within_class_object` is a world
where it does not: the header leaves no room for a method.
-/

set_option autoImplicit false

namespace ScopeLayout

namespace World

/-! ### Numberings and the methods that stand in them -/

/-- Every numbering of the world has its shape. -/
theorem Built.lists {w : World} (built : w.Built) : ∀ {n numbering},
    w.numberingAt? n = some numbering → ∃ names, numbering.Lists names := by
  induction built with
  | refl =>
    intro n numbering found
    simp [numberingAt?, World.empty] at found
  | @tail before after _ step ih =>
    intro n numbering found'
    cases found : before.numberingAt? n with
    | some old =>
      obtain ⟨names, hnames⟩ := ih found
      rcases step.numbering_grows found with hkept | ⟨name, hgrown⟩
      · obtain rfl : old = numbering := Option.some.inj (hkept.symm.trans found')
        exact ⟨names, hnames⟩
      · obtain rfl : old.allocate name = numbering := Option.some.inj (hgrown.symm.trans found')
        exact ⟨_, hnames.allocate name⟩
    | none =>
      -- A copy has the names of its source, which has its shape already.
      rcases step.numbering_made found found' with ⟨settings, rfl⟩ | ⟨source, hsource⟩
      · exact ⟨[], .fresh settings⟩
      · exact ih hsource

/-- The methods that a class defines stand at the slots that the numbering of the class has for
their names. -/
def Slotted (w : World) (body : ClassBody) : Prop :=
  ∀ name method, body.methods.find? name = some method →
    ∃ numbering, w.numberingAt? body.numbering = some numbering
      ∧ numbering.slot? name = some method.slot

/-- A slot that was handed out stays with its name. -/
theorem slot_kept {w w' : World} (step : w.Step w') {n : NumberingId} {name : String}
    {slot : UInt64}
    (h : ∃ numbering, w.numberingAt? n = some numbering ∧ numbering.slot? name = some slot) :
    ∃ numbering, w'.numberingAt? n = some numbering ∧ numbering.slot? name = some slot := by
  obtain ⟨numbering, found, hslot⟩ := h
  rcases step.numbering_grows found with hkept | ⟨key, hgrown⟩
  · exact ⟨numbering, hkept, hslot⟩
  · refine ⟨_, hgrown, ?_⟩
    rw [Numbering.slot?_allocate]
    split
    · -- The name itself is asked for again, and answered with the slot it has.
      rename_i hname
      have hsame : numbering.slotFor key = slot := by
        rw [Numbering.slotFor, ← hname, hslot]
        rfl
      rw [hsame]
    · exact hslot

/-- Growing keeps a class slotted. A new method stands where the numbering has its name, and code
does not move a method. -/
theorem Slotted.grow {w : World} {body body' : ClassBody} (h : w.Slotted body)
    (grows : body.Grows w body') : w.Slotted body' := by
  cases grows with
  | same => exact h
  | extend => exact h
  | addField _ _ => exact h
  | @define numbering key slot numbered slotted =>
    intro name method hfind
    change (body.methods.add key { name := key, slot }).find? name = some method at hfind
    rw [Registry.find?_add] at hfind
    cases hold : body.methods.find? name with
    | some old =>
      -- The class had the method, which `add` leaves alone.
      rw [hold, Option.some_or] at hfind
      exact h name method (hold.trans hfind)
    | none =>
      rw [hold, Option.none_or] at hfind
      split at hfind
      · rename_i hname
        obtain rfl := Option.some.inj hfind
        exact ⟨numbering, numbered, hname ▸ slotted⟩
      · exact nomatch hfind
  | bind key label =>
    intro name method hfind
    change (body.methods.update key fun m => { m with label? := some label }).find? name
      = some method at hfind
    rw [Registry.find?_update] at hfind
    split at hfind
    · -- The method has other code now, and the same slot.
      obtain ⟨old, hold, rfl⟩ := Option.map_eq_some_iff.mp hfind
      exact h name old hold
    · exact h name method hfind

/-- In every world that comes about by steps, methods stand at the slots of their names. -/
theorem Built.slotted {w : World} (built : w.Built) {c : ClassId} {body : ClassBody}
    (found : w.classAt? c = some body) : w.Slotted body := by
  refine built.class_induction (P := Slotted) ?_ ?_ ?_ found
  -- A new class defines no method, whether it extends another or not.
  · intro w name g n _ _ hfind
    exact nomatch hfind
  · intro w w' body name parent step hparent _ _ hfind
    exact nomatch hfind
  · intro w w' body body' step grows h name method hfind
    exact slot_kept step (h.grow grows name method hfind)

/-! ### Dispatch tables -/

/-- A class has its methods under their own names. -/
theorem named_ownMethods (w : World) (c : ClassId) : (w.ownMethods c).Named Method.name := by
  unfold ownMethods
  cases w.classAt? c with
  | none => exact Registry.named_empty Method.name
  | some body => exact body.named

/-- A method that is looked up bears the name that is asked for. -/
theorem name_of_method? {w : World} {c : ClassId} {name : String} {method : Method}
    (h : w.method? c name = some method) : method.name = name := by
  obtain ⟨a, -, hfind⟩ := List.exists_of_findSome?_eq_some h
  exact w.named_ownMethods a name method hfind

/-- With the methods of one more class laid over it, a table has those and else what it had. -/
theorem mem_overlay_iff {own : Registry Method} (named : own.Named Method.name)
    {inherited : List Method} {look : String → Option Method}
    (listed : ∀ e, e ∈ inherited ↔ look e.name = some e)
    (bears : ∀ name e, look name = some e → e.name = name) (e : Method) :
    e ∈ overlay inherited own.values ↔ ((own.find? e.name).or (look e.name)) = some e := by
  have hlaid : ((Registry.empty.putAll Method.name inherited).putAll Method.name
      own.values).Named Method.name :=
    ((Registry.named_empty Method.name).putAll inherited).putAll own.values
  have hown : ∀ e, e ∈ own.values.reverse ↔ own.find? e.name = some e := by
    intro e
    rw [List.mem_reverse, named.mem_values_iff]
  have hinherited : ∀ e, e ∈ inherited.reverse ↔ look e.name = some e := by
    intro e
    rw [List.mem_reverse, listed]
  rw [overlay, List.mem_mergeSort, hlaid.mem_values_iff, Registry.find?_putAll,
    Registry.find?_putAll, find?_eq_of_mem_iff hown named, find?_eq_of_mem_iff hinherited bears,
    Registry.find?_empty, Option.or_none]

/-- Laying methods over each other lists what looking for one name finds, class by class. -/
theorem mem_foldr_overlay_iff (w : World) (classes : List ClassId) (e : Method) :
    e ∈ classes.foldr (fun c inherited => overlay inherited (w.ownMethods c).values) []
      ↔ (classes.findSome? fun c => (w.ownMethods c).find? e.name) = some e := by
  induction classes generalizing e with
  | nil => simp
  | cons c rest ih =>
    have bears : ∀ name e, (rest.findSome? fun c => (w.ownMethods c).find? name) = some e →
        e.name = name := by
      intro name e h
      obtain ⟨a, -, hfind⟩ := List.exists_of_findSome?_eq_some h
      exact w.named_ownMethods a name e hfind
    rw [List.foldr_cons, mem_overlay_iff (w.named_ownMethods c) ih bears, List.findSome?_cons]
    cases (w.ownMethods c).find? e.name <;> rfl

/-- A dispatch table lists what the look-up of a single name finds. -/
theorem mem_dispatchTable_iff (w : World) (c : ClassId) (e : Method) :
    e ∈ w.dispatchTable c ↔ w.method? c e.name = some e :=
  w.mem_foldr_overlay_iff (w.lineage c) e

/-- Dispatch tables are known once it is known what the classes of the lineage define. -/
theorem dispatchTable_congr {w w' : World} {c : ClassId}
    (h : (w'.lineage c).map w'.ownMethods = (w.lineage c).map w.ownMethods) :
    w'.dispatchTable c = w.dispatchTable c := by
  have hlaid : ∀ v : World, v.dispatchTable c = ((v.lineage c).map v.ownMethods).foldr
      (fun own inherited => overlay inherited own.values) [] := by
    intro v
    rw [List.foldr_map]
    rfl
  rw [hlaid, hlaid, h]

/-- So is what the look-up of a name finds. -/
theorem method?_congr {w w' : World} {c : ClassId}
    (h : (w'.lineage c).map w'.ownMethods = (w.lineage c).map w.ownMethods) (name : String) :
    w'.method? c name = w.method? c name := by
  have hlook : ∀ v : World, v.method? c name
      = ((v.lineage c).map v.ownMethods).findSome? fun own => own.find? name := by
    intro v
    rw [List.findSome?_map]
    rfl
  rw [hlook, hlook, h]

/-- A method that is found for a class stands at the slot that the numbering of the class has for
its name, even if an ancestor defines it. -/
theorem Built.slot_of_method {w : World} (built : w.Built) {c : ClassId} {name : String}
    {method : Method} (h : w.method? c name = some method) : ∃ body numbering,
      w.classAt? c = some body ∧ w.numberingAt? body.numbering = some numbering
        ∧ numbering.slot? name = some method.slot := by
  obtain ⟨a, ha, hfind⟩ := List.exists_of_findSome?_eq_some h
  cases hancestor : w.classAt? a with
  | none => simp [ownMethods, hancestor] at hfind
  | some ancestor =>
    have hmethod : ancestor.methods.find? name = some method := by
      simpa [ownMethods, hancestor] using hfind
    obtain ⟨numbering, hnumbering, hslot⟩ := built.slotted hancestor name method hmethod
    -- The slot is known in the numbering of the ancestor, which is that of the class.
    cases found : w.classAt? c with
    | none =>
      -- Nothing is found for a class that does not exist: its lineage is the class alone.
      have hp : w.parent? c = none := by simp [parent?, found]
      rw [lineage_of_root hp, List.mem_singleton] at ha
      exact nomatch (ha ▸ hancestor).symm.trans found
    | some body =>
      obtain ⟨ancestor', hancestor', -, hshared, -⟩ := built.grounded.of_mem_lineage found a ha
      obtain rfl : ancestor = ancestor' := Option.some.inj (hancestor.symm.trans hancestor')
      exact ⟨body, numbering, rfl, hshared ▸ hnumbering, hslot⟩

/-- A class has a method for every name that an ancestor has one for. -/
theorem Grounded.method?_of_mem_lineage {w : World} (grounded : w.Grounded) {c d : ClassId}
    (hc : c ∈ w.lineage d) {name : String} {method : Method}
    (h : w.method? c name = some method) : ∃ nearer, w.method? d name = some nearer := by
  rw [← Option.isSome_iff_exists, method?, List.findSome?_isSome_iff]
  obtain ⟨a, ha, hfind⟩ := List.exists_of_findSome?_eq_some h
  exact ⟨a, grounded.lineage_subset c hc ha, by rw [hfind]; rfl⟩

/-- The entries of all dispatch tables of a hierarchy have their slots in the one numbering that its
classes share. -/
theorem Built.slot_of_entry {w : World} (built : w.Built) {c d : ClassId} {body : ClassBody}
    {numbering : Numbering} (found : w.classAt? c = some body)
    (numbered : w.numberingAt? body.numbering = some numbering) (hroot : w.root c = w.root d)
    {e : Method} (he : e ∈ w.dispatchTable d) : numbering.slot? e.name = some e.slot := by
  obtain ⟨other, numbering', found', numbered', hslot⟩ :=
    built.slot_of_method ((w.mem_dispatchTable_iff d e).mp he)
  rw [← built.grounded.numbering_eq_of_root_eq found found' hroot, numbered] at numbered'
  obtain rfl : numbering = numbering' := Option.some.inj numbered'
  exact hslot

/-- So entries of one name have one slot in all classes of a hierarchy. -/
theorem Built.slot_eq_of_name_eq {w : World} (built : w.Built) {c d : ClassId}
    (hroot : w.root c = w.root d) {e₁ e₂ : Method} (he₁ : e₁ ∈ w.dispatchTable c)
    (he₂ : e₂ ∈ w.dispatchTable d) (hname : e₁.name = e₂.name) : e₁.slot = e₂.slot := by
  obtain ⟨body, numbering, found, numbered, hslot₁⟩ :=
    built.slot_of_method ((w.mem_dispatchTable_iff c e₁).mp he₁)
  have hslot₂ := built.slot_of_entry found numbered hroot he₂
  rw [hname, hslot₂] at hslot₁
  exact (Option.some.inj hslot₁).symm

/-- A class has an entry of the same name and slot for every entry of an ancestor. It may define the
method again, but then at the slot of the name. -/
theorem Built.entry_of_ancestor {w : World} (built : w.Built) {c d : ClassId}
    (hc : c ∈ w.lineage d) {e : Method} (he : e ∈ w.dispatchTable c) :
    ∃ e' ∈ w.dispatchTable d, e'.name = e.name ∧ e'.slot = e.slot := by
  have grounded := built.grounded
  obtain ⟨nearer, hnearer⟩ :=
    grounded.method?_of_mem_lineage hc ((w.mem_dispatchTable_iff c e).mp he)
  have hname := name_of_method? hnearer
  have hmem : nearer ∈ w.dispatchTable d :=
    (w.mem_dispatchTable_iff d nearer).mpr (hname.symm ▸ hnearer)
  have hroot := (grounded.root_eq_of_mem_lineage c hc).symm
  exact ⟨nearer, hmem, hname, built.slot_eq_of_name_eq hroot hmem he hname⟩

/-- The class object of a class has a place for every slot of its numbering. -/
theorem Grounded.view?_eq_some {w : World} (grounded : w.Grounded) {c : ClassId} {body : ClassBody}
    (found : w.classAt? c = some body) : ∃ view numbering, w.view? c = some view
      ∧ w.numberingAt? body.numbering = some numbering ∧ view.size = numbering.next := by
  obtain ⟨-, numbering, -, hnumbering, -⟩ := grounded.home found
  exact ⟨_, numbering, view?_of_found found hnumbering, hnumbering, rfl⟩

/-- The slots that dispatch tables show are those that the numbering of the hierarchy hands out.

In classes of one root, entries of one name have one slot. Every slot is the one that is served for
the name, and the header is that of the settings. A class has an entry with the same name and slot
for every entry of an ancestor.

As long as the names that have a slot can be counted, and they can be after every run of fewer
requests than there are words, entries of one slot have one name, no entry stands on the free place,
and only the two methods that every class has stand on the first two. If the numbering fits, every
entry lies behind the header and within the class object of every class of the hierarchy. It fits
exactly if the class object is larger than its header, because the size wraps around where it does
not. -/
theorem dispatch_slots_agree {w : World} (reachable : w.Reachable) :
    (∀ c d, w.root c = w.root d → ∀ e₁ ∈ w.dispatchTable c, ∀ e₂ ∈ w.dispatchTable d,
      e₁.name = e₂.name → e₁.slot = e₂.slot)
    ∧ (∀ c body, w.classAt? c = some body → ∃ globals numbering,
        w.globalsAt? body.globals = some globals
        ∧ w.numberingAt? body.numbering = some numbering
        ∧ numbering.header = globals.settings.headerSlots
        ∧ (∀ e ∈ w.dispatchTable c,
            w.serve (.slotOf body.numbering e.name) = (w, .slot e.slot))
        ∧ (∀ requests, w = after requests → requests.length + 2 < UInt64.size →
            numbering.Counted)
        ∧ (numbering.Counted → ∀ e₁ ∈ w.dispatchTable c,
            (∀ d, w.root c = w.root d → ∀ e₂ ∈ w.dispatchTable d,
              e₁.name = e₂.name ↔ e₁.slot = e₂.slot)
            ∧ e₁.slot ≠ numbering.header + 2
            ∧ (e₁.slot = numbering.header → e₁.name = constructorName)
            ∧ (e₁.slot = numbering.header + 1 → e₁.name = senderName))
        ∧ (∀ d other, w.classAt? d = some other → w.root c = w.root d → ∃ view,
            w.view? d = some view
            ∧ (numbering.Fits → ∀ e ∈ w.dispatchTable c,
                numbering.header ≤ e.slot ∧ e.slot < view.size)
            ∧ (numbering.Counted → (numbering.Fits ↔ numbering.header < view.size))))
    ∧ (∀ d, ∀ c ∈ w.lineage d, ∀ e ∈ w.dispatchTable c,
        ∃ e' ∈ w.dispatchTable d, e'.name = e.name ∧ e'.slot = e.slot) := by
  have built := reachable.built
  have grounded := built.grounded
  refine ⟨fun c d hroot e₁ he₁ e₂ he₂ => built.slot_eq_of_name_eq hroot he₁ he₂, ?_,
    fun d c hc e he => built.entry_of_ancestor hc he⟩
  intro c body found
  obtain ⟨globals, numbering, hglobals, hnumbering, hheader⟩ := grounded.home found
  obtain ⟨names, hnames⟩ := built.lists hnumbering
  have hslots : ∀ d, w.root c = w.root d → ∀ e ∈ w.dispatchTable d,
      numbering.slot? e.name = some e.slot :=
    fun d hroot e he => built.slot_of_entry found hnumbering hroot he
  refine ⟨globals, numbering, hglobals, hnumbering, hheader, ?_, ?_, ?_, ?_⟩
  · intro e he
    rw [serve_slotOf hnumbering, Numbering.demand, hslots c rfl e he]
    rfl
  · rintro requests rfl short
    exact counted_of_length requests hnumbering short
  · intro counted e₁ he₁
    obtain ⟨hfree, hfirst, hsecond⟩ := hnames.builtin_slots counted (hslots c rfl e₁ he₁)
    have hheader₀ : Numbering.slotAt numbering.header 0 = numbering.header := UInt64.add_zero _
    rw [hheader₀] at hfirst
    refine ⟨?_, hfree, hfirst, hsecond⟩
    intro d hroot e₂ he₂
    refine ⟨built.slot_eq_of_name_eq hroot he₁ he₂, ?_⟩
    intro hslot
    exact hnames.slot_injective counted (hslots c rfl e₁ he₁) (hslot ▸ hslots d hroot e₂ he₂)
  · -- The next slot of the shared numbering is the size of every class object.
    intro d other hd hroot
    obtain ⟨view, shared, hview, hshared, hsize⟩ := grounded.view?_eq_some hd
    rw [← grounded.numbering_eq_of_root_eq found hd hroot, hnumbering] at hshared
    obtain rfl : numbering = shared := Option.some.inj hshared
    refine ⟨view, hview, ?_, ?_⟩
    · intro fits e he
      rw [hsize]
      exact hnames.bounds fits (hslots c rfl e he)
    · rw [hsize]
      exact hnames.fits_iff

/-- Two classes of one parent, which itself gets a method after they are made. -/
def siblings : World := (World.empty.run [
  .openGlobals .standard, .addRoot "A" ⟨0⟩, .addMethod ⟨0⟩ "go", .addChild "B" ⟨0⟩,
  .bindMethod ⟨1⟩ "new" "B_new", .allocate ⟨0⟩ "puts", .addChild "C" ⟨0⟩,
  .addMethod ⟨2⟩ "stop", .bindMethod ⟨0⟩ "late" "A_late"]).1

/-- The tables of the two classes show the late method of the parent at one slot, and the methods
of their own at others. All lie within the class object. -/
theorem dispatch_slots_agree_siblings :
    siblings.Reachable ∧ siblings.root ⟨1⟩ = siblings.root ⟨2⟩
    ∧ { name := "new", slot := 4, label? := some "B_new" } ∈ siblings.dispatchTable ⟨1⟩
    ∧ { name := "late", slot := 10, label? := some "A_late" } ∈ siblings.dispatchTable ⟨1⟩
    ∧ { name := "stop", slot := 9 } ∈ siblings.dispatchTable ⟨2⟩
    ∧ { name := "late", slot := 10, label? := some "A_late" } ∈ siblings.dispatchTable ⟨2⟩
    ∧ (∀ e₁ ∈ siblings.dispatchTable ⟨1⟩, ∀ e₂ ∈ siblings.dispatchTable ⟨2⟩,
        e₁.name = e₂.name ↔ e₁.slot = e₂.slot)
    ∧ (∃ view, siblings.view? ⟨2⟩ = some view
        ∧ ∀ e ∈ siblings.dispatchTable ⟨1⟩, 4 ≤ e.slot ∧ e.slot < view.size)
    ∧ siblings.serve (.slotOf ⟨0⟩ "late") = (siblings, .slot 10) := by
  have hreachable : siblings.Reachable := Reachable.empty.run _
  have hroot : siblings.root ⟨1⟩ = siblings.root ⟨2⟩ := by decide +kernel
  have hmem := siblings.mem_dispatchTable_iff
  obtain ⟨body, hbody, hshared⟩ := Option.map_eq_some_iff.mp
    (show (siblings.classAt? ⟨1⟩).map (·.numbering) = some ⟨0⟩ by decide +kernel)
  obtain ⟨other, hother⟩ := Option.isSome_iff_exists.mp
    (show (siblings.classAt? ⟨2⟩).isSome = true by decide +kernel)
  have hfits : (siblings.numberingAt? ⟨0⟩).all (fun n => n.header = 4 ∧ n.Fits) = true := by
    decide +kernel
  obtain ⟨-, hslots, -⟩ := dispatch_slots_agree hreachable
  obtain ⟨_, numbering, -, hnumbering, -, hserved, -, hseparate, hbounds⟩ :=
    hslots ⟨1⟩ body hbody
  rw [hshared] at hnumbering hserved
  obtain ⟨hheader, fits⟩ : numbering.header = 4 ∧ numbering.Fits := by
    simpa [hnumbering] using hfits
  have hlate : { name := "late", slot := 10, label? := some "A_late" }
      ∈ siblings.dispatchTable ⟨1⟩ := (hmem _ _).mpr (by decide +kernel)
  obtain ⟨view, hview, hwithin, -⟩ := hbounds ⟨2⟩ other hother hroot
  exact ⟨hreachable, hroot, (hmem _ _).mpr (by decide +kernel), hlate,
    (hmem _ _).mpr (by decide +kernel), (hmem _ _).mpr (by decide +kernel),
    fun e₁ he₁ => (hseparate fits.counted e₁ he₁).1 ⟨2⟩ hroot,
    ⟨view, hview, hheader ▸ hwithin fits⟩, hserved _ hlate⟩

/-- A class with four slots behind its header. Its only method takes the last of them. -/
def crowded : World := (World.empty.run [
  .openGlobals { headerSlots := 18446744073709551612 }, .addRoot "A" ⟨0⟩, .addMethod ⟨0⟩ "go"]).1

/-- An entry of a dispatch table need not lie within the class object. Here the method stands at the
last word, and the size of the class object has wrapped around to zero. -/
theorem not_slot_within_class_object :
    ¬ ∀ w : World, w.Reachable → ∀ c view, w.view? c = some view →
      ∀ e ∈ view.dispatch, e.slot < view.size := by
  intro h
  have hreachable : crowded.Reachable := Reachable.empty.run _
  have hview : crowded.view? ⟨0⟩ = some {
      name := "A"
      superclass? := none
      fields := [selfField]
      extended := false
      dispatch := [{ name := "go", slot := 18446744073709551615 }]
      size := 0 } := by decide +kernel
  have hwithin := h crowded hreachable ⟨0⟩ _ hview _ List.mem_cons_self
  exact absurd hwithin (by decide)

end World

end ScopeLayout
